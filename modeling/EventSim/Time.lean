import EventSim.Decimal.Layout

set_option autoImplicit false

/-!
# Simulation time

Time is a count of seconds, held as a binary64 number. Times are compared by the total order of
binary64 numbers, so every pair of times is comparable, infinities and NaNs included, and two times are
equal only when their bits are. `Horizon` is the instant up to which delivery is safe, with the step by
which it advances.

## Main definitions

* `EventSim.SimTime` — an instant.
* `EventSim.Horizon` — the delivery bound of a round and the step between rounds.
* `EventSim.Horizon.advance`, `EventSim.Horizon.advanceTo` — the two ways to move on.

## Main results

* `EventSim.SimTime.lt_trans`, `EventSim.SimTime.lt_trichotomy` — times are linearly ordered.
* `EventSim.SimTime.le_iff_not_lt` — the two comparisons agree.
-/

namespace EventSim

/-! ## Instants -/

/-- An instant, in seconds. -/
structure SimTime where
  /-- Seconds since the epoch of the scenario. -/
  secs : Binary64
  deriving DecidableEq, Hashable, Repr, Inhabited

namespace SimTime

/-- The epoch. -/
def zero : SimTime := ⟨Binary64.zero⟩

/-- The position of an instant in the order of all times. -/
def rank (t : SimTime) : UInt64 := t.secs.rank

instance : LT SimTime := ⟨fun a b => a.rank < b.rank⟩
instance : LE SimTime := ⟨fun a b => a.rank ≤ b.rank⟩

theorem lt_def {a b : SimTime} : a < b ↔ a.rank < b.rank := Iff.rfl

theorem le_def {a b : SimTime} : a ≤ b ↔ a.rank ≤ b.rank := Iff.rfl

instance (a b : SimTime) : Decidable (a < b) := inferInstanceAs (Decidable (a.rank < b.rank))
instance (a b : SimTime) : Decidable (a ≤ b) := inferInstanceAs (Decidable (a.rank ≤ b.rank))

instance : Ord SimTime := ⟨fun a b => compareOfLessAndEq a b⟩

theorem lt_iff_toNat {a b : SimTime} : a < b ↔ a.rank.toNat < b.rank.toNat :=
  UInt64.lt_iff_toNat_lt

theorem le_iff_toNat {a b : SimTime} : a ≤ b ↔ a.rank.toNat ≤ b.rank.toNat :=
  UInt64.le_iff_toNat_le

theorem rank_inj {a b : SimTime} (h : a.rank.toNat = b.rank.toNat) : a = b := by
  cases a; cases b
  exact congrArg SimTime.mk (Binary64.rank_inj (UInt64.toNat_inj.1 h))

theorem lt_irrefl (a : SimTime) : ¬ a < a := by
  rw [lt_iff_toNat]; omega

theorem lt_trans {a b c : SimTime} (hab : a < b) (hbc : b < c) : a < c := by
  rw [lt_iff_toNat] at *; omega

theorem lt_trichotomy (a b : SimTime) : a < b ∨ a = b ∨ b < a := by
  by_cases h : a.rank.toNat = b.rank.toNat
  · exact Or.inr (Or.inl (rank_inj h))
  · rw [lt_iff_toNat, lt_iff_toNat]; omega

theorem le_iff_not_lt {a b : SimTime} : a ≤ b ↔ ¬ b < a := by
  rw [le_iff_toNat, lt_iff_toNat]; omega

/-- The earlier of two times. -/
instance : Min SimTime := ⟨fun a b => if b < a then b else a⟩

/-- The later of two times. -/
instance : Max SimTime := ⟨fun a b => if a < b then b else a⟩

/-- The earliest of some times. -/
def earliest? : List SimTime → Option SimTime
  | [] => none
  | t :: ts => some (ts.foldl min t)

/-- The instant is neither infinite nor a NaN. -/
def isFinite (t : SimTime) : Bool := t.secs.isFinite

/-- The instant a number of seconds later, rounded. -/
def after (t : SimTime) (secs : Binary64) : SimTime := ⟨t.secs + secs⟩

/-- The seconds from one instant to another, rounded. -/
def since (t s : SimTime) : Binary64 := t.secs - s.secs

instance : Add SimTime := ⟨fun a b => a.after b.secs⟩

/-- An instant in messages, such as `t=2.500`. -/
def text (t : SimTime) : String := "t=" ++ t.secs.fixed 3

/-- An instant in descriptions of values, such as `SimTime(2.5)`. -/
def description (t : SimTime) : String := "SimTime(" ++ Layout.tagged.write t.secs ++ ")"

end SimTime

/-! ## Horizons -/

/-- The state of synchronisation. -/
structure Horizon where
  /-- The upper end of the delivery window, which belongs to it. -/
  current : SimTime
  /-- The step between rounds. -/
  delta : SimTime
  deriving DecidableEq, Repr

namespace Horizon

/-- The horizon of the first round of a run that begins at `start`. -/
def first (start delta : SimTime) : Horizon := ⟨start + delta, delta⟩

/-- One step further. -/
def advance (h : Horizon) : Horizon := { h with current := h.current + h.delta }

/-- The window that begins at the earliest pending message, and at least one step further. -/
def advanceTo (h : Horizon) (earliest : SimTime) : Horizon :=
  { h with current := max (h.current + h.delta) (earliest + h.delta) }

/-- A horizon in messages. -/
def text (h : Horizon) : String :=
  "horizon " ++ h.current.text ++ " (delta " ++ h.delta.secs.fixed 3 ++ ")"

end Horizon

end EventSim
