import EventSim.Proofs.RoundedSum
import EventSim.Proofs.TimeOrder

set_option autoImplicit false

/-!
# Sums of times

Times are ordered like the positions of their seconds, so what is known of rounded sums holds of times: to wait does not
lead back, and what is before stays before.

## Main results

* `EventSim.SimTime.le_iff_ordinal` — times are ordered like positions.
* `EventSim.SimTime.add_le_add` — addition is monotone.
* `EventSim.SimTime.le_after`, `EventSim.SimTime.after_le_after` — to wait does not lead back, and is monotone.
-/

namespace EventSim

namespace SimTime

variable {a b c d e : SimTime}

lemma le_iff_ordinal : a ≤ b ↔ a.secs.ordinal ≤ b.secs.ordinal := Binary64.rank_le_iff

lemma lt_iff_ordinal : a < b ↔ a.secs.ordinal < b.secs.ordinal := by
  rw [← not_le, le_iff_ordinal, not_le]

/-- **Addition is monotone.** Neither an earlier instant nor a shorter step gives a later sum. -/
theorem add_le_add (ha : a.isFinite = true) (hb : b.isFinite = true) (hd : d.secs.isPositiveFinite = true)
    (he : e.secs.isPositiveFinite = true) (hab : a ≤ b) (hde : d ≤ e) : a + d ≤ b + e :=
  le_iff_ordinal.2 (Binary64.ordinal_add_le_add ha hb hd he (le_iff_ordinal.1 hab) (le_iff_ordinal.1 hde))

/-- What lies between two finite times is finite. -/
lemma isFinite_of_le_of_le (ha : a.isFinite = true) (hc : c.isFinite = true) (hab : a ≤ b) (hbc : b ≤ c) :
    b.isFinite = true := by
  have ha := Binary64.isFinite_iff_ordinal.1 ha
  have hc := Binary64.isFinite_iff_ordinal.1 hc
  have hab := le_iff_ordinal.1 hab
  have hbc := le_iff_ordinal.1 hbc
  exact Binary64.isFinite_iff_ordinal.2 ⟨by omega, by omega⟩

/-- Finite times come after negative infinity. -/
lemma negInfinity_le (ha : a.isFinite = true) : ⟨Binary64.negInfinity⟩ ≤ a := by
  have hneg : Binary64.negInfinity.ordinal = -(Binary64.infinity.magnitude.toNat : Int) - 1 := rfl
  rw [le_iff_ordinal, hneg]
  exact (Binary64.isFinite_iff_ordinal.1 ha).1.le

/-- To wait does not lead back. -/
lemma le_after {s : Binary64} (ha : a.isFinite = true) (hs : s.isPositiveFinite = true) : a ≤ a.after s :=
  le_iff_ordinal.2 (Binary64.ordinal_le_add ha hs)

/-- **To wait is monotone**, if one of the two times is finite. -/
theorem after_le_after {s : Binary64} (hs : s.isPositiveFinite = true) (hfinite : a.isFinite = true ∨ b.isFinite = true)
    (hab : a ≤ b) : a.after s ≤ b.after s :=
  le_iff_ordinal.2 (Binary64.ordinal_add_le_add_of_isFinite hs hfinite (le_iff_ordinal.1 hab))

/-- Nobody waits infinitely long between two finite times. -/
lemma isPositiveFinite_of_after_le {s : Binary64} (hs : Binary64.zero.numericLt s = true) (ha : a.isFinite = true)
    (hb : b.isFinite = true) (hle : a.after s ≤ b) : s.isPositiveFinite = true := by
  refine Binary64.isPositiveFinite_iff_numericLt.2 ⟨?_, hs⟩
  by_contra hinfinite
  obtain ⟨hnan, hpos⟩ := Binary64.zero_numericLt_iff.1 hs
  rcases Binary64.eq_of_isInfinite (Bool.eq_false_of_not_eq_true hinfinite) hnan with rfl | rfl
  · have hsum : (a.after Binary64.infinity).secs = Binary64.infinity := (Binary64.add_infinite ha (Or.inl rfl)).1
    have hle := le_iff_ordinal.1 hle
    rw [hsum] at hle
    exact not_le.2 (Binary64.isFinite_iff_ordinal.1 hb).2 hle
  · exact absurd hpos (by decide)

end SimTime

end EventSim
