import EventSim.Proofs.Adjacency
import EventSim.Proofs.SumsOfTimes
import EventSim.Traffic.Population

set_option autoImplicit false

/-!
# Windows of departure

A window is accepted if its ends are finite and in order, where the order is the total one. A number is drawn from it if
its ends are numerically in order and the difference of them is finite. The two do not agree: negative zero comes before
zero in the one order and not in the other, and the difference of two finite numbers may be infinite. From such a window
no departure can be drawn, and the drawing of a population breaks down as soon as the first vehicle has a route. The
other cause of a breakdown is a number of vehicles that no memory can hold.

## Main definitions

* `EventSim.DepartureWindow.Accepted`, `EventSim.DepartureWindow.Undrawable` — windows that pass the check, and those
  of them from which nothing can be drawn.

## Main results

* `EventSim.DepartureWindow.Accepted.undrawable_iff` — where the two checks of a window differ.
* `EventSim.Population.draw_eq_crash_iff` — when the drawing of a population breaks down.
* `EventSim.Population.exists_draw_eq_crash` — it does so for a window from negative zero to zero.
-/

namespace EventSim

/-! ## The two checks of a window -/

namespace DepartureWindow

open Binary64 (zero)

/-- The window passes the check: its ends are finite, and it does not end before it starts. -/
structure Accepted (w : DepartureWindow) : Prop where
  /-- The start is finite. -/
  start : w.start.isFinite = true
  /-- The end is finite. -/
  finish : w.finish.isFinite = true
  /-- The end is not before the start. -/
  ordered : ¬ w.finish < w.start

lemma accepted_iff {w : DepartureWindow} :
    w.Accepted ↔ w.start.isFinite = true ∧ w.finish.isFinite = true ∧ ¬ w.finish < w.start :=
  ⟨fun ⟨hstart, hfinish, hordered⟩ => ⟨hstart, hfinish, hordered⟩,
    fun ⟨hstart, hfinish, hordered⟩ => ⟨hstart, hfinish, hordered⟩⟩

instance (w : DepartureWindow) : Decidable w.Accepted := decidable_of_iff _ accepted_iff.symm

/-- The window goes from negative zero to zero, or its width is beyond the largest number. -/
def Undrawable (w : DepartureWindow) : Prop :=
  w.start.secs = -zero ∧ w.finish.secs = zero ∨
    (2 ^ 54 - 1) * 2 ^ 2044 ≤ (w.finish.secs.units - w.start.secs.units).toNat

instance (w : DepartureWindow) : Decidable w.Undrawable := inferInstanceAs (Decidable (_ ∧ _ ∨ _))

variable {w : DepartureWindow}

/-- **Where the two checks of a window differ**: of an accepted window that is more than an instant, nothing can be
drawn if it goes from negative zero to zero, or if it is too wide. -/
theorem Accepted.undrawable_iff (h : w.Accepted) :
    w.Undrawable ↔ w.start < w.finish ∧ drawable w.start.secs w.finish.secs = false := by
  have hsub : w.start.secs.units < w.finish.secs.units → ((w.finish.secs - w.start.secs).isFinite = false ↔
      (2 ^ 54 - 1) * 2 ^ 2044 ≤ (w.finish.secs.units - w.start.secs.units).toNat) := fun hlt => by
    rw [← Bool.not_eq_true, Binary64.isFinite_sub_iff h.finish h.start hlt, Nat.not_lt]
  have hpos : ∀ k, 0 < (2 ^ 54 - 1) * 2 ^ k := fun k => Nat.mul_pos (by decide) (Nat.pow_pos (by decide))
  rw [Undrawable, drawable, Bool.and_eq_false_iff, SimTime.lt_iff_ordinal]
  constructor
  · rintro (⟨hstart, hfinish⟩ | hwide)
    · rw [hstart, hfinish]
      exact ⟨by decide, Or.inl rfl⟩
    · have hunits : w.start.secs.units < w.finish.secs.units := by
        by_contra hle
        rw [Int.toNat_of_nonpos (by omega)] at hwide
        exact Nat.not_lt.2 hwide (hpos 2044)
      refine ⟨?_, Or.inr ((hsub hunits).2 hwide)⟩
      by_contra hle
      exact not_lt.2 (Binary64.units_le_units (not_lt.1 hle)) hunits
  · rintro ⟨hlt, hnumeric | hinfinite⟩
    · exact Or.inl ((Binary64.numericLt_eq_false_iff h.start h.finish hlt).1 hnumeric)
    · by_cases hnumeric : w.start.secs.numericLt w.finish.secs = true
      · have hunits := Binary64.units_lt_units (Binary64.numericLt_iff.1 hnumeric).2.2
        exact Or.inr ((hsub hunits).1 hinfinite)
      · exact Or.inl ((Binary64.numericLt_eq_false_iff h.start h.finish hlt).1 (Bool.eq_false_of_not_eq_true hnumeric))

end DepartureWindow

/-! ## Breakdowns -/

namespace Population

variable {G : Type} [Draws G] {n : Network} {r : Router} {w : DepartureWindow}

/-- The drawing of a departure breaks down just if the window is undrawable, whatever is drawn. -/
lemma drawDeparture_cases (hw : w.Accepted) (g : G) :
    ¬ w.Undrawable ∧ (∃ departure g', drawDeparture w g = .ok (departure, g')) ∨
      w.Undrawable ∧ ∃ c, drawDeparture w g = .error (.crash c) := by
  rw [hw.undrawable_iff, drawDeparture]
  split_ifs with hlt hdrawable
  · exact Or.inl ⟨by simp [hdrawable], _, _, rfl⟩
  · exact Or.inr ⟨⟨hlt, Bool.eq_false_of_not_eq_true hdrawable⟩, _, rfl⟩
  · exact Or.inl ⟨fun h => hlt h.1, _, _, rfl⟩

/-- The first trip decides whether the drawing of trips breaks down. -/
lemma drawTrips_eq_crash_iff (hw : w.Accepted) (k : Nat) (trips : List (List LinkId × SimTime)) (g : G) :
    (∃ c, drawTrips n r w k trips g = .error (.crash c)) ↔
      0 < k ∧ w.Undrawable ∧ ∃ route g', drawRoute n r maxAttempts g = .ok (route, g') := by
  induction k generalizing trips g with
  | zero => exact iff_of_false (fun ⟨_, h⟩ => nomatch h) fun h => absurd h.1 (Nat.lt_irrefl 0)
  | succ k ih =>
    rw [drawTrips]
    cases hroute : drawRoute n r maxAttempts g with
    | error e => exact iff_of_false (fun ⟨_, h⟩ => nomatch h) fun ⟨_, _, _, _, h⟩ => nomatch h
    | ok x =>
      obtain ⟨route, g₁⟩ := x
      rcases drawDeparture_cases hw g₁ with ⟨hdrawable, departure, g₂, hdeparture⟩ | ⟨hundrawable, c, hdeparture⟩
      · change (∃ c, (drawDeparture w g₁ >>= fun x => drawTrips n r w k ((route, x.1) :: trips) x.2) = _) ↔ _
        rw [hdeparture]
        change (∃ c, drawTrips n r w k ((route, departure) :: trips) g₂ = _) ↔ _
        rw [ih]
        exact iff_of_false (fun h => hdrawable h.2.1) fun h => hdrawable h.2.1
      · change (∃ c, (drawDeparture w g₁ >>= fun x => drawTrips n r w k ((route, x.1) :: trips) x.2) = _) ↔ _
        rw [hdeparture]
        exact iff_of_true ⟨c, rfl⟩ ⟨Nat.succ_pos k, hundrawable, route, g₁, rfl⟩

/-- **When the drawing of a population breaks down**: if the window is accepted and there are links, but no memory can
hold so many vehicles, or the first vehicle has a route and nothing can be drawn from the window. In all other cases
there is a population, or an error that says why there is none.

**Proof sketch.** All departures are drawn from the same window, so that the first one decides
(`drawTrips_eq_crash_iff`). A window that is accepted has finite ends in the total order. That differs from the
numerical order in the zeros alone, and the difference of the ends is the number nearest to that of their values
(`DepartureWindow.Accepted.undrawable_iff`). -/
theorem draw_eq_crash_iff (n : Network) (r : Router) (count : Nat) (w : DepartureWindow) (g : G) :
    (∃ c, draw n r count w g = .error (.crash c)) ↔
      w.Accepted ∧ n.numberedLinks ≠ 0 ∧ (2 ^ 63 ≤ 32 * count ∨
        0 < count ∧ w.Undrawable ∧ ∃ route g', drawRoute n r maxAttempts g = .ok (route, g')) := by
  have haccepted : (!w.start.isFinite || !w.finish.isFinite || decide (w.finish < w.start)) = true ↔ ¬ w.Accepted := by
    rw [DepartureWindow.accepted_iff]
    simp only [Bool.or_eq_true, Bool.not_eq_true', decide_eq_true_eq, not_and_or, Bool.not_eq_true, not_not, or_assoc]
  unfold draw
  split_ifs with hwindow hlinks
  · exact iff_of_false (fun ⟨_, h⟩ => nomatch h) fun h => haccepted.1 hwindow h.1
  · exact iff_of_false (fun ⟨_, h⟩ => nomatch h) fun h => h.2.1 hlinks
  · have hw : w.Accepted := not_not.1 (mt haccepted.2 hwindow)
    rw [and_iff_right hw, and_iff_right hlinks, ← drawTrips_eq_crash_iff hw count []]
    by_cases hroom : 32 * count < 2 ^ 63
    · rw [or_iff_right (Nat.not_le.2 hroom), reserve_eq_ok_iff.2 hroom]
      change (∃ c, (drawTrips n r w count [] g >>= fun trips => (ofTrips trips).mapError .error) = _) ↔ _
      cases drawTrips n r w count [] g with
      | error e =>
        change (∃ c, (Except.error e : Except DrawFailure Population) = .error (.crash c)) ↔ _
        simp only [Except.error.injEq]
      | ok trips =>
        change (∃ c, (ofTrips trips).mapError NoResult.error = .error (.crash c)) ↔ _
        refine iff_of_false (fun ⟨c, h⟩ => ?_) fun ⟨c, h⟩ => nomatch h
        cases htrips : ofTrips trips <;> rw [htrips] at h <;> cases h
    · have hreserve : reserve 32 count = .error Crash.capacity := if_neg hroom
      rw [hreserve]
      exact iff_of_true ⟨Crash.capacity, rfl⟩ (Or.inl (Nat.not_lt.1 hroom))

/-! ### Windows from which nothing can be drawn -/

/-- The window from negative zero to zero, and one that is wider than the largest number. -/
def traps : List DepartureWindow :=
  [⟨⟨-Binary64.zero⟩, ⟨Binary64.zero⟩⟩,
    ⟨⟨-Binary64.ofDecimal 1 308⟩, ⟨Binary64.ofDecimal 1 308⟩⟩]

/-- **The drawing of a population breaks down** for these windows, though the network is built and has links. -/
theorem exists_draw_eq_crash : ∃ (b : NetworkBuilder) (n : Network), b.build = .ok n ∧ n.linkCount ≠ 0 ∧
    ∀ w ∈ traps, w.Accepted ∧
      ∃ c, draw n Router.shortest 1 w (Xoshiro.ofSeed 1) = .error (.crash c) := by
  refine ⟨NetworkBuilder.ofAdditions NetworkBuilder.oldTown, NetworkBuilder.oldTownNetwork,
    NetworkBuilder.build_oldTown, by decide, ?_⟩
  have hcrash : ∀ w ∈ traps, w.Accepted ∧ draw NetworkBuilder.oldTownNetwork Router.shortest 1 w (Xoshiro.ofSeed 1) =
      .error (.crash (undrawn w.start.secs w.finish.secs)) := by
    decide +kernel
  exact fun w hw => ⟨(hcrash w hw).1, _, (hcrash w hw).2⟩

end Population

end EventSim
