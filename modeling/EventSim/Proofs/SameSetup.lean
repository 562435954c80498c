import EventSim.Proofs.Runs

set_option autoImplicit false

/-!
# The same setup on other workers

Two schedulers may have the same units and the same seeds, and may differ in the number of their workers and
in the workers that their units are pinned to. Up to the first round they cannot be told apart: the horizon
moves by the same step, the same units start, and they send the same.

## Main definitions

* `EventSim.Scheduler.SameSetup` — setups that differ in their partition.

## Main results

* `EventSim.Scheduler.SameSetup.leastLookahead_eq` — the step of the horizon is the same.
* `EventSim.Scheduler.SameSetup.mem_opening_iff` — the same is staged when the units have started.
* `EventSim.Scheduler.SameSetup.forall_starts_iff` — all units start in one just if they do in the other.
-/

namespace EventSim

namespace Scheduler

variable {U P : Type} {s s' : Scheduler U P} {u : UnitId}

/-- The setups differ at most in the number of workers and in the workers that the units are pinned to. -/
structure SameSetup (s s' : Scheduler U P) : Prop where
  /-- The configurations differ in the number of workers. -/
  config : s'.config = { s.config with workers := s'.config.workers }
  /-- The same units are registered under the same numbers. -/
  units : s.units.toList.map (·.map (·.unit)) = s'.units.toList.map (·.map (·.unit))
  /-- The seeds are the same. -/
  seeds : s.seeds = s'.seeds

namespace SameSetup

variable (h : s.SameSetup s')

include h

/-! ## The configuration -/

lemma startTime_eq : s.config.startTime = s'.config.startTime := by rw [h.config]

lemma skipIdleRounds_eq : s.config.skipIdleRounds = s'.config.skipIdleRounds := by rw [h.config]

lemma reachedEnd_eq (horizon : SimTime) : s.config.reachedEnd horizon = s'.config.reachedEnd horizon := by
  rw [h.config]
  rfl

lemma deliveryLimit_eq (horizon : SimTime) :
    s.config.deliveryLimit horizon = s'.config.deliveryLimit horizon := by
  rw [h.config]
  rfl

/-! ## The units -/

/-- The units have the same states. -/
lemma unit?_eq (u : UnitId) : s.unit? u = s'.unit? u := by
  have hget : ∀ s : Scheduler U P,
      s.unit? u = ((s.units.toList.map (·.map (·.unit)))[u.index]?).join := fun s => by
    rw [unit?, registered?_eq, List.getElem?_map, Array.getElem?_toList]
    cases s.units[u.index]? with
    | none => rfl
    | some r => rfl
  rw [hget, hget, h.units]

/-- The same units are placed. -/
lemma slot?_eq (hs : s.Sound) (hs' : s'.Sound) (u : UnitId) : s.slot? u = s'.slot? u := by
  have hslot : ∀ {s : Scheduler U P}, s.Sound → s.slot? u = (s.unit? u).map fun x => ⟨u, x, 0⟩ := by
    intro s hs
    rw [slot?, unit?, Option.map_map]
    cases hr : s.registered? u with
    | none => rfl
    | some r => simp [hs.nextSeq_eq u r hr]
  rw [hslot hs, hslot hs', h.unit?_eq]

/-- The step of the horizon is the same. -/
lemma leastLookahead_eq [SimUnit U P] : s.leastLookahead = s'.leastLookahead := by
  have hlist : ∀ s : Scheduler U P, s.unitList = (s.units.toList.map (·.map (·.unit))).zipIdx.filterMap
      fun p => p.1.map fun x => (Id.ofNat p.2, x) := fun s => by
    rw [unitList, List.zipIdx_map, List.filterMap_map]
    congr 1
    funext p
    exact (Option.map_map ..).symm
  rw [leastLookahead, leastLookahead, hlist, hlist, h.units]

/-- The same units have routes. -/
lemma sameUnits (hs : s.Sound) (hs' : s'.Sound) : s.table.SameUnits s'.table := by
  intro u
  have hunit := congrArg Option.isSome (h.unit?_eq u)
  rw [hs.isSome_route?, hs'.isSome_route?]
  simpa [unit?] using hunit

/-! ## Starting -/

variable [Payload P] [SimUnit U P]

omit [Payload P] [SimUnit U P] in
/-- Something holds of all units in their places at the start in one setup just if it does in the other, if it does not
depend on how the table puts the units to workers. -/
lemma forall_slot?_iff (hs : s.Sound) (hs' : s'.Sound) {p : RoutingTable → SimTime → Slot U → Prop}
    (hp : ∀ time x, p s.table time x ↔ p s'.table time x) :
    (∀ u x, s.slot? u = some x → p s.table s.config.startTime x) ↔
      ∀ u x, s'.slot? u = some x → p s'.table s'.config.startTime x := by
  refine forall_congr' fun u => forall_congr' fun x => ?_
  rw [h.slot?_eq hs hs', h.startTime_eq, hp]

/-- All units start in one setup just if they do in the other. -/
lemma forall_starts_iff (hs : s.Sound) (hs' : s'.Sound) :
    (∀ u x, s.slot? u = some x → x.Starts s.table s.config.startTime) ↔
      ∀ u x, s'.slot? u = some x → x.Starts s'.table s'.config.startTime :=
  h.forall_slot?_iff hs hs' (Slot.starts_congr (h.sameUnits hs hs'))

/-- No unit breaks down when it starts, in one setup just if in the other. -/
lemma forall_survives_iff (hs : s.Sound) (hs' : s'.Sound) :
    (∀ u x, s.slot? u = some x → x.Survives s.table s.config.startTime) ↔
      ∀ u x, s'.slot? u = some x → x.Survives s'.table s'.config.startTime :=
  h.forall_slot?_iff hs hs' (Slot.survives_congr (h.sameUnits hs hs'))

/-- **The same is staged when the units have started.** -/
theorem mem_opening_iff (hs : s.Sound) (hs' : s'.Sound) {y : Envelope P} :
    y ∈ s.opening ↔ y ∈ s'.opening := by
  have hplaced : ∀ x, x ∈ s.placed ↔ x ∈ s'.placed := fun x => by
    rw [hs.mem_placed, hs'.mem_placed, h.slot?_eq hs hs']
  have hopening : ∀ x : Slot U, x.opening s.table s.config.startTime =
      (x.opening s'.table s'.config.startTime : List (Envelope P)) := fun x => by
    rw [h.startTime_eq]
    exact (Slot.started_congr (h.sameUnits hs hs') _ x).2
  simp only [opening, List.mem_append, List.mem_flatMap, h.seeds, hplaced, hopening]

end SameSetup

end Scheduler

end EventSim
