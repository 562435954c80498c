import EventSim.Proofs.Trips

set_option autoImplicit false

/-!
# What can go wrong on roads

If all departures are finite and not before the start, every road sends its vehicles off, every vehicle that enters
a road is routed there, and no request comes too early: a vehicle takes the free travel time at least, which is the
lookahead of the road. So a run can only fail when times leave the range of finite numbers, or when the horizon does
not move.

## Main definitions

* `EventSim.RunOutcome.ByRange` — the outcomes that are left.
* `EventSim.Scheduler.FailsByRange` — a scheduler whose run can fail in no other way.

## Main results

* `EventSim.Scheduler.HoldsRoads.call_eq` — a vehicle passes, or its exit is not finite.
* `EventSim.Scheduler.failsByRange` — runs of roads can fail in no other way.
-/

namespace EventSim

/-- The outcomes of a run that can fail only when times leave the range of finite numbers, or when the horizon does not
move. -/
inductive RunOutcome.ByRange : RunOutcome → Prop
  /-- The run finishes. -/
  | finished (stats : RunStats) : ByRange (.finished stats)
  /-- The horizon does not move. -/
  | stalled (current next : SimTime) : ByRange (.failed (.horizonStalled current next))
  /-- A time is reported for a unit that is not finite. -/
  | unbounded {unit : UnitId} {worker : WorkerId} {time : SimTime} {text : String} {secs : Binary64}
    (h : secs.isFinite = false) : ByRange (.failed (.unitFailed unit worker time text (.invalidTime secs)))

namespace Scheduler

section Units

variable {U P : Type} {s : Scheduler U P}

/-- The units that are listed are registered. -/
lemma Sound.exists_of_mem_unitList (hs : s.Sound) {x : UnitId × U} (hx : x ∈ s.unitList) :
    ∃ r, s.registered? x.1 = some r ∧ r.unit = x.2 := by
  obtain ⟨⟨o, i⟩, hmem, hentry⟩ := List.mem_filterMap.1 hx
  obtain ⟨r, hr, rfl⟩ := Option.map_eq_some_iff.1 hentry
  have hget := List.mem_zipIdx_iff_getElem?.1 hmem
  rw [Array.getElem?_toList] at hget
  obtain ⟨hi, _⟩ := Array.getElem?_eq_some_iff.1 hget
  exact ⟨r, by rw [registered?_eq, hs.index_ofNat hi, hget, hr, Option.join_some], rfl⟩

end Units

/-- A scheduler with roads whose run can fail only when times leave the range of finite numbers, or when the horizon
does not move. -/
structure FailsByRange (s : Scheduler Road TrafficEvent) : Prop where
  /-- All roads start. -/
  starts : ∀ u x, s.slot? u = some x → x.Starts s.table s.config.startTime
  /-- No call fails for a vehicle that enters a road, unless its exit is not finite. -/
  call : ∀ t ∈ s.stages, ∀ v ∈ t.visits s.config, (v.handled t.setting).failure = none ∨
    (v.slot.unit.exitTime v.message.time).isFinite = false ∧ (v.slot.call t.setting v.message).ending =
      .failed (.invalidTime (v.slot.unit.exitTime v.message.time).secs)
  /-- The run finishes, or its horizon does not move, or a time is reported that is not finite. -/
  outcome : ∀ {α : Type} (observe : α → Observation TrafficEvent → α) (a : α), (s.run observe a).2.2.ByRange

namespace HoldsRoads

variable {s : Scheduler Road TrafficEvent} {p : Population} {t : Stage Road TrafficEvent}
  {v : Visit Road TrafficEvent} {x : Slot Road} {u : UnitId}

/-- The lookaheads of roads are finite and positive. -/
lemma isPositiveFinite (h : s.HoldsRoads p) :
    ∀ x ∈ s.unitList, (SimUnit.lookahead x.2).secs.isPositiveFinite = true := by
  intro x hx
  obtain ⟨r, hr, hunit⟩ := h.isSetUp.sound.exists_of_mem_unitList hx
  obtain ⟨link, hroad, hpositive⟩ := h.road _ r hr
  rw [← hunit, hroad]
  exact hpositive

section Departures

variable (h : s.HoldsRoads p) (hdepart : ∀ vehicle ∈ p.vehicles.toList,
  vehicle.departure.isFinite = true ∧ s.config.startTime ≤ vehicle.departure)

include h hdepart

section Routes

variable (hp : p.Numbered) (hcovers : s.CoversRoutes p)
  (hlegs : ∀ vehicle ∈ p.vehicles.toList, vehicle.route.length ≤ UInt32.size)

include hp hlegs

/-- Every vehicle that enters a road is routed there. -/
lemma linkAt?_eq (ht : t ∈ s.stages) (hv : v ∈ t.visits s.config) :
    p.linkAt? v.message.payload = some v.slot.unit.link := by
  have hsound := h.isSetUp.sound
  obtain ⟨ts, rest, hstages⟩ := List.append_of_mem ht
  have hposted := hsound.mem_posted_of_mem_visits hstages hv
  rw [(h.of_mem_visits ht hv).1, (Stage.map_outline_handled (hsound.coherent_of_mem ht)).2 v hv]
  have hstarts : ∀ x ∈ s.placed, x.Starts s.table s.config.startTime := fun x hx =>
    h.starts hdepart (fun vehicle hvehicle => hp.isSome_vehicle? hvehicle) (hsound.mem_placed.1 hx)
  refine h.linkAt?_of_mem_posted hp hlegs hstarts (fun t' ht' => ?_) hposted
  exact ⟨hstages ▸ List.mem_append_left _ ht', fault_eq_none_of_mem hstages ht'⟩

include hcovers

/-- **A vehicle passes, or its exit is not finite.**

**Proof sketch.** Every message is for the road that its event is about, and the next link of a route has a road. The
exit is at least the free travel time away, and by then the horizon has passed. -/
theorem call_eq (ht : t ∈ s.stages) (hv : v ∈ t.visits s.config) : (v.handled t.setting).failure = none ∨
    (v.slot.unit.exitTime v.message.time).isFinite = false ∧ (v.slot.call t.setting v.message).ending =
      .failed (.invalidTime (v.slot.unit.exitTime v.message.time).secs) := by
  have hsound := h.isSetUp.sound
  obtain ⟨ts, rest, hstages⟩ := List.append_of_mem ht
  obtain ⟨_, hpopulation, r, hr, htravel⟩ := h.of_mem_visits ht hv
  have hlink := h.linkAt?_eq hdepart hp hlegs ht hv
  by_cases hfailure : (v.handled t.setting).failure = none
  · exact Or.inl hfailure
  refine Or.inr ?_
  have hpassage := Slot.passage t.setting v.slot v.message
  have hfailure : Worker.failure t.setting.worker v.message (v.slot.call t.setting v.message) ≠ none := hfailure
  generalize v.slot.call t.setting v.message = k at hpassage hfailure
  rw [← hpopulation] at hlink
  cases hpassage with
  | strays hstray => exact absurd hlink hstray
  | arrives hhere hlast => exact absurd rfl hfailure
  | proceeds hhere hnext hfree => exact absurd rfl hfailure
  | @stuck next e hhere hnext hbars he =>
    rcases hbars with hbad | hearly | hroute
    · exact ⟨hbad, congrArg Ending.failed (he hbad)⟩
    · have hhorizon := h.isSetUp.horizon_le_of_mem_visits h.isPositiveFinite hstages hv hr
      have hexit : v.message.time + SimUnit.lookahead r.unit ≤ v.slot.unit.exitTime v.message.time := by
        rw [Road.exitTime, ← htravel]
        exact le_max_left _ _
      exact absurd hearly (not_lt.2 (le_trans hhorizon hexit))
    · rw [hpopulation] at hnext
      obtain ⟨vehicle, hvehicle, hnext⟩ := Population.exists_of_nextLink? hnext
      have hsome := hsound.isSome_route? (Id.ofNat next.index)
      rw [hcovers vehicle hvehicle next hnext, ← hsound.table_of_stages_eq hstages] at hsome
      cases (congrArg Option.isSome hroute).symm.trans hsome

/-- The error of a round is about an exit that is not finite. -/
lemma byRange_of_fault (ht : t ∈ s.stages) {e : RunError} (hf : (t.record s.config).fault = some e) :
    RunOutcome.ByRange (.failed e) := by
  obtain ⟨w, hw, v, hv, f, hfailure, rfl⟩ := Stage.exists_of_fault (h.isSetUp.sound.coherent_of_mem ht) hf
  have hcall : Worker.failure w.id v.message (v.slot.call t.setting v.message) = some f := hfailure
  rcases h.call_eq hdepart hp hcovers hlegs ht (List.mem_flatMap.2 ⟨w, hw, hv⟩) with hnone | ⟨hbad, hending⟩
  · have hnone : Worker.failure t.setting.worker v.message (v.slot.call t.setting v.message) = none := hnone
    cases (Worker.succeeds_of_succeeds hnone w.id).symm.trans hcall
  · simp only [Worker.failure, Call.fault, hending, Option.map_some, Option.some.injEq] at hcall
    subst hcall
    exact .unbounded hbad

/-- How a run of roads ends. -/
lemma byRange_run {α : Type} (observe : α → Observation TrafficEvent → α) (a : α) :
    (s.run observe a).2.2.ByRange := by
  have hsound := h.isSetUp.sound
  have hstarts : ∀ u x, s.slot? u = some x → x.Starts s.table s.config.startTime := fun u x =>
    h.starts hdepart fun vehicle hvehicle => hp.isSome_vehicle? hvehicle
  have hexit := hsound.exit observe a
  generalize (s.run observe a).2.1 = s', (s.run observe a).2.2 = o at hexit ⊢
  cases hexit with
  | idle hnone => exact .finished _
  | stalled hdelta hstalled => exact .stalled _ _
  | broken hdelta hmoves hstart =>
    exact absurd hstart (hsound.startUp_ne_error (fun u x hx => (hstarts u x hx).1) _)
  | unready hdelta hmoves hstart hfault =>
    obtain ⟨hstart', hnone⟩ := hsound.startUp_eq_iff.2 ⟨hstarts, rfl⟩
    cases hstart.symm.trans hstart'
    cases hfault.symm.trans hnone
  | @failed ts t e hstages hlast =>
    have ht : t ∈ s.stages := hstages ▸ List.mem_append_right ts (List.mem_singleton_self t)
    unfold Stage.outcome at hlast
    split at hlast
    · rename_i e' hverdict
      cases hlast
      exact h.byRange_of_fault hdepart hp hcovers hlegs ht (RoundRecord.verdict_eq_fault_iff.1 hverdict)
    · cases hlast
    · cases hlast
      exact .stalled _ _
  | finished hstages hlast => exact .finished _

end Routes

end Departures

/-- Where no route has a second link a road fails only for vehicles that are not routed there, and a fault in the first
round is the complaint about one of them. -/
lemma exists_model_of_fault (h : s.HoldsRoads p) (hstages : s.stages = [t])
    (hshort : ∀ vehicle ∈ p.vehicles.toList, vehicle.route[1]? = none) {e : RunError}
    (hf : (t.record s.config).fault = some e) :
    ∃ unit worker time event text, s.outcome = .failed (.unitFailed unit worker time event (.model text)) := by
  have ht : t ∈ s.stages := hstages ▸ List.mem_singleton_self t
  obtain ⟨w, hw, v, hv, f, hfailure, rfl⟩ := Stage.exists_of_fault (h.isSetUp.sound.coherent_of_mem ht) hf
  have hcall : Worker.failure w.id v.message (v.slot.call (t.settingAt w) v.message) = some f := hfailure
  have hv : v ∈ t.visits s.config := List.mem_flatMap.2 ⟨w, hw, hv⟩
  obtain ⟨vehicle, hvehicle, hleg, -⟩ := h.departure_of_mem_visits hstages hv
  have hnone : v.slot.unit.population.nextLink? v.message.payload = none := by
    rw [(h.of_mem_visits ht hv).2.1, Population.nextLink?, hvehicle, Option.bind_some, hleg]
    exact hshort vehicle (Population.mem_of_vehicle? hvehicle)
  have hpassage := Slot.passage (t.settingAt w) v.slot v.message
  obtain ⟨_, _, hrun⟩ := run_of_fault (hstages.trans (List.nil_append _).symm) hf
  have houtcome : s.outcome = .failed (f.error w.id) := (hrun Engine.keepRecords #[]).2.2.2
  clear hf hrun hfailure
  generalize v.slot.call (t.settingAt w) v.message = k at hpassage hcall
  cases hpassage with
  | strays hstray =>
    cases hcall
    exact ⟨_, _, _, _, _, houtcome⟩
  | arrives hhere hlast => cases hcall
  | proceeds hhere hnext hfree => cases hcall
  | stuck hhere hnext hbars he => cases hnone.symm.trans hnext

end HoldsRoads

end Scheduler

/-! ## A bottleneck -/

/-- A street that hardly any vehicle can leave, and the way back. -/
def bottleneck : Network where
  nodes := #[⟨Binary64.ofNat 0, Binary64.ofNat 0⟩, ⟨Binary64.ofNat 100, Binary64.ofNat 0⟩]
  links := #[⟨Id.ofNat 0, Id.ofNat 1, Binary64.ofNat 100, Binary64.ofNat 10, ⟨1⟩⟩,
    ⟨Id.ofNat 1, Id.ofNat 0, Binary64.ofNat 100, Binary64.ofNat 10, Binary64.ofNat 1800⟩]
  outStart := #[0, 1, 2]

lemma build_bottleneck : NetworkBuilder.build ⟨bottleneck.nodes, bottleneck.links⟩ = .ok bottleneck :=
  NetworkBuilder.build_of_pairwise (by decide +kernel) (by decide +kernel) (by decide +kernel) (by decide +kernel)

namespace Scheduler

/-- The bottleneck with commuters at two workers. -/
def gridlock : Scheduler Road TrafficEvent :=
  (({ config := { workers := 2 } } : Scheduler Road TrafficEvent).registerRoads bottleneck commuters
    [Id.ofNat 0, Id.ofNat 1]).2

section Crowd

variable {last : LinkId} {p : Population} (hp : Population.ofTrips (crowd last) = .ok p)

include hp

/-- The last vehicle of the crowd has number zero. -/
lemma last_mem_crowd : (⟨Id.ofNat 0, [last], ⟨Binary64.ofNat 3⟩⟩ : Vehicle) ∈ p.vehicles.toList := by
  rw [(Population.vehicles_ofTrips hp).1]
  refine List.mem_map.2 ⟨(([last], ⟨Binary64.ofNat 3⟩), UInt32.size), List.mem_zipIdx_iff_getElem?.2 ?_, ?_⟩
  · rw [crowd, List.getElem?_append_right (List.length_replicate.le), List.length_replicate, Nat.sub_self]
    rfl
  · rw [show (Id.ofNat UInt32.size : VehicleId) = Id.ofNat 0 from Id.ext_index (Nat.mod_self _)]

/-- The vehicle that is found under this number goes over the first link. -/
lemma vehicle?_crowd : p.vehicle? (Id.ofNat 0) = some ⟨Id.ofNat 0, [Id.ofNat 0], ⟨Binary64.ofNat 3⟩⟩ := by
  rw [Population.vehicle?, ← Array.getElem?_toList, (Population.vehicles_ofTrips hp).1, List.getElem?_map,
    List.getElem?_zipIdx, crowd, List.getElem?_append_left (by rw [List.length_replicate]; decide),
    List.getElem?_replicate]
  rfl

end Crowd

end Scheduler

end EventSim
