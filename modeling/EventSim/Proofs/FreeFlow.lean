import EventSim.Proofs.RoadService
import EventSim.Proofs.TravelTimes
import EventSim.Proofs.Trips

set_option autoImplicit false

/-!
# Free flow

A vehicle that is never held up takes the free travel time of each link of its route, one after another. No vehicle
arrives earlier than that, whatever the others do, and a vehicle that has its route to itself arrives just then. The
sums are rounded, and waiting is monotone all the same.

## Main definitions

* `EventSim.Network.freeFlow` — when a vehicle that is never held up comes to the end of its route.
* `EventSim.Scheduler.HasWay` — vehicles that have their routes to themselves.

## Main results

* `EventSim.Scheduler.HoldsRoads.exists_freeFlowAt?_le` — no event comes before free flow.
* `EventSim.Scheduler.HoldsRoads.count_visits_le` — a vehicle enters each leg of its route once at most.
* `EventSim.Scheduler.HoldsRoads.freeFlowAt?_eq` — a vehicle that has its way is never held up.
* `EventSim.Scheduler.freeFlow_le_arrival` — no vehicle beats free flow.
-/

namespace EventSim

/-! ## The time of free flow -/

namespace Network

variable {n : Network} {p : Population} {e : TrafficEvent} {l : LinkId} {t : SimTime} {vehicle : Vehicle}

/-- When a vehicle that is never held up comes to the end of a route: the free travel times of the links are added to
its departure one after another. -/
def freeFlow (n : Network) (departure : SimTime) (route : List LinkId) : SimTime :=
  route.foldl (fun t l => t.after (n.freeTravel l)) departure

/-- When a vehicle that is never held up has come to the given leg of its route. -/
def freeFlowAt? (n : Network) (p : Population) (e : TrafficEvent) : Option SimTime :=
  (p.vehicle? e.vehicle).map fun vehicle => n.freeFlow vehicle.departure (vehicle.route.take e.leg.toNat)

/-- When it has done the given leg. -/
def freeFlowAfter? (n : Network) (p : Population) (e : TrafficEvent) : Option SimTime :=
  (p.vehicle? e.vehicle).map fun vehicle => n.freeFlow vehicle.departure (vehicle.route.take (e.leg.toNat + 1))

/-- A link takes its free travel time. -/
lemma freeFlowAfter?_eq (hl : p.linkAt? e = some l) (ht : n.freeFlowAt? p e = some t) :
    n.freeFlowAfter? p e = some (t.after (n.freeTravel l)) := by
  obtain ⟨vehicle, hv, rfl⟩ := Option.map_eq_some_iff.1 ht
  rw [Population.linkAt?, hv, Option.bind_some] at hl
  rw [freeFlowAfter?, hv, Option.map_some, List.take_add_one, hl, freeFlow, List.foldl_append]
  rfl

/-- When a leg is done the vehicle has come to the next one. -/
lemma freeFlowAt?_onward (h : e.onward.leg ≠ 0) : n.freeFlowAt? p e.onward = n.freeFlowAfter? p e := by
  rw [freeFlowAt?, TrafficEvent.toNat_leg_onward h]
  rfl

/-- After the last leg the whole route is done. -/
lemma freeFlowAfter?_of_last (hv : p.vehicle? e.vehicle = some vehicle) (hlast : p.nextLink? e = none) :
    n.freeFlowAfter? p e = some (n.freeFlow vehicle.departure vehicle.route) := by
  have hlength : vehicle.route[e.leg.toNat + 1]? = none := by
    rwa [Population.nextLink?, hv, Option.bind_some] at hlast
  rw [freeFlowAfter?, hv, Option.map_some, List.take_of_length_le (List.getElem?_eq_none_iff.1 hlength)]

end Network

namespace Scheduler

variable {s : Scheduler Road TrafficEvent} {n : Network} {p : Population} {stats : RunStats}

/-! ## Roads of a network -/

/-- The roads have the free travel times of the links of a network. -/
def TravelsBy (s : Scheduler Road TrafficEvent) (n : Network) : Prop :=
  ∀ u r, s.registered? u = some r → r.unit.freeTravel = n.freeTravel u.link

/-- The roads that are registered for a network have the free travel times of its links. -/
lemma travelsBy_registerRoads {config : RunConfig} {s₀ : Scheduler Road TrafficEvent} {assignment : List WorkerId}
    (hnew : Scheduler.new config = .ok s₀) (hroads : s₀.registerRoads n p assignment = (.ok (), s)) :
    s.TravelsBy n := by
  intro u r hr
  rw [registered?_registerRoads hnew hroads, Option.join_eq_some_iff, Option.map_eq_some_iff] at hr
  obtain ⟨⟨⟨id, link⟩, worker⟩, hrow, hr⟩ := hr
  cases hr
  obtain ⟨-, hlink, -⟩ := of_getElem?_zip hrow
  have hlink : n.link? u.link = some link := by rwa [Array.getElem?_toList] at hlink
  rw [Network.freeTravel, hlink]
  rfl

namespace HoldsRoads

section Finished

variable (h : s.HoldsRoads p) (htravel : s.TravelsBy n) (hstats : s.outcome = .finished stats)
  {v : Visit Road TrafficEvent}

/-! ## No vehicle is early -/

section Visits

include h hstats

/-- Whatever is handled has been posted. -/
lemma mem_posted_of_mem_visits (hv : v ∈ s.visits) : v.message ∈ s.posted s.stages := by
  have hsound := h.isSetUp.sound
  refine (hsound.perm_leftOver_of_plain hstats (h.handles_envelopes hstats)).symm.subset (List.mem_append_left _ ?_)
  rw [hsound.delivered_eq_map_visits]
  exact List.mem_map_of_mem hv

/-- A road sends a vehicle on to the next leg, at its exit. -/
lemma of_mem_sent {t : Stage Road TrafficEvent} (ht : t ∈ s.stages) (hv : v ∈ t.visits s.config)
    {m : Message TrafficEvent} (hm : m ∈ Envelope.messages (v.handled t.setting).sent) :
    m.payload = v.message.payload.onward ∧ m.time = v.exit ∧ (p.nextLink? v.message.payload).isSome := by
  obtain ⟨hlink, hpopulation, hhere⟩ := h.linkAt?_of_mem_visits hstats (List.mem_flatMap.2 ⟨t, ht, hv⟩)
  rw [← hlink, ← hpopulation] at hhere
  cases Visit.released hhere (s := t.setting) with
  | arrives _ _ hsent _ =>
    rw [hsent] at hm
    cases hm
  | proceeds hnext _ hsent _ =>
    rw [hsent] at hm
    obtain rfl := List.mem_singleton.1 hm
    rw [hpopulation] at hnext
    exact ⟨rfl, rfl, Option.isSome_of_eq_some hnext⟩
  | refused _ _ _ hsent _ =>
    rw [hsent] at hm
    cases hm

/-- An arrival is that of a vehicle when it leaves the last road of its route. -/
lemma exists_visit_of_mem_arrivals {a : Arrival} (ha : a ∈ s.afterRun.arrivals) :
    ∃ v ∈ s.visits, v.message.payload.vehicle = a.vehicle ∧ v.exit = a.time ∧
      p.nextLink? v.message.payload = none := by
  obtain ⟨v, hv, harrival⟩ := List.mem_filterMap.1 ((h.perm_arrivals hstats).subset ha)
  rw [Visit.arrival?, (h.linkAt?_of_mem_visits hstats hv).2.1] at harrival
  split at harrival
  · cases harrival
  rename_i hlast
  cases harrival
  exact ⟨v, hv, rfl, rfl, Option.not_isSome_iff_eq_none.1 hlast⟩

include htravel

/-- A vehicle enters at a finite time, and travels for a positive finite time before it leaves. -/
lemma exit_of_mem_visits (hv : v ∈ s.visits) : v.message.time.isFinite = true ∧
    (n.freeTravel v.slot.id.link).isPositiveFinite = true ∧
      v.exit = max (v.message.time.after (n.freeTravel v.slot.id.link)) v.slot.unit.nextFreeExit := by
  obtain ⟨t, ht, hvt⟩ := List.mem_flatMap.1 hv
  obtain ⟨_, _, r, hr, hsame⟩ := h.of_mem_visits ht hvt
  obtain ⟨link, hunit, hpositive⟩ := h.road _ r hr
  refine ⟨h.isSetUp.isFinite_of_mem_posted (List.append_nil _).symm (h.mem_posted_of_mem_visits hstats hv), ?_, ?_⟩
  · rw [← htravel _ r hr, hunit]
    exact hpositive
  · rw [← htravel _ r hr, hsame]
    rfl

/-- A vehicle that is not early when it enters a road is not early when it leaves. -/
lemma exists_freeFlowAt?_le_exit (hv : v ∈ s.visits)
    (hentry : ∃ t, n.freeFlowAt? p v.message.payload = some t ∧ t ≤ v.message.time) :
    ∃ t, n.freeFlowAfter? p v.message.payload = some t ∧ t ≤ v.exit := by
  obtain ⟨t, ht, hle⟩ := hentry
  obtain ⟨hfinite, hpositive, hexit⟩ := h.exit_of_mem_visits htravel hstats hv
  refine ⟨_, Network.freeFlowAfter?_eq (h.linkAt?_of_mem_visits hstats hv).2.2 ht, ?_⟩
  calc t.after (n.freeTravel v.slot.id.link)
      ≤ v.message.time.after (n.freeTravel v.slot.id.link) := SimTime.after_le_after hpositive (Or.inr hfinite) hle
    _ ≤ v.exit := hexit ▸ le_max_left _ _

/-- **No event comes before free flow**, if there are words for all legs of the route.

**Proof sketch.** A first event comes at the departure. Any other one comes when the vehicle leaves the road before,
which is not before it has travelled. -/
theorem exists_freeFlowAt?_le {m : Message TrafficEvent} (hm : m ∈ s.posted s.stages)
    (hlegs : ∀ vehicle ∈ p.vehicle? m.payload.vehicle, vehicle.route.length ≤ UInt32.size) :
    ∃ t, n.freeFlowAt? p m.payload = some t ∧ t ≤ m.time := by
  refine h.isSetUp.sound.posted_induction
    (motive := fun m => (∀ vehicle ∈ p.vehicle? m.payload.vehicle, vehicle.route.length ≤ UInt32.size) →
      ∃ t, n.freeFlowAt? p m.payload = some t ∧ t ≤ m.time)
    (fun m hm _ => ?_) (fun t ht v hv hentry m hm hlegs => ?_) (List.append_nil _).symm m hm hlegs
  · obtain ⟨vehicle, hvehicle, hleg, htime⟩ := h.departure_of_mem_opening hm
    refine ⟨vehicle.departure, ?_, htime.ge⟩
    rw [Network.freeFlowAt?, hvehicle, hleg]
    rfl
  · obtain ⟨hpayload, htime, hnext⟩ := h.of_mem_sent hstats ht hv hm
    rw [hpayload] at hlegs
    have hleg : v.message.payload.onward.leg ≠ 0 := Population.leg_onward_ne_zero (e := v.message.payload) hlegs hnext
    rw [hpayload, htime, Network.freeFlowAt?_onward hleg]
    exact h.exists_freeFlowAt?_le_exit htravel hstats (List.mem_flatMap.2 ⟨t, ht, hv⟩) (hentry hlegs)

end Visits

end Finished

end HoldsRoads

/-! ## Vehicles that have their way -/

/-- In the run a vehicle has the links of its route to itself. -/
structure HasWay (s : Scheduler Road TrafficEvent) (p : Population) (vehicle : VehicleId) (route : List LinkId) :
    Prop where
  /-- No other vehicle goes by the same number, as in every population that is numbered. -/
  unique : (p.vehicles.toList.map (·.id)).count vehicle ≤ 1
  /-- No link occurs twice in the route. -/
  nodup : route.Nodup
  /-- No other vehicle enters one of the links. -/
  entered : ∀ m ∈ s.delivered s.stages, m.target.link ∈ route → m.payload.vehicle = vehicle

/-- If vehicles are numbered in order, none of them goes by the number of another one. -/
lemma HasWay.of_numbered (hp : p.Numbered) {id : VehicleId} {route : List LinkId} (hnodup : route.Nodup)
    (hentered : ∀ m ∈ s.delivered s.stages, m.target.link ∈ route → m.payload.vehicle = id) : s.HasWay p id route :=
  ⟨List.nodup_iff_count_le_one.1 hp.nodup_id id, hnodup, hentered⟩

namespace HoldsRoads

section Finished

variable (h : s.HoldsRoads p) (htravel : s.TravelsBy n) (hstats : s.outcome = .finished stats)
  {v w : Visit Road TrafficEvent} {vehicle : Vehicle} {id : VehicleId}

include h hstats

/-- **A vehicle enters each leg of its route once at most**, if it has a number of its own and there are words for all
legs.

**Proof sketch.** Induction on the leg. The vehicle sets out once at most, and every later leg follows the one before
it. -/
theorem count_visits_le (hunique : (p.vehicles.toList.map (·.id)).count id ≤ 1)
    (hlegs : ∀ vehicle ∈ p.vehicle? id, vehicle.route.length ≤ UInt32.size) (k : UInt32) :
    (s.visits.map (·.message.payload)).count ⟨id, k⟩ ≤ 1 := by
  have hflow (e : TrafficEvent) : (s.visits.map (·.message.payload)).count e ≤
      p.outset.count e + ((s.visits.map (·.message.payload)).filterMap p.next?).count e := by
    have hopening := (h.subperm_opening (h.isSetUp.sound.starts_of_finished hstats)).count_le e
    have hevents := (h.perm_events hstats).count_eq e
    rw [List.count_append, List.count_append] at hevents
    omega
  induction hk : k.toNat generalizing k with
  | zero =>
    obtain rfl : k = 0 := UInt32.toNat_inj.1 hk
    have hout : p.outset.count ⟨id, 0⟩ = (p.vehicles.toList.map (·.id)).count id := by
      rw [← List.count_map_of_injective _ (fun v => (⟨v, 0⟩ : TrafficEvent))
        (fun v v' heq => congrArg TrafficEvent.vehicle heq), List.map_map]
      rfl
    have hle := hflow ⟨id, 0⟩
    rw [Population.count_filterMap_next?_of_leg_eq_zero _ rfl hlegs] at hle
    omega
  | succ j ih =>
    obtain ⟨⟨v, i⟩, heq⟩ := TrafficEvent.exists_onward_eq ⟨id, k⟩
    obtain rfl : v = id := congrArg TrafficEvent.vehicle heq
    have hword : (TrafficEvent.onward ⟨v, i⟩).leg = k := congrArg TrafficEvent.leg heq
    have hleg : k ≠ 0 := fun hzero => by
      rw [hzero] at hk
      cases hk
    have hbefore := TrafficEvent.toNat_leg_onward (hword.symm ▸ hleg)
    rw [hword, hk] at hbefore
    have hout : (⟨v, k⟩ : TrafficEvent) ∉ p.outset := fun hmem => by
      obtain ⟨_, _, heq⟩ := List.mem_map.1 hmem
      exact hleg (congrArg TrafficEvent.leg heq).symm
    have hle := hflow ⟨v, k⟩
    rw [List.count_eq_zero_of_not_mem hout, ← heq, Population.count_filterMap_next?, heq] at hle
    have hlast := ih i (Nat.succ.inj hbefore).symm
    split at hle <;> omega

/-- A vehicle enters the road of the leg that it has come to. -/
lemma route_of_mem_visits (hvehicle : p.vehicle? id = some vehicle) (hv : v ∈ s.visits)
    (hid : v.message.payload.vehicle = id) : vehicle.route[v.message.payload.leg.toNat]? = some v.slot.id.link := by
  have hhere := (h.linkAt?_of_mem_visits hstats hv).2.2
  rwa [Population.linkAt?, hid, hvehicle, Option.bind_some] at hhere

section Way

variable (hway : s.HasWay p id vehicle.route) (hvehicle : p.vehicle? id = some vehicle) (hv : v ∈ s.visits)
  (hid : v.message.payload.vehicle = id)
  (hlegs : ∀ vehicle ∈ p.vehicle? id, vehicle.route.length ≤ UInt32.size)

include hway hvehicle hv hid

/-- Whoever enters a road that is on the way is the vehicle itself, on the same leg. -/
lemma payload_eq_of_hasWay (hw : w ∈ s.visits) (hroad : w.slot.id = v.slot.id) :
    w.message.payload = v.message.payload := by
  have hleg := h.route_of_mem_visits hstats hvehicle hv hid
  have hwid : w.message.payload.vehicle = id := by
    obtain ⟨t, ht, hwt⟩ := List.mem_flatMap.1 hw
    have htarget := (Stage.map_outline_handled (h.isSetUp.sound.coherent_of_mem ht)).2 w hwt
    refine hway.entered _ ?_ ?_
    · rw [h.isSetUp.sound.delivered_eq_map_visits]
      exact List.mem_map_of_mem hw
    · rw [← htarget, hroad]
      exact List.mem_of_getElem? hleg
  have hleg' := h.route_of_mem_visits hstats hvehicle hw hwid
  obtain ⟨hlt, -⟩ := List.getElem?_eq_some_iff.1 hleg'
  rw [hroad, ← hleg] at hleg'
  calc w.message.payload
      = ⟨id, w.message.payload.leg⟩ := by rw [← hwid]
    _ = ⟨id, v.message.payload.leg⟩ := by rw [UInt32.toNat_inj.1 ((List.getElem?_inj hlt hway.nodup).1 hleg')]
    _ = v.message.payload := by rw [← hid]

include hlegs

/-- A road that is on the way is entered once. -/
lemma filter_visits_eq_singleton : s.visits.filter (·.slot.id = v.slot.id) = [v] := by
  have hcount := h.count_visits_le hstats hway.unique hlegs v.message.payload.leg
  have hlength : (s.visits.filter (·.slot.id = v.slot.id)).length ≤ 1 := by
    rw [List.count_eq_countP, List.countP_map] at hcount
    rw [← List.countP_eq_length_filter]
    refine (List.countP_mono_left fun w hw hroad => ?_).trans hcount
    rw [Function.comp_apply, h.payload_eq_of_hasWay hstats hway hvehicle hv hid hw (of_decide_eq_true hroad), ← hid]
    exact beq_self_eq_true _
  have hmem : v ∈ s.visits.filter (·.slot.id = v.slot.id) := List.mem_filter.2 ⟨hv, decide_eq_true rfl⟩
  obtain ⟨w, hw⟩ := List.length_eq_one_iff.1 (Nat.le_antisymm hlength (List.length_pos_of_mem hmem))
  rw [hw, List.mem_singleton] at hmem
  rw [hw, hmem]

include htravel

/-- On a road that is on the way a vehicle is not held up. -/
lemma exit_eq_of_hasWay : v.exit = v.message.time.after (n.freeTravel v.slot.id.link) := by
  obtain ⟨hfinite, hpositive, -⟩ := h.exit_of_mem_visits htravel hstats hv
  have hsound := h.isSetUp.sound
  have halone := h.filter_visits_eq_singleton hstats hway hvehicle hv hid hlegs
  obtain ⟨t, ht, hvt⟩ := List.mem_flatMap.1 hv
  obtain ⟨_, _, r, hr, -⟩ := h.of_mem_visits ht hvt
  obtain ⟨link, hunit, -⟩ := h.road _ r hr
  obtain ⟨y, -, hleads⟩ := (hsound.returns_afterRun hstats).unit _ _ (slot?_of_registered? hr)
  -- it is the only vehicle in the recursion of exits, and the road is free at first
  have hexits := hleads.map_exit fun w hw => by
    rw [filterMap_visit?_turnsOf, halone, List.mem_singleton] at hw
    rw [hw, hunit]
    exact (h.linkAt?_of_mem_visits hstats hv).2.2
  rw [filterMap_visit?_turnsOf, halone, List.map_singleton, List.map_singleton] at hexits
  have hexit : v.exit = max (v.message.time.after r.unit.freeTravel) r.unit.nextFreeExit := (List.cons.inj hexits).1
  have hfree : r.unit.nextFreeExit ≤ v.message.time.after (n.freeTravel v.slot.id.link) := by
    rw [hunit]
    exact le_trans (SimTime.negInfinity_le hfinite) (SimTime.le_after hfinite hpositive)
  rw [hexit, htravel _ r hr, max_eq_left hfree]

end Way

include htravel

/-- **A vehicle that has its way is never held up.** -/
theorem freeFlowAt?_eq (hway : s.HasWay p id vehicle.route) (hvehicle : p.vehicle? id = some vehicle)
    (hlegs : ∀ vehicle ∈ p.vehicle? id, vehicle.route.length ≤ UInt32.size) {m : Message TrafficEvent}
    (hm : m ∈ s.posted s.stages) (hid : m.payload.vehicle = id) :
    n.freeFlowAt? p m.payload = some m.time := by
  refine h.isSetUp.sound.posted_induction
    (motive := fun m => m.payload.vehicle = id → n.freeFlowAt? p m.payload = some m.time)
    (fun m hm _ => ?_) (fun t ht v hv hentry m hm hid => ?_) (List.append_nil _).symm m hm hid
  · obtain ⟨vehicle, hvehicle, hleg, htime⟩ := h.departure_of_mem_opening hm
    rw [Network.freeFlowAt?, hvehicle, hleg, htime]
    rfl
  · obtain ⟨hpayload, htime, hnext⟩ := h.of_mem_sent hstats ht hv hm
    have hmem : v ∈ s.visits := List.mem_flatMap.2 ⟨t, ht, hv⟩
    have hid : v.message.payload.vehicle = id := by rwa [hpayload] at hid
    have hleg : v.message.payload.onward.leg ≠ 0 := Population.leg_onward_ne_zero (by rwa [hid]) hnext
    rw [hpayload, htime, h.exit_eq_of_hasWay htravel hstats hway hvehicle hmem hid hlegs,
      Network.freeFlowAt?_onward hleg]
    exact Network.freeFlowAfter?_eq (h.linkAt?_of_mem_visits hstats hmem).2.2 (hentry hid)

end Finished

end HoldsRoads

/-- **No vehicle beats free flow.** Let the roads of a network be registered with a new scheduler, and let its run
finish, with an end or without. A vehicle that arrives does so no earlier than if it had passed one link after another
in their free travel times, and just then if it has had its route to itself.

**Proof sketch.** By induction on the messages of the run, no event of a vehicle comes before free flow
(`HoldsRoads.exists_freeFlowAt?_le`): a vehicle does not leave a road before it has travelled, and it enters the next
one when it leaves. To wait is monotone, though sums are rounded. If no other vehicle enters the road, and the same one
does not enter it twice (`HoldsRoads.count_visits_le`), then the road is still free as it was at first, and the vehicle
leaves when it has travelled (`HoldsRoads.exit_eq_of_hasWay`). -/
theorem freeFlow_le_arrival {config : RunConfig} {s₀ : Scheduler Road TrafficEvent} {assignment : List WorkerId}
    (hnew : Scheduler.new config = .ok s₀) (hroads : s₀.registerRoads n p assignment = (.ok (), s))
    (hstats : s.outcome = .finished stats) {a : Arrival} (ha : a ∈ s.afterRun.arrivals) :
    ∃ vehicle, p.vehicle? a.vehicle = some vehicle ∧ n.freeFlow vehicle.departure vehicle.route ≤ a.time ∧
      (s.HasWay p a.vehicle vehicle.route → a.time = n.freeFlow vehicle.departure vehicle.route) := by
  obtain ⟨h, -⟩ := holdsRoads_registerRoads hnew hroads
  have htravel := travelsBy_registerRoads hnew hroads
  obtain ⟨v, hv, hid, hexit, hlast⟩ := h.exists_visit_of_mem_arrivals hstats ha
  have hposted := h.mem_posted_of_mem_visits hstats hv
  have hhere := (h.linkAt?_of_mem_visits hstats hv).2.2
  obtain ⟨vehicle, hvehicle, hleg⟩ := Option.bind_eq_some_iff.1 hhere
  -- the leg at which it arrives is its last one, and a word
  have hlegs : ∀ vehicle' ∈ p.vehicle? v.message.payload.vehicle, vehicle'.route.length ≤ UInt32.size := by
    intro vehicle' hvehicle'
    obtain rfl := Option.some.inj (hvehicle.symm.trans hvehicle')
    rw [Population.nextLink?, hvehicle, Option.bind_some] at hlast
    exact (List.getElem?_eq_none_iff.1 hlast).trans v.message.payload.leg.toNat_lt_size
  have hentry := h.exists_freeFlowAt?_le htravel hstats hposted hlegs
  obtain ⟨t, ht, hle⟩ := h.exists_freeFlowAt?_le_exit htravel hstats hv hentry
  have hflow := Network.freeFlowAfter?_of_last (n := n) hvehicle hlast
  rw [hid] at hvehicle hlegs
  rw [hflow] at ht
  cases ht
  refine ⟨vehicle, hvehicle, hexit ▸ hle, fun hway => ?_⟩
  have hentered := h.freeFlowAt?_eq htravel hstats hway hvehicle hlegs hposted hid
  have hfree := Network.freeFlowAfter?_eq hhere hentered
  rw [← hexit, h.exit_eq_of_hasWay htravel hstats hway hvehicle hv hid hlegs]
  exact Option.some.inj (hfree.symm.trans hflow)

/-! ### A detour -/

/-- A street, and a detour of two streets. -/
def detour : Network where
  nodes := #[⟨Binary64.ofNat 0, Binary64.ofNat 0⟩, ⟨Binary64.ofNat 50, Binary64.ofNat 50⟩,
    ⟨Binary64.ofNat 100, Binary64.ofNat 0⟩]
  links := #[⟨Id.ofNat 0, Id.ofNat 1, Binary64.ofNat 100, Binary64.ofNat 10, Binary64.ofNat 1800⟩,
    ⟨Id.ofNat 0, Id.ofNat 2, Binary64.ofNat 100, Binary64.ofNat 10, Binary64.ofNat 1800⟩,
    ⟨Id.ofNat 1, Id.ofNat 2, Binary64.ofNat 100, Binary64.ofNat 10, Binary64.ofNat 1800⟩]
  outStart := #[0, 2, 3, 3]

/-- Two vehicles in the street, the second one close behind the first one, and one that makes the detour. -/
def travellers : Population where
  vehicles := #[⟨Id.ofNat 0, [Id.ofNat 1], ⟨Binary64.ofNat 3⟩⟩, ⟨Id.ofNat 1, [Id.ofNat 1], ⟨Binary64.ofNat 4⟩⟩,
    ⟨Id.ofNat 2, [Id.ofNat 0, Id.ofNat 2], ⟨Binary64.ofNat 3⟩⟩]

lemma ofTrips_travellers :
    Population.ofTrips (travellers.vehicles.toList.map fun v => (v.route, v.departure)) = .ok travellers := rfl

/-- The streets with the travellers at two workers. -/
def detourRoads : Scheduler Road TrafficEvent :=
  (({ config := brisk none } : Scheduler Road TrafficEvent).registerRoads detour travellers
    [Id.ofNat 0, Id.ofNat 1, Id.ofNat 1]).2

/-- The vehicle behind another one would arrive at 14, and arrives a second later. The one that makes the detour is not
held up. -/
theorem freeFlow_le_arrival_detour :
    (⟨Id.ofNat 1, Id.ofNat 1, ⟨Binary64.ofNat 15⟩⟩ ∈ detourRoads.afterRun.arrivals ∧
      detour.freeFlow ⟨Binary64.ofNat 4⟩ [Id.ofNat 1] = ⟨Binary64.ofNat 14⟩ ∧
      detour.freeFlow ⟨Binary64.ofNat 4⟩ [Id.ofNat 1] ≤ ⟨Binary64.ofNat 15⟩) ∧
    ⟨Id.ofNat 2, Id.ofNat 2, ⟨Binary64.ofNat 23⟩⟩ ∈ detourRoads.afterRun.arrivals ∧
      detourRoads.HasWay travellers (Id.ofNat 2) [Id.ofNat 0, Id.ofNat 2] ∧
      ⟨Binary64.ofNat 23⟩ = detour.freeFlow ⟨Binary64.ofNat 3⟩ [Id.ofNat 0, Id.ofNat 2] := by
  have hstats : detourRoads.outcome = .finished {
      rounds := 2, horizonDelta := ⟨Binary64.ofNat 10⟩, finalHorizon := ⟨Binary64.ofNat 23⟩
      seeded := 3, delivered := 4, produced := 1, cancelled := 0, undelivered := 0
      workers := [⟨Id.ofNat 0, 1, 1, 0, 1, 1⟩, ⟨Id.ofNat 1, 3, 0, 0, 2, 0⟩] } := by decide +kernel
  have hmem (a : Arrival) (ha : a ∈ detourRoads.afterRun.unitList.flatMap fun x => x.2.arrivals.toList) :
      a ∈ detourRoads.afterRun.arrivals := (List.mergeSort_perm _ _).mem_iff.2 ha
  have hlate := hmem ⟨Id.ofNat 1, Id.ofNat 1, ⟨Binary64.ofNat 15⟩⟩ (by decide +kernel)
  have hfree := hmem ⟨Id.ofNat 2, Id.ofNat 2, ⟨Binary64.ofNat 23⟩⟩ (by decide +kernel)
  have hway : detourRoads.HasWay travellers (Id.ofNat 2) [Id.ofNat 0, Id.ofNat 2] :=
    .of_numbered ((Population.numbered_ofTrips ofTrips_travellers).2 (by decide)) (by decide) (by decide +kernel)
  have hroads : ({ config := brisk none } : Scheduler Road TrafficEvent).registerRoads detour travellers
      [Id.ofNat 0, Id.ofNat 1, Id.ofNat 1] = (.ok (), detourRoads) := rfl
  refine ⟨⟨hlate, by decide +kernel, ?_⟩, hfree, hway, ?_⟩
  · obtain ⟨_, hvehicle, hle, -⟩ := freeFlow_le_arrival (new_rushHour rfl) hroads hstats hlate
    cases hvehicle
    exact hle
  · obtain ⟨_, hvehicle, -, heq⟩ := freeFlow_le_arrival (new_rushHour rfl) hroads hstats hfree
    cases hvehicle
    exact heq hway

end Scheduler

end EventSim
