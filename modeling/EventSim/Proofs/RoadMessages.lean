import EventSim.Proofs.RoadTurns

set_option autoImplicit false

/-!
# Messages between roads

In a run of a scheduler that holds roads, every message is for the road that its event is about: a leg of the
vehicle's route. The first messages are those for the first legs, one for each vehicle.

## Main definitions

* `EventSim.Population.outset` — the first legs of all vehicles.

## Main results

* `EventSim.Scheduler.HoldsRoads.of_mem_visits` — which road a vehicle enters.
* `EventSim.Scheduler.HoldsRoads.starts` — all roads start, if all departures can be scheduled.
* `EventSim.Scheduler.HoldsRoads.perm_opening` — every vehicle sets out once.
* `EventSim.Scheduler.HoldsRoads.linkAt?_of_mem_posted` — every message is for the road that its event is about.
-/

namespace EventSim

/-! ## Legs -/

namespace Population

variable {p : Population} {vehicle : Vehicle} {e : TrafficEvent} {l : LinkId}

/-- The first legs of all vehicles. -/
def outset (p : Population) : List TrafficEvent := p.vehicles.toList.map fun vehicle => ⟨vehicle.id, 0⟩

/-- An event about a link is about that leg of some vehicle's route. -/
lemma Numbered.linkAt?_eq_some_iff (hp : p.Numbered) : p.linkAt? e = some l ↔
    ∃ vehicle ∈ p.vehicles.toList, vehicle.id = e.vehicle ∧ vehicle.route[e.leg.toNat]? = some l := by
  rw [linkAt?, Option.bind_eq_some_iff]
  simp only [hp.vehicle?_iff, and_assoc]

/-- What follows in a route belongs to it. -/
lemma exists_of_nextLink? (h : p.nextLink? e = some l) : ∃ vehicle ∈ p.vehicles.toList, l ∈ vehicle.route := by
  obtain ⟨vehicle, hvehicle, hnext⟩ := Option.bind_eq_some_iff.1 h
  exact ⟨vehicle, mem_of_vehicle? hvehicle, List.mem_of_getElem? hnext⟩

/-- A vehicle departs from the first link of its route. -/
lemma Numbered.linkAt?_of_mem_departingFrom (hp : p.Numbered) {v : VehicleId} (hv : v ∈ p.departingFrom l) :
    p.linkAt? ⟨v, 0⟩ = some l := by
  obtain ⟨vehicle, hvehicle, rfl⟩ := List.mem_map.1 hv
  rw [List.mem_filter, decide_eq_true_eq, List.head?_eq_getElem?] at hvehicle
  exact hp.linkAt?_eq_some_iff.2 ⟨vehicle, hvehicle.1, rfl, hvehicle.2⟩

end Population

/-! ## Departures -/

/-- A road sends the vehicles that depart from it off at their departures. -/
lemma Road.of_mem_sent_depart {r : Road} {u : UnitId} {vs : List VehicleId} {c : Context TrafficEvent}
    {m : Message TrafficEvent} (hm : .deliver m ∈ (((vs.forM (depart u)).script r).run c).context.sent.toList) :
    .deliver m ∈ c.sent.toList ∨ ∃ vehicle, r.population.vehicle? m.payload.vehicle = some vehicle ∧
      m.payload.leg = 0 ∧ m.time = vehicle.departure := by
  induction vs generalizing c with
  | nil => exact Or.inl hm
  | cons v vs ih =>
    rcases r.run_depart_cons u v vs c with ⟨vehicle, hv, hrun⟩ | ⟨-, e, c', hsent, hrun⟩ <;> rw [hrun] at hm
    · rcases ih hm with hm | hdeparts
      · rw [Context.posting, Array.toList_push, List.mem_append, List.mem_singleton] at hm
        refine hm.imp_right fun heq => ?_
        cases heq
        exact ⟨vehicle, hv, rfl, rfl⟩
      · exact Or.inr hdeparts
    · exact Or.inl (hsent ▸ hm)

namespace Scheduler.HoldsRoads

variable {s : Scheduler Road TrafficEvent} {p : Population} {t : Stage Road TrafficEvent}
  {v : Visit Road TrafficEvent} {x : Slot Road} {m : Message TrafficEvent} {u : UnitId}

/-! ## Roads -/

/-- **Which road a vehicle enters**: the one of the link with its number. -/
theorem of_mem_visits (h : s.HoldsRoads p) (ht : t ∈ s.stages) (hv : v ∈ t.visits s.config) :
    v.slot.unit.link = v.slot.id.link ∧ v.slot.unit.population = p ∧
      ∃ r, s.registered? v.slot.id = some r ∧ r.unit.freeTravel = v.slot.unit.freeTravel := by
  obtain ⟨r, hr, hframe⟩ := h.isSetUp.sound.frame_of_mem_visits ht hv
  obtain ⟨link, hunit, _⟩ := h.road _ r hr
  simp only [Road.frame, Prod.mk.injEq] at hframe
  obtain ⟨hlink, hpopulation, htravel⟩ := hframe
  rw [hunit] at hlink hpopulation
  exact ⟨hlink, hpopulation, r, hr, htravel.symm⟩

/-- A road that is placed is the one of the link with its number. -/
lemma of_mem_placed (h : s.HoldsRoads p) (hx : x ∈ s.placed) :
    x.unit.population = p ∧ x.unit.departures = p.departingFrom x.id.link := by
  obtain ⟨r, hr, hslot⟩ := Option.map_eq_some_iff.1 (h.isSetUp.sound.mem_placed.1 hx)
  obtain ⟨link, hunit, _⟩ := h.road _ r hr
  rw [← congrArg Slot.unit hslot, hunit]
  exact ⟨rfl, rfl⟩

/-- Wherever a route leads a road is placed. -/
lemma exists_placed (h : s.HoldsRoads p) (hcovers : s.CoversRoutes p) {vehicle : Vehicle}
    (hv : vehicle ∈ p.vehicles.toList) {l : LinkId} (hl : l ∈ vehicle.route) : ∃ x ∈ s.placed, x.id.link = l := by
  obtain ⟨r, hr⟩ := Option.isSome_iff_exists.1 (hcovers vehicle hv l hl)
  exact ⟨⟨Id.ofNat l.index, r.unit, r.nextSeq⟩, h.isSetUp.sound.mem_placed.2 (slot?_of_registered? hr),
    Id.link_ofNat l⟩

/-! ## The first messages -/

/-- The first event of a vehicle is for its departure. -/
lemma departure_of_mem_opening (h : s.HoldsRoads p) {m : Message TrafficEvent}
    (hm : m ∈ Envelope.messages s.opening) : ∃ vehicle, p.vehicle? m.payload.vehicle = some vehicle ∧
      m.payload.leg = 0 ∧ m.time = vehicle.departure := by
  rw [Envelope.mem_messages, opening, h.seeds] at hm
  obtain ⟨x, hx, hm⟩ := List.mem_flatMap.1 hm
  rcases Road.of_mem_sent_depart hm with hm | hdeparts
  · cases hm
  · rwa [(h.of_mem_placed hx).1] at hdeparts

/-- In the first round vehicles set out at their departures. -/
lemma departure_of_mem_visits (h : s.HoldsRoads p) {rest : List (Stage Road TrafficEvent)}
    (hstages : s.stages = t :: rest) (hv : v ∈ t.visits s.config) :
    ∃ vehicle, p.vehicle? v.message.payload.vehicle = some vehicle ∧ v.message.payload.leg = 0 ∧
      v.message.time = vehicle.departure := by
  have hposted := h.isSetUp.sound.mem_posted_of_mem_visits ((List.nil_append _).trans hstages.symm).symm hv
  rw [posted, List.flatMap_nil, List.append_nil] at hposted
  exact h.departure_of_mem_opening hposted

section Departures

variable (h : s.HoldsRoads p) (hdepart : ∀ vehicle ∈ p.vehicles.toList,
  vehicle.departure.isFinite = true ∧ s.config.startTime ≤ vehicle.departure)

include h hdepart

/-- **All roads start**, if every vehicle number is that of some vehicle. -/
theorem starts (hfound : ∀ vehicle ∈ p.vehicles.toList, (p.vehicle? vehicle.id).isSome) (hx : s.slot? u = some x) :
    x.Starts s.table s.config.startTime := by
  have hsound := h.isSetUp.sound
  obtain rfl := Sound.id_of_slot? hx
  have hplaced := hsound.mem_placed.2 hx
  obtain ⟨hpopulation, hdepartures⟩ := h.of_mem_placed hplaced
  have hsendoff := x.sendoff s.table s.config.startTime
  rw [hdepartures] at hsendoff
  unfold Slot.Starts Slot.Survives Call.fault
  generalize x.startCall s.table s.config.startTime = k at hsendoff
  cases hsendoff with
  | departs ms hfault hsent hms => exact ⟨nofun, hfault⟩
  | stays hv hbars =>
    obtain ⟨vehicle, hvehicle, rfl⟩ := List.mem_map.1 hv
    obtain ⟨vehicle', hvehicle'⟩ := Option.isSome_iff_exists.1 (hfound vehicle (List.mem_of_mem_filter hvehicle))
    obtain ⟨hfinite, hstart⟩ := hdepart vehicle' (Population.mem_of_vehicle? hvehicle')
    rw [hpopulation] at hbars
    rcases hbars vehicle' hvehicle' with hbad | hearly | hroute
    · cases hfinite.symm.trans hbad
    · exact absurd hearly (not_lt.2 hstart)
    · have hsome := hsound.isSome_route? x.id
      obtain ⟨r, hr, _⟩ := Option.map_eq_some_iff.1 hx
      rw [hroute, hr] at hsome
      cases hsome

end Departures

section Opening

variable (h : s.HoldsRoads p) (hstarts : ∀ x ∈ s.placed, x.Starts s.table s.config.startTime)

include h hstarts

/-- A road that starts sends off the vehicles that depart from it. -/
lemma opening_eq (hx : x ∈ s.placed) :
    ∃ ms : List (Message TrafficEvent), x.opening s.table s.config.startTime = ms.map .deliver ∧
      ms.map (fun m => (m.target, m.payload)) = (p.departingFrom x.id.link).map fun v => (x.id, ⟨v, 0⟩) := by
  have hsendoff := x.sendoff s.table s.config.startTime
  have hopening : x.opening s.table s.config.startTime =
    (x.startCall s.table s.config.startTime).context.sent.toList := rfl
  obtain ⟨_, hfault⟩ := hstarts x hx
  rw [(h.of_mem_placed hx).2] at hsendoff
  generalize x.startCall s.table s.config.startTime = k at hsendoff hopening hfault
  cases hsendoff with
  | departs ms _ hsent hms => exact ⟨ms, hopening.trans (hsent.trans (List.nil_append _)), hms⟩
  | stays hv hbars => cases hfault

/-- Before the first round nothing is withdrawn. -/
lemma handles_opening : Envelope.handles s.opening = [] := by
  refine List.filterMap_eq_nil_iff.2 fun y hy => ?_
  rw [opening, h.seeds] at hy
  obtain ⟨x, hx, hy⟩ := List.mem_flatMap.1 hy
  obtain ⟨ms, hopening, _⟩ := h.opening_eq hstarts hx
  rw [hopening] at hy
  obtain ⟨m, _, rfl⟩ := List.mem_map.1 hy
  rfl

/-- The first messages are those to the vehicles that depart, road by road. -/
lemma map_messages_opening : (Envelope.messages s.opening).map (fun m => (m.target, m.payload)) =
    s.placed.flatMap fun x => (p.departingFrom x.id.link).map fun v => (x.id, ⟨v, 0⟩) := by
  rw [opening, h.seeds, Envelope.messages_append, Envelope.messages_flatMap]
  refine (List.map_flatMap ..).trans (List.flatMap_congr fun x hx => ?_)
  obtain ⟨ms, hopening, hms⟩ := h.opening_eq hstarts hx
  rw [hopening, Envelope.messages_map_deliver, hms]

/-- The first messages are for the roads that they are about. -/
lemma linkAt?_of_mem_opening (hp : p.Numbered) (hm : m ∈ Envelope.messages s.opening) :
    p.linkAt? m.payload = some m.target.link := by
  have hpair := List.mem_map_of_mem (f := fun m => (m.target, m.payload)) hm
  rw [h.map_messages_opening hstarts] at hpair
  obtain ⟨x, _, hpair⟩ := List.mem_flatMap.1 hpair
  obtain ⟨v, hv, heq⟩ := List.mem_map.1 hpair
  obtain ⟨htarget, hpayload⟩ := Prod.mk.inj heq
  rw [← htarget, ← hpayload]
  exact hp.linkAt?_of_mem_departingFrom hv

/-- The roads divide the vehicles by the links that their routes begin with. -/
lemma map_payload_opening : (Envelope.messages s.opening).map (·.payload) =
    ((s.placed.map fun x => some x.id.link).flatMap fun l => p.vehicles.toList.filter (·.route.head? = l)).map
      fun vehicle => ⟨vehicle.id, 0⟩ := by
  have hsnd := congrArg (List.map Prod.snd) (h.map_messages_opening hstarts)
  rw [List.map_map, List.map_flatMap] at hsnd
  rw [List.flatMap_map, List.map_flatMap]
  refine hsnd.trans (List.flatMap_congr fun x _ => ?_)
  rw [List.map_map, Population.departingFrom, List.map_map]
  rfl

omit hstarts in
/-- No two roads are those of one link. -/
lemma nodup_links_placed : (s.placed.map fun x => some x.id.link).Nodup := by
  refine List.Nodup.map_on (fun x hx y hy hlink => ?_) h.isSetUp.sound.nodup_placed
  have hindex : x.id.link.index = y.id.link.index := congrArg Id.index (Option.some.inj hlink)
  have hid : x.id = y.id := Id.ext_index hindex
  have hx := h.isSetUp.sound.mem_placed.1 hx
  rw [hid, h.isSetUp.sound.mem_placed.1 hy] at hx
  exact (Option.some.inj hx).symm

/-- No vehicle sets out twice, even if vehicles share numbers or have no routes. -/
lemma subperm_opening : ((Envelope.messages s.opening).map (·.payload)).Subperm p.outset := by
  rw [h.map_payload_opening hstarts]
  obtain ⟨vehicles, hperm, hsub⟩ := flatMap_filter_subperm h.nodup_links_placed (·.route.head?) p.vehicles.toList
  exact ⟨_, hperm.map _, hsub.map _⟩

/-- **Every vehicle sets out once**: before the first round just the events of the first legs are scheduled. -/
theorem perm_opening (hcovers : s.CoversRoutes p) (hroutes : ∀ vehicle ∈ p.vehicles.toList, vehicle.route ≠ []) :
    ((Envelope.messages s.opening).map (·.payload)).Perm p.outset := by
  rw [h.map_payload_opening hstarts]
  refine (flatMap_filter_perm h.nodup_links_placed _ fun vehicle hv => ?_).map _
  cases hroute : vehicle.route with
  | nil => exact absurd hroute (hroutes vehicle hv)
  | cons l route =>
    obtain ⟨x, hx, hlink⟩ := h.exists_placed hcovers hv (l := l) (by rw [hroute]; exact List.mem_cons_self)
    exact List.mem_map.2 ⟨x, hx, congrArg some hlink⟩

end Opening

/-! ## All messages -/

/-- **Every message is for the road that its event is about**, when some rounds without fault are over and there are
words for all legs of routes.

**Proof sketch.** The first messages are, and so are those that a road schedules when it lets a vehicle pass. -/
theorem linkAt?_of_mem_posted (h : s.HoldsRoads p) (hp : p.Numbered)
    (hlegs : ∀ vehicle ∈ p.vehicles.toList, vehicle.route.length ≤ UInt32.size)
    (hstarts : ∀ x ∈ s.placed, x.Starts s.table s.config.startTime) {ts : List (Stage Road TrafficEvent)}
    (hts : ∀ t ∈ ts, t ∈ s.stages ∧ (t.record s.config).fault = none) (hm : m ∈ s.posted ts) :
    p.linkAt? m.payload = some m.target.link := by
  rcases List.mem_append.1 hm with hm | hm
  · exact h.linkAt?_of_mem_opening hstarts hp hm
  · obtain ⟨t, ht, hm⟩ := List.mem_flatMap.1 hm
    obtain ⟨hstage, hf⟩ := hts t ht
    have hsound := h.isSetUp.sound
    rw [RoundRecord.accepted, Stage.sent_eq_flatMap_visits (hsound.coherent_of_mem hstage),
      Envelope.messages_flatMap] at hm
    obtain ⟨v, hv, hm⟩ := List.mem_flatMap.1 hm
    obtain ⟨hpayload, hnext⟩ := (hsound.passes_of_mem_visits hstage hf hv).routed m hm
    rw [(h.of_mem_visits hstage hv).2.1] at hnext
    have hroute : ∀ vehicle ∈ p.vehicle? v.message.payload.vehicle, vehicle.route.length ≤ UInt32.size :=
      fun vehicle hvehicle => hlegs vehicle (Population.mem_of_vehicle? hvehicle)
    have hleg : v.message.payload.onward.leg ≠ 0 := Population.leg_onward_ne_zero hroute (by rw [hnext]; rfl)
    rw [hpayload, p.linkAt?_onward hleg, hnext]

end Scheduler.HoldsRoads

end EventSim
