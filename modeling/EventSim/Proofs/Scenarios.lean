import EventSim.Proofs.Departures
import EventSim.Proofs.Launch
import EventSim.Proofs.Traversal
import EventSim.Traffic.Scenario
import Mathlib.Data.List.Perm.Subperm

set_option autoImplicit false

/-!
# Schedulers that hold roads

When the roads of a network have been registered with a new scheduler, it holds roads and nothing else. The number of a
road is the number of its link, its free travel time is finite and positive, and the vehicles that depart from the link
have been given to it. As long as there are numbers for all links, each of them has its road, so that there is a road
wherever a route leads.

## Main definitions

* `EventSim.Population.Numbered` — vehicles are numbered in order, and have routes.
* `EventSim.Scheduler.registerListed` — roads are registered with the vehicles that depart from their links.
* `EventSim.Scheduler.HoldsRoads` — a scheduler with the roads for a population, before its run.
* `EventSim.Scheduler.CoversRoutes` — a scheduler with all roads that routes lead over.

## Main results

* `EventSim.Population.numbered_ofTrips` — the population of given trips is numbered.
* `EventSim.Scheduler.registerEach_eq` — each road is given the vehicles that depart from its link.
* `EventSim.Scheduler.holdsRoads_registerRoads`, `EventSim.Scheduler.coversRoutes_registerRoads` — what the registration
  of roads achieves.
-/

namespace EventSim

/-! ### Internal helper: pairs of elements of two lists -/

/-- The first elements of pairs are elements of the first list, in its order. -/
lemma map_fst_zip_sublist {α β : Type} (xs : List α) (ys : List β) : ((xs.zip ys).map (·.1)).Sublist xs := by
  induction xs generalizing ys with
  | nil => exact List.Sublist.slnil
  | cons x xs ih =>
    cases ys with
    | nil => exact List.nil_sublist _
    | cons y ys => exact (ih ys).cons_cons x

/-! ## Numbers -/

/-- The link whose road has the number of the unit. -/
def Id.link (u : UnitId) : LinkId := ⟨u.index, u.index_lt⟩

/-- The road of a link has its number. -/
@[simp] lemma Id.link_ofNat (l : LinkId) : (Id.ofNat l.index : UnitId).link = l :=
  Id.ext_index (Nat.mod_eq_of_lt l.index_lt)

/-- The number of a unit is that of its link. -/
lemma Id.ofNat_link (u : UnitId) : Id.ofNat u.link.index = u := Id.ext_index (Nat.mod_eq_of_lt u.index_lt)

/-! ## Populations -/

namespace Population

variable {p : Population} {v : VehicleId} {vehicle : Vehicle}

/-- What is found under a number is one of the vehicles. -/
lemma mem_of_vehicle? (h : p.vehicle? v = some vehicle) : vehicle ∈ p.vehicles.toList :=
  Array.mem_toList_iff.2 (Array.mem_of_getElem? h)

/-- The vehicles are numbered in order, and each of them has somewhere to go. -/
structure Numbered (p : Population) : Prop where
  /-- The number of a vehicle is its place. -/
  index_eq : ∀ i (vehicle : Vehicle), p.vehicles[i]? = some vehicle → vehicle.id.index = i
  /-- No route is empty. -/
  route_ne_nil : ∀ vehicle ∈ p.vehicles.toList, vehicle.route ≠ []

/-- A vehicle is found under its number. -/
lemma Numbered.vehicle?_iff (hp : p.Numbered) :
    p.vehicle? v = some vehicle ↔ vehicle ∈ p.vehicles.toList ∧ vehicle.id = v := by
  constructor
  · intro h
    exact ⟨mem_of_vehicle? h, Id.ext_index (hp.index_eq _ _ h)⟩
  · rintro ⟨hmem, rfl⟩
    obtain ⟨i, hi⟩ := List.getElem?_of_mem hmem
    rw [Array.getElem?_toList] at hi
    rw [vehicle?, hp.index_eq i vehicle hi, hi]

/-- Every vehicle number is that of a vehicle. -/
lemma Numbered.isSome_vehicle? (hp : p.Numbered) (hv : vehicle ∈ p.vehicles.toList) :
    (p.vehicle? vehicle.id).isSome :=
  Option.isSome_iff_exists.2 ⟨vehicle, hp.vehicle?_iff.2 ⟨hv, rfl⟩⟩

/-- The vehicles have the numbers from zero on. -/
lemma Numbered.map_index (hp : p.Numbered) : p.vehicles.toList.map (·.id.index) = List.range p.size := by
  apply List.ext_getElem (by simp [size])
  intro i hi _
  rw [List.length_map] at hi
  rw [List.getElem_map, List.getElem_range]
  exact hp.index_eq i _ (by rw [← Array.getElem?_toList, List.getElem?_eq_getElem hi])

/-- No two vehicles have the same number. -/
lemma Numbered.nodup_id (hp : p.Numbered) : (p.vehicles.toList.map (·.id)).Nodup := by
  have hindex : ((p.vehicles.toList.map (·.id)).map (·.index)).Nodup := by
    rw [List.map_map]
    exact hp.map_index ▸ List.nodup_range
  exact hindex.of_map

/-- If no two vehicles share a number, there are not more vehicles than numbers. -/
lemma size_le_of_nodup (hn : (p.vehicles.toList.map (·.id)).Nodup) : p.size ≤ UInt32.size := by
  have hindex : ((p.vehicles.toList.map (·.id)).map (·.index)).Subperm (List.range UInt32.size) :=
    (hn.map fun _ _ => Id.ext_index).subperm fun i hi => by
      obtain ⟨v, -, rfl⟩ := List.mem_map.1 hi
      exact List.mem_range.2 v.index_lt
  have hlength := hindex.length_le
  rwa [List.length_map, List.length_map, Array.length_toList, List.length_range] at hlength

/-- The vehicles of given trips have the numbers of their places, and no trip is without a route. -/
lemma vehicles_ofTrips {trips : List (List LinkId × SimTime)} (h : ofTrips trips = .ok p) :
    p.vehicles.toList = trips.zipIdx.map (fun x => ⟨Id.ofNat x.2, x.1.1, x.1.2⟩) ∧ ∀ trip ∈ trips, trip.1 ≠ [] := by
  unfold ofTrips at h
  cases hmap : trips.zipIdx.mapM fun x => if x.1.1.isEmpty then Except.error (TrafficError.emptyRoute (Id.ofNat x.2))
      else .ok (⟨Id.ofNat x.2, x.1.1, x.1.2⟩ : Vehicle) with
  | error e =>
    rw [hmap] at h
    cases h
  | ok vehicles =>
    rw [hmap] at h
    cases h
    constructor
    · have hvehicles : vehicles.map id = trips.zipIdx.map fun x => ⟨Id.ofNat x.2, x.1.1, x.1.2⟩ := by
        refine map_eq_of_mapM_eq_ok (fun x v hx => ?_) hmap
        split at hx <;> cases hx
        rfl
      rwa [List.map_id] at hvehicles
    · intro trip htrip
      obtain ⟨i, hi⟩ := List.getElem?_of_mem htrip
      have hx : trips.zipIdx[i]? = some (trip, 0 + i) := by
        rw [List.getElem?_zipIdx, hi]
        rfl
      obtain ⟨_, _, hok⟩ := exists_of_mapM_eq_ok hmap hx
      split at hok
      · cases hok
      · rename_i hroute
        exact fun hnil => hroute (List.isEmpty_iff.2 hnil)

/-- Every vehicle number of given trips is that of some vehicle. -/
lemma isSome_vehicle?_of_ofTrips {trips : List (List LinkId × SimTime)} (h : ofTrips trips = .ok p)
    (hv : vehicle ∈ p.vehicles.toList) : (p.vehicle? vehicle.id).isSome := by
  obtain ⟨i, hi⟩ := List.getElem?_of_mem hv
  obtain ⟨hlt, -⟩ := List.getElem?_eq_some_iff.1 hi
  rw [(vehicles_ofTrips h).1, List.getElem?_map, List.getElem?_zipIdx] at hi
  obtain ⟨x, hx, rfl⟩ := Option.map_eq_some_iff.1 hi
  obtain ⟨trip, -, rfl⟩ := Option.map_eq_some_iff.1 hx
  rw [Array.length_toList] at hlt
  have hindex : (Id.ofNat (0 + i) : VehicleId).index ≤ 0 + i := Nat.mod_le ..
  have hplace : (Id.ofNat (0 + i) : VehicleId).index < p.vehicles.size := hindex.trans_lt (by omega)
  exact Option.isSome_iff_exists.2 ⟨_, Array.getElem?_eq_getElem hplace⟩

/-- Trips that have routes make up a population. -/
lemma exists_ofTrips {trips : List (List LinkId × SimTime)} (h : ∀ trip ∈ trips, trip.1 ≠ []) :
    ∃ p, ofTrips trips = .ok p := by
  have hmap : (trips.zipIdx.mapM fun x => if x.1.1.isEmpty then Except.error (TrafficError.emptyRoute (Id.ofNat x.2))
      else .ok (⟨Id.ofNat x.2, x.1.1, x.1.2⟩ : Vehicle)) =
        .ok (trips.zipIdx.map fun x => ⟨Id.ofNat x.2, x.1.1, x.1.2⟩) := by
    rw [mapM_eq_ok_iff, List.map_map]
    refine List.map_congr_left fun x hx => if_neg fun hempty => ?_
    exact h x.1 (List.fst_mem_of_mem_zipIdx hx) (List.isEmpty_iff.1 hempty)
  refine ⟨⟨(trips.zipIdx.map fun x => ⟨Id.ofNat x.2, x.1.1, x.1.2⟩).toArray⟩, ?_⟩
  unfold ofTrips
  rw [hmap]
  rfl

/-- **The population of given trips is numbered** just if there are not more of them than vehicle numbers. -/
theorem numbered_ofTrips {trips : List (List LinkId × SimTime)} (h : ofTrips trips = .ok p) :
    p.Numbered ↔ p.size ≤ UInt32.size := by
  obtain ⟨hvehicles, hroutes⟩ := vehicles_ofTrips h
  refine ⟨fun hp => size_le_of_nodup hp.nodup_id, fun hids => ⟨fun i vehicle hi => ?_, fun vehicle hv => ?_⟩⟩
  · have hlt : i < UInt32.size := Nat.lt_of_lt_of_le (Array.getElem?_eq_some_iff.1 hi).1 hids
    rw [← Array.getElem?_toList, hvehicles, List.getElem?_map, List.getElem?_zipIdx] at hi
    obtain ⟨x, hx, rfl⟩ := Option.map_eq_some_iff.1 hi
    obtain ⟨trip, _, rfl⟩ := Option.map_eq_some_iff.1 hx
    rw [Nat.zero_add]
    exact Nat.mod_eq_of_lt hlt
  · rw [hvehicles] at hv
    obtain ⟨⟨trip, i⟩, hx, rfl⟩ := List.mem_map.1 hv
    exact hroutes trip (List.fst_mem_of_mem_zipIdx hx)

end Population

/-! ## Registration -/

namespace Scheduler

section Units

variable {U P : Type} [SimUnit U P] {s : Scheduler U P}

/-- A unit that is registered has a finite and positive lookahead. -/
lemma isPositiveFinite_of_register {unit : U} {worker : WorkerId} {id : UnitId}
    (h : (s.register unit worker).1 = .ok id) : (SimUnit.lookahead unit).secs.isPositiveFinite = true := by
  unfold Scheduler.register at h
  split at h
  · cases h
  split at h
  · cases h
  split at h
  · cases h
  dsimp only at h
  split at h
  · cases h
  split at h
  · cases h
  rename_i hvalid
  simpa using hvalid

end Units

variable {s s' : Scheduler Road TrafficEvent} {p : Population} {n : Network} {assignment : List WorkerId}

/-- The entry of a road that has been registered. -/
def roadEntry (p : Population) : (LinkId × Link) × WorkerId → Option (Registered Road)
  | ((id, link), worker) => some ⟨Road.ofLink id link p (p.departingFrom id), worker, 0⟩

/-- A road that is registered comes last, under the number of its link. -/
lemma registerRoad_eq_ok {id : LinkId} {link : Link} {worker : WorkerId}
    (h : s.registerRoad p id link (p.departingFrom id) worker = (.ok (), s')) : id.index = s.units.size ∧
      link.freeTravel.isPositiveFinite = true ∧
        s' = { s with units := s.units.push (roadEntry p ((id, link), worker)) } := by
  unfold registerRoad at h
  have hpositive : ∀ u, (s.register (Road.ofLink id link p (p.departingFrom id)) worker).1 = .ok u →
      link.freeTravel.isPositiveFinite = true := fun _ => isPositiveFinite_of_register
  rcases s.register_reply (Road.ofLink id link p (p.departingFrom id)) worker with
    ⟨e, heq⟩ | ⟨u, hu, _, _, heq⟩ <;> rw [heq] at h hpositive <;> dsimp only at h
  · cases h
  · split at h
    · rename_i hindex
      cases h
      exact ⟨hindex.symm.trans hu, hpositive u rfl, rfl⟩
    · cases h

/-- Registers roads in order, up to the first that is refused. Each is given the vehicles that depart from its link. -/
def registerListed (p : Population) : Scheduler Road TrafficEvent → List ((LinkId × Link) × WorkerId) →
    Except TrafficError Unit × Scheduler Road TrafficEvent
  | s, [] => (.ok (), s)
  | s, ((id, link), worker) :: rows =>
    match s.registerRoad p id link (p.departingFrom id) worker with
    | (.error e, s) => (.error e, s)
    | (.ok _, s) => registerListed p s rows

/-- **Each road is given the vehicles that depart from its link**, if no link comes twice: what is taken away for other
links does not belong to it. -/
theorem registerEach_eq {groups : Departures} {rows : List ((LinkId × Link) × WorkerId)}
    (hgroups : ∀ row ∈ rows, Departures.group row.1.1 groups = p.departingFrom row.1.1)
    (hnodup : (rows.map (·.1.1)).Nodup) : registerEach p s groups rows = registerListed p s rows := by
  induction rows generalizing s groups with
  | nil => rfl
  | cons row rows ih =>
    obtain ⟨⟨id, link⟩, worker⟩ := row
    obtain ⟨hid, hrest⟩ := List.forall_mem_cons.1 hgroups
    have hid : Departures.group id groups = p.departingFrom id := hid
    obtain ⟨hother, hnodup⟩ := List.nodup_cons.1 hnodup
    rw [registerEach, registerListed, Departures.remove_fst, hid]
    obtain ⟨_ | _, s₁⟩ := s.registerRoad p id link (p.departingFrom id) worker
    · rfl
    · refine ih (fun row hrow => ?_) hnodup
      have hne : id ≠ row.1.1 := fun heq => hother (List.mem_map.2 ⟨row, hrow, heq.symm⟩)
      rw [Departures.group_remove_of_ne hne, hrest row hrow]

/-- No link comes twice. -/
lemma nodup_zip_assignment (n : Network) (assignment : List WorkerId) :
    (((n.linkIds.zip n.links.toList).zip assignment).map (·.1.1)).Nodup := by
  have hlinks : n.linkIds.Nodup := by
    refine List.nodup_range.map_on fun i hi j hj heq => ?_
    have hlt : ∀ k ∈ List.range n.numberedLinks, k % UInt32.size = k := fun k hk =>
      Nat.mod_eq_of_lt ((List.mem_range.1 hk).trans (Nat.mod_lt _ (by decide)))
    rw [← hlt i hi, ← hlt j hj]
    exact congrArg Id.index heq
  have hsub : (((n.linkIds.zip n.links.toList).zip assignment).map (·.1.1)).Sublist n.linkIds := by
    have hpairs : ((n.linkIds.zip n.links.toList).zip assignment).map (·.1.1) =
        (((n.linkIds.zip n.links.toList).zip assignment).map (·.1)).map (·.1) := List.map_map.symm
    rw [hpairs]
    exact ((map_fst_zip_sublist _ _).map _).trans (map_fst_zip_sublist _ _)
  exact hsub.nodup hlinks

/-- The roads of a network are registered with the vehicles that depart from their links. -/
lemma registerRoads_eq (s : Scheduler Road TrafficEvent) (n : Network) (p : Population) (assignment : List WorkerId) :
    s.registerRoads n p assignment = match checkScenario n p assignment with
      | .error e => (.error e, s)
      | .ok _ => registerListed p s ((n.linkIds.zip n.links.toList).zip assignment) := by
  unfold registerRoads
  cases checkScenario n p assignment with
  | error e => rfl
  | ok _ => exact registerEach_eq (fun row _ => p.group_departures row.1.1) (nodup_zip_assignment n assignment)

/-- Roads are registered behind the units that are there, each under the number of its link. -/
lemma registerListed_eq_ok {links : List ((LinkId × Link) × WorkerId)}
    (h : registerListed p s links = (.ok (), s')) :
    s' = { s with units := s.units ++ (links.map (roadEntry p)).toArray } ∧
      ∀ k x, links[k]? = some x → x.1.1.index = s.units.size + k ∧ x.1.2.freeTravel.isPositiveFinite = true := by
  induction links generalizing s with
  | nil =>
    cases h
    exact ⟨by simp, by simp⟩
  | cons x links ih =>
    obtain ⟨⟨id, link⟩, worker⟩ := x
    rw [registerListed] at h
    split at h
    · cases h
    rename_i s₁ hroad
    obtain ⟨hindex, hpositive, rfl⟩ := registerRoad_eq_ok hroad
    obtain ⟨rfl, hrest⟩ := ih h
    refine ⟨by simp, fun k y hy => ?_⟩
    cases k with
    | zero =>
      cases hy
      exact ⟨hindex, hpositive⟩
    | succ k =>
      have hy' := hrest k y hy
      rw [Array.size_push] at hy'
      exact ⟨by omega, hy'.2⟩

/-- An error in the registration of roads is that of the scheduler, or a road has got a wrong number. -/
lemma of_registerListed_error {rows : List ((LinkId × Link) × WorkerId)} {e : TrafficError}
    (h : (registerListed p s rows).1 = .error e) : (∃ l, e = .unitMismatch l) ∨ ∃ row ∈ rows, ∃ s₁ e', e = .run e' ∧
      (register s₁ (Road.ofLink row.1.1 row.1.2 p (p.departingFrom row.1.1)) row.2).1 = .error e' := by
  induction rows generalizing s with
  | nil => cases h
  | cons row rows ih =>
    obtain ⟨⟨id, link⟩, worker⟩ := row
    rw [registerListed] at h
    split at h
    · rename_i e' s' hroad
      cases h
      unfold registerRoad at hroad
      split at hroad
      · rename_i hregister
        cases hroad
        exact Or.inr ⟨_, List.mem_cons_self, s, _, rfl, congrArg Prod.fst hregister⟩
      · split at hroad <;> cases hroad
        exact Or.inl ⟨_, rfl⟩
    · obtain hmismatch | ⟨row, hrow, hregister⟩ := ih h
      · exact Or.inl hmismatch
      · exact Or.inr ⟨row, List.mem_cons_of_mem _ hrow, hregister⟩

/-- The registration of a road is an operation of the setup. -/
lemma IsSetUp.registerListed (hs : s.IsSetUp) {links : List ((LinkId × Link) × WorkerId)}
    (h : registerListed p s links = (.ok (), s')) : s'.IsSetUp := by
  induction links generalizing s with
  | nil =>
    cases h
    exact hs
  | cons x links ih =>
    obtain ⟨⟨id, link⟩, worker⟩ := x
    rw [Scheduler.registerListed] at h
    split at h
    · cases h
    rename_i s₁ hroad
    refine ih ?_ h
    have hregister := hs.register (Road.ofLink id link p (p.departingFrom id)) worker
    unfold registerRoad at hroad
    split at hroad
    · cases hroad
    rename_i heq
    rw [heq] at hregister
    split at hroad <;> cases hroad
    exact hregister

/-- A scheduler that holds the roads for a population and nothing else, as it is before its run. -/
structure HoldsRoads (s : Scheduler Road TrafficEvent) (p : Population) : Prop where
  /-- The scheduler is set up. -/
  isSetUp : s.IsSetUp
  /-- There are no seeds. -/
  seeds : s.seeds = #[]
  /-- Every unit is the road of the link with its number, before any vehicle has entered it. -/
  road : ∀ u r, s.registered? u = some r → ∃ link, r.unit = Road.ofLink u.link link p (p.departingFrom u.link) ∧
    link.freeTravel.isPositiveFinite = true

/-- Wherever a route leads there is a road. -/
def CoversRoutes (s : Scheduler Road TrafficEvent) (p : Population) : Prop :=
  ∀ vehicle ∈ p.vehicles.toList, ∀ l ∈ vehicle.route, (s.registered? (Id.ofNat l.index)).isSome

/-- The routes of a scenario without fault lead over links of the network, and every link has a worker. -/
lemma of_checkScenario (h : checkScenario n p assignment = .ok ()) : assignment.length = n.linkCount ∧
    ∀ vehicle ∈ p.vehicles.toList, ∀ l ∈ vehicle.route, l.index < n.linkCount := by
  unfold checkScenario at h
  by_cases hlength : assignment.length = n.linkCount
  · rw [if_neg (not_not.2 hlength)] at h
    refine ⟨hlength, fun vehicle hv l hl => ?_⟩
    have hlink := forM_eq_ok_iff.1 (forM_eq_ok_iff.1 h vehicle hv) l hl
    by_contra hlt
    rw [Network.checkLink, if_neg hlt] at hlink
    cases hlink
  · rw [if_pos hlength] at h
    cases h

/-- A scenario is at fault if links have no worker, or if a route leads over a link that is not there. -/
lemma of_checkScenario_error {e : TrafficError} (h : checkScenario n p assignment = .error e) :
    e = .assignment assignment.length n.linkCount ∨
      ∃ vehicle ∈ p.vehicles.toList, ∃ l ∈ vehicle.route, n.linkCount ≤ l.index ∧ e = .network (.linkNotFound l) := by
  unfold checkScenario at h
  by_cases hlength : assignment.length = n.linkCount
  · rw [if_neg (not_not.2 hlength)] at h
    obtain ⟨before, vehicle, after, hvehicles, -, hroute⟩ := forM_eq_error_iff.1 h
    obtain ⟨before', l, after', hlinks, -, hlink⟩ := forM_eq_error_iff.1 hroute
    refine Or.inr ⟨vehicle, hvehicles ▸ List.mem_append_right _ List.mem_cons_self, l,
      hlinks ▸ List.mem_append_right _ List.mem_cons_self, ?_⟩
    unfold Network.checkLink at hlink
    split at hlink
    · cases hlink
    · rename_i hlt
      cases hlink
      exact ⟨Nat.not_lt.1 hlt, rfl⟩
  · rw [if_pos hlength] at h
    cases h
    exact Or.inl rfl

/-- There is one road for every link that has a number. -/
lemma length_zip_assignment (h : assignment.length = n.linkCount) :
    ((n.linkIds.zip n.links.toList).zip assignment).length = n.numberedLinks := by
  have hle : n.numberedLinks ≤ n.linkCount := Nat.mod_le _ _
  rw [List.length_zip, List.length_zip, Network.linkIds, List.length_map, List.length_range, Array.length_toList, h,
    show n.links.size = n.linkCount from rfl, Nat.min_eq_left hle, Nat.min_eq_left hle]

section New

variable {config : RunConfig} (hnew : Scheduler.new config = .ok s)
  (h : s.registerRoads n p assignment = (.ok (), s'))

include h

/-- Roads are registered only for a scenario without fault. -/
lemma of_registerRoads : checkScenario n p assignment = .ok () ∧
    registerListed p s ((n.linkIds.zip n.links.toList).zip assignment) = (.ok (), s') := by
  rw [registerRoads_eq] at h
  split at h
  · cases h
  · rename_i hcheck
    exact ⟨hcheck, h⟩

include hnew

/-- What is registered with a new scheduler: the roads of the links, each under the number of its link. -/
lemma registered?_registerRoads (u : UnitId) : s'.registered? u =
    (((n.linkIds.zip n.links.toList).zip assignment)[u.index]?.map (roadEntry p)).join := by
  obtain rfl := eq_of_new hnew
  rw [registered?_eq, (registerListed_eq_ok (of_registerRoads h).2).1]
  simp

/-- **A scheduler holds roads** when they have been registered with a new one. -/
theorem holdsRoads_registerRoads : s'.HoldsRoads p ∧ s'.config = config := by
  have hentry := registered?_registerRoads hnew h
  have hs := IsSetUp.new hnew
  obtain rfl := eq_of_new hnew
  obtain ⟨hs', hlinks⟩ := registerListed_eq_ok (of_registerRoads h).2
  have hsetup := hs.registerListed (of_registerRoads h).2
  generalize (n.linkIds.zip n.links.toList).zip assignment = links at *
  refine ⟨⟨hsetup, by rw [hs'], fun u r hr => ?_⟩, by rw [hs']⟩
  rw [hentry, Option.join_eq_some_iff, Option.map_eq_some_iff] at hr
  obtain ⟨⟨⟨id, link⟩, worker⟩, hx, hr⟩ := hr
  cases hr
  obtain ⟨hindex, hpositive⟩ := hlinks _ _ hx
  have hid : id = u.link := Id.ext_index (hindex.trans (Nat.zero_add _))
  exact ⟨link, by rw [hid], hpositive⟩

/-- **There is a road wherever a route leads**, if there are numbers for all links. -/
theorem coversRoutes_registerRoads (hsize : n.linkCount < UInt32.size) : s'.CoversRoutes p := by
  intro vehicle hv l hl
  obtain ⟨hlength, hroutes⟩ := of_checkScenario (of_registerRoads h).1
  have hindex : (Id.ofNat l.index : UnitId).index = l.index := Nat.mod_eq_of_lt l.index_lt
  have hlt : l.index < ((n.linkIds.zip n.links.toList).zip assignment).length := by
    rw [length_zip_assignment hlength, Network.numberedLinks, Nat.mod_eq_of_lt hsize]
    exact hroutes vehicle hv l hl
  rw [registered?_registerRoads hnew h, hindex, List.getElem?_eq_getElem hlt]
  rfl

end New

end Scheduler

end EventSim
