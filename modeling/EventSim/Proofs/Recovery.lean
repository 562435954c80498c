import EventSim.Proofs.Runs

set_option autoImplicit false

/-!
# The units after the run

When a run is over the workers hand their units back, each worker all that it has in its places. Each number then
stands for the unit that was at the end of its route, whichever worker had it, and vacant numbers stay vacant.

## Main definitions

* `EventSim.RoutingTable.Places` — lists of units, worker by worker, that are in the right places.
* `EventSim.RoutingTable.slotAt?` — what is at the end of a route.

## Main results

* `EventSim.Scheduler.Sound.slot?_restore`, `EventSim.Scheduler.Sound.workerOf?_restore` — the units that are
  handed back, and their workers.
* `EventSim.Scheduler.Sound.slot?_recovered`, `EventSim.Scheduler.Sound.unit?_afterRun` — the units after a run.
-/

namespace EventSim

/-! ### Internal helpers: writing to an array -/

/-- If everything that is written to a place is the same, and something is written there or it was there
before, then it is there afterwards. -/
lemma getElem?_foldl_setIfInBounds {α β : Type} {xs : List α} {place : α → Nat} {value : α → β}
    {as : Array β} {j : Nat} {v : β} (hj : j < as.size) (hv : ∀ x ∈ xs, place x = j → value x = v)
    (h : (∃ x ∈ xs, place x = j) ∨ as[j]? = some v) :
    (xs.foldl (fun as x => as.setIfInBounds (place x) (value x)) as)[j]? = some v := by
  induction xs generalizing as with
  | nil => simpa using h
  | cons x xs ih =>
    rw [List.foldl_cons]
    refine ih (by simpa using hj) (fun y hy => hv y (List.mem_cons_of_mem _ hy)) ?_
    by_cases hx : place x = j
    · refine Or.inr ?_
      rw [Array.getElem?_setIfInBounds, if_pos hx, if_pos (hx ▸ hj), hv x List.mem_cons_self hx]
    · rw [Array.getElem?_setIfInBounds_ne hx]
      refine h.imp_left ?_
      rintro ⟨y, hy, hyj⟩
      rcases List.mem_cons.1 hy with rfl | hy
      · exact absurd hyj hx
      · exact ⟨y, hy, hyj⟩

/-- Writing to an array does not change its size. -/
lemma size_foldl_setIfInBounds {α β : Type} (xs : List α) (place : α → Nat) (value : α → β)
    (as : Array β) : (xs.foldl (fun as x => as.setIfInBounds (place x) (value x)) as).size = as.size := by
  induction xs generalizing as with
  | nil => rfl
  | cons x xs ih => rw [List.foldl_cons, ih, Array.size_setIfInBounds]

/-- The elements of some lists, with the numbers of the lists. -/
lemma mem_flatMap_zipIdx {α : Type} {xss : List (List α)} {p : α × Nat} :
    p ∈ (xss.zipIdx.flatMap fun q => q.1.map (·, q.2)) ↔
      ∃ (k : Nat) (xs : List α), xss[p.2]? = some xs ∧ xs[k]? = some p.1 := by
  obtain ⟨x, w⟩ := p
  simp only [List.mem_flatMap, List.mem_map, Prod.mk.injEq, Prod.exists, List.mem_zipIdx_iff_getElem?]
  constructor
  · rintro ⟨xs, _, hxs, _, hx, rfl, rfl⟩
    obtain ⟨k, hk⟩ := List.getElem?_of_mem hx
    exact ⟨k, xs, hxs, hk⟩
  · rintro ⟨k, xs, hxs, hx⟩
    exact ⟨xs, w, hxs, x, List.mem_of_getElem? hx, rfl, rfl⟩

variable {U P : Type} {xss : List (List (Slot U))} {u : UnitId} {x : Slot U}

/-! ## Units in their places -/

namespace RoutingTable

/-- The lists hold the units of all workers, in the places where the routing table says. -/
structure Places (table : RoutingTable) (xss : List (List (Slot U))) : Prop where
  /-- The route of a unit leads to where it is. -/
  route : ∀ {w k : Nat} {xs : List (Slot U)} {x : Slot U}, xss[w]? = some xs → xs[k]? = some x →
    ∃ r, table.route? x.id = some r ∧ r.worker.index = w ∧ r.slot = k
  /-- Every route leads to its unit. -/
  place : ∀ {u r}, table.route? u = some r →
    ∃ xs x, xss[r.worker.index]? = some xs ∧ xs[r.slot]? = some x ∧ x.id = u

/-- What is at the end of the route of a unit. -/
def slotAt? (table : RoutingTable) (xss : List (List (Slot U))) (u : UnitId) : Option (Slot U) :=
  (table.route? u).bind fun r => xss[r.worker.index]?.bind (·[r.slot]?)

variable {table : RoutingTable}

/-- At the end of its route is the unit. -/
lemma Places.slotAt?_eq_some_iff (hp : table.Places xss) : table.slotAt? xss u = some x ↔
    x.id = u ∧ ∃ (w k : Nat) (xs : List (Slot U)), xss[w]? = some xs ∧ xs[k]? = some x := by
  simp only [slotAt?, Option.bind_eq_some_iff]
  constructor
  · rintro ⟨r, hr, xs, hxs, hx⟩
    obtain ⟨xs', y, hxs', hy, hid⟩ := hp.place hr
    cases hxs.symm.trans hxs'
    cases hx.symm.trans hy
    exact ⟨hid, _, _, xs, hxs, hx⟩
  · rintro ⟨rfl, w, k, xs, hxs, hx⟩
    obtain ⟨r, hr, rfl, rfl⟩ := hp.route hxs hx
    exact ⟨r, hr, xs, hxs, hx⟩

/-- The units of a worker have numbers of their own. -/
lemma Places.nodup (hp : table.Places xss) {w : Nat} {xs : List (Slot U)} (hxs : xss[w]? = some xs) :
    (xs.map (·.id)).Nodup := by
  refine List.pairwise_iff_getElem.2 fun i j hi hj hij heq => ?_
  rw [List.getElem_map, List.getElem_map] at heq
  rw [List.length_map] at hi hj
  obtain ⟨r, hr, _, hri⟩ := hp.route hxs (List.getElem?_eq_getElem hi)
  obtain ⟨r', hr', _, hrj⟩ := hp.route hxs (List.getElem?_eq_getElem hj)
  rw [heq, hr'] at hr
  cases hr
  omega

/-- Units with the same numbers are in the same places. -/
lemma Places.of_map_id (hp : table.Places xss) {yss : List (List (Slot U))}
    (h : yss.map (·.map (·.id)) = xss.map (·.map (·.id))) : table.Places yss := by
  have hget : ∀ {xss yss : List (List (Slot U))}, yss.map (·.map (·.id)) = xss.map (·.map (·.id)) →
      ∀ {w k : Nat} {ys : List (Slot U)} {y : Slot U}, yss[w]? = some ys → ys[k]? = some y →
        ∃ xs x, xss[w]? = some xs ∧ xs[k]? = some x ∧ x.id = y.id := by
    intro xss yss h w k ys y hys hy
    have hw := congrArg (·[w]?) h
    simp only [List.getElem?_map, hys, Option.map_some] at hw
    obtain ⟨xs, hxs, hids⟩ := Option.map_eq_some_iff.1 hw.symm
    have hk := congrArg (·[k]?) hids
    simp only [List.getElem?_map, hy, Option.map_some] at hk
    obtain ⟨x, hx, hid⟩ := Option.map_eq_some_iff.1 hk
    exact ⟨xs, x, hxs, hx, hid⟩
  refine ⟨fun hys hy => ?_, fun hr => ?_⟩
  · obtain ⟨xs, x, hxs, hx, hid⟩ := hget h hys hy
    rw [← hid]
    exact hp.route hxs hx
  · obtain ⟨xs, x, hxs, hx, rfl⟩ := hp.place hr
    exact hget h.symm hxs hx

end RoutingTable

/-- The units of a coherent engine are in their places. -/
lemma Engine.Coherent.places {e : Engine U P} {round : Nat} (hc : e.Coherent round) :
    e.postbox.table.Places (e.workers.toList.map (·.slots.toList)) where
  route {w k xs x} hxs hx := by
    rw [List.getElem?_map, Array.getElem?_toList] at hxs
    obtain ⟨v, hv, rfl⟩ := Option.map_eq_some_iff.1 hxs
    rw [Array.getElem?_toList] at hx
    exact ⟨_, (hc.placed hv).route_of_slot k x hx, hc.index_eq hv, rfl⟩
  place {u r} hr := by
    have howner : e.postbox.table.owner? u = some r.worker.index := by rw [RoutingTable.owner?, hr]; rfl
    obtain ⟨v, hv⟩ : ∃ v, e.workers[r.worker.index]? = some v :=
      ⟨_, Array.getElem?_eq_getElem (hc.owner_lt howner)⟩
    obtain ⟨x, hx, hid⟩ := (hc.placed hv).slot_of_route u r hr (Id.ext_index (hc.index_eq hv).symm)
    rw [← Array.getElem?_toList] at hv hx
    exact ⟨_, x, by rw [List.getElem?_map, hv]; rfl, hx, hid⟩

/-- At the end of a route is the unit that the engine has. -/
lemma Engine.Coherent.slotAt?_eq {e : Engine U P} {round : Nat} (hc : e.Coherent round) (u : UnitId) :
    e.postbox.table.slotAt? (e.workers.toList.map (·.slots.toList)) u = e.slot? u := by
  ext x
  rw [hc.slot?_eq_some_iff, RoutingTable.slotAt?, Option.bind_eq_some_iff]
  simp only [List.getElem?_map, Array.getElem?_toList, Option.bind_map, Option.bind_eq_some_iff]
  constructor
  · rintro ⟨r, hr, v, hv, hx⟩
    refine ⟨_, v, hv, Worker.slot?_eq_some_iff.2 ⟨r, hr, Id.ext_index (hc.index_eq hv).symm, ?_⟩⟩
    simpa using hx
  · rintro ⟨i, v, hv, hx⟩
    obtain ⟨r, hr, hw, hx⟩ := Worker.slot?_eq_some_iff.1 hx
    refine ⟨r, hr, v, ?_, by simpa using hx⟩
    rw [hw, hc.index_eq hv, hv]

/-! ## Handing back -/

namespace Scheduler

variable {s : Scheduler U P}

/-- All units are handed back one after another. -/
lemma units_restore (s : Scheduler U P) (xss : List (List (Slot U))) :
    (s.restore xss).units = (xss.zipIdx.flatMap fun p => p.1.map (·, p.2)).foldl (fun units p =>
      units.setIfInBounds p.1.id.index (some ⟨p.1.unit, Id.ofNat p.2, p.1.nextSeq⟩)) s.units := by
  rw [restore]
  generalize xss.zipIdx = ps
  induction ps generalizing s with
  | nil => rfl
  | cons p ps ih =>
    rw [List.foldl_cons, ih, List.flatMap_cons, List.foldl_append, List.foldl_map]
    rfl

/-- As many numbers have been given as before. -/
lemma unitCount_restore (s : Scheduler U P) (xss : List (List (Slot U))) :
    (s.vacated.restore xss).unitCount = s.unitCount := by
  rw [unitCount, units_restore, size_foldl_setIfInBounds]
  exact Array.size_replicate

namespace Sound

/-- When a run begins the units are in their places. -/
lemma places (hs : s.Sound) : s.table.Places (s.placement.slots.toList.map (·.toList)) where
  route {w k xs x} hxs hx := by
    rw [List.getElem?_map, Array.getElem?_toList] at hxs
    obtain ⟨ys, hys, rfl⟩ := Option.map_eq_some_iff.1 hxs
    rw [Array.getElem?_toList] at hx
    obtain ⟨r, _, hw, _, hr⟩ := hs.of_slot (w := w) (k := k) (x := x) (by rw [Placement.slot?, hys]; exact hx)
    exact ⟨_, hr, hw, rfl⟩
  place {u r} hr := by
    obtain ⟨_, _, _, hslot⟩ := hs.exists_of_route? hr
    obtain ⟨xs, hxs, hx⟩ := Option.bind_eq_some_iff.1 hslot
    rw [← Array.getElem?_toList] at hxs hx
    exact ⟨xs.toList, _, by rw [List.getElem?_map, hxs]; rfl, hx, rfl⟩

/-- **What is handed back** is what was at the end of the routes, pinned to the same workers. -/
theorem registered?_restore (hs : s.Sound) (hp : s.table.Places xss) (u : UnitId) :
    (s.vacated.restore xss).registered? u = (s.registered? u).bind fun r =>
      (s.table.slotAt? xss u).map fun x => ⟨x.unit, r.worker, x.nextSeq⟩ := by
  rw [registered?_eq, units_restore]
  cases hr : s.registered? u with
  | none =>
    have hroute : s.table.route? u = none := by
      rw [← Option.not_isSome_iff_eq_none, hs.isSome_route?, hr]
      exact Bool.false_ne_true
    rw [Option.bind_none]
    by_cases hu : u.index < s.units.size
    · rw [getElem?_foldl_setIfInBounds (v := none) (by simpa [vacated] using hu) (fun p hmem hplace => ?_)
        (Or.inr (by simp [vacated, hu]))]
      · rfl
      · -- a unit that is handed back has a route
        obtain ⟨k, xs, hxs, hk⟩ := mem_flatMap_zipIdx.1 hmem
        obtain ⟨r, hr, _⟩ := hp.route hxs hk
        rw [Id.ext_index hplace, hroute] at hr
        cases hr
    · rw [Array.getElem?_eq_none]
      · rfl
      · rw [size_foldl_setIfInBounds]
        simpa [vacated] using hu
  | some r₀ =>
    obtain ⟨k, hroute, _⟩ := hs.exists_route hr
    obtain ⟨xs, x, hxs, hx, hid⟩ := hp.place hroute
    have hu : u.index < s.units.size := index_lt_of_registered? hr
    have hslot : s.table.slotAt? xss u = some x := hp.slotAt?_eq_some_iff.2 ⟨hid, _, _, xs, hxs, hx⟩
    have hworker : Id.ofNat r₀.worker.index = r₀.worker := Id.ext_index (Nat.mod_eq_of_lt r₀.worker.index_lt)
    rw [Option.bind_some, hslot, Option.map_some, getElem?_foldl_setIfInBounds
      (v := some ⟨x.unit, r₀.worker, x.nextSeq⟩) (by simpa [vacated] using hu) (fun p hmem hplace => ?_)
      (Or.inl ⟨(x, r₀.worker.index), mem_flatMap_zipIdx.2 ⟨k, xs, hxs, hx⟩, congrArg Id.index hid⟩)]
    · rfl
    · -- the same unit is at the same place
      obtain ⟨j, ys, hys, hj⟩ := mem_flatMap_zipIdx.1 hmem
      obtain ⟨r, hr, hw, rfl⟩ := hp.route hys hj
      rw [Id.ext_index hplace, hroute] at hr
      cases hr
      rw [← hw] at hys
      cases hxs.symm.trans hys
      cases hx.symm.trans hj
      rw [← hw, hworker]

/-- Just the registered units are at the end of routes. -/
lemma isSome_slotAt? (hs : s.Sound) (hp : s.table.Places xss) (u : UnitId) :
    (s.table.slotAt? xss u).isSome = (s.registered? u).isSome := by
  rw [← hs.isSome_route?]
  cases hr : s.table.route? u with
  | none => simp [RoutingTable.slotAt?, hr]
  | some r =>
    obtain ⟨xs, x, hxs, hx, _⟩ := hp.place hr
    simp [RoutingTable.slotAt?, hr, hxs, hx]

/-- When a run begins the registered units are at the end of their routes. -/
lemma slotAt?_placement (hs : s.Sound) (u : UnitId) :
    s.table.slotAt? (s.placement.slots.toList.map (·.toList)) u = s.slot? u := by
  ext x
  rw [hs.places.slotAt?_eq_some_iff]
  constructor
  · rintro ⟨rfl, w, k, xs, hxs, hx⟩
    rw [← hs.mem_placed, placed, List.mem_flatMap]
    rw [List.getElem?_map] at hxs
    obtain ⟨ys, hys, rfl⟩ := Option.map_eq_some_iff.1 hxs
    exact ⟨ys, List.mem_of_getElem? hys, List.mem_of_getElem? hx⟩
  · intro hx
    have hid := id_of_slot? hx
    rw [← hid, ← hs.mem_placed, placed, List.mem_flatMap] at hx
    obtain ⟨ys, hys, hx⟩ := hx
    obtain ⟨w, hw⟩ := List.getElem?_of_mem hys
    obtain ⟨k, hk⟩ := List.getElem?_of_mem hx
    exact ⟨hid, w, k, ys.toList, by rw [List.getElem?_map, hw]; rfl, hk⟩

/-- **The units that are handed back** are those at the end of the routes. -/
theorem slot?_restore (hs : s.Sound) (hp : s.table.Places xss) (u : UnitId) :
    (s.vacated.restore xss).slot? u = s.table.slotAt? xss u := by
  have hsome := hs.isSome_slotAt? hp u
  rw [slot?, hs.registered?_restore hp]
  cases hx : s.table.slotAt? xss u with
  | none => cases s.registered? u <;> rfl
  | some x =>
    rw [hx] at hsome
    obtain ⟨r, hr⟩ := Option.isSome_iff_exists.1 hsome.symm
    obtain ⟨rfl, _⟩ := hp.slotAt?_eq_some_iff.1 hx
    rw [hr]
    rfl

/-- **The units that are handed back are pinned to the same workers** as before. -/
theorem workerOf?_restore (hs : s.Sound) (hp : s.table.Places xss) (u : UnitId) :
    (s.vacated.restore xss).workerOf? u = s.workerOf? u := by
  have hsome := hs.isSome_slotAt? hp u
  rw [workerOf?, workerOf?, hs.registered?_restore hp]
  cases hr : s.registered? u with
  | none => rfl
  | some r =>
    rw [hr] at hsome
    obtain ⟨x, hx⟩ := Option.isSome_iff_exists.1 hsome
    rw [hx]
    rfl

/-- **The units that are handed back** after a round are those of the engine. -/
theorem slot?_recovered (hs : s.Sound) {e : Engine U P} {round : Nat} (hc : e.Coherent round)
    (htable : e.postbox.table = s.table) (u : UnitId) : (s.recovered e).slot? u = e.slot? u := by
  rw [recovered, hs.slot?_restore (htable ▸ hc.places), ← htable, hc.slotAt?_eq]

end Sound

variable [Payload P] [SimUnit U P]

/-- After each round the engine is coherent, and the routing table is what it was. -/
lemma Sound.coherent_after (hs : s.Sound) {ts rest : List (Stage U P)} {t : Stage U P}
    (h : s.stages = ts ++ t :: rest) :
    (t.after s.config).Coherent (t.past + 1) ∧ (t.after s.config).postbox.table = s.table := by
  refine ⟨(hs.coherent_of_stages_eq h).runRound s.config t.horizon.current, ?_⟩
  rw [Stage.after, Engine.table_runRound, hs.table_of_stages_eq h]

/-- **The units after a run** are those of the engine after its last round. -/
theorem Sound.unit?_afterRun (hs : s.Sound) {ts : List (Stage U P)} {t : Stage U P}
    (h : s.stages = ts ++ [t]) (u : UnitId) :
    s.afterRun.unit? u = ((t.after s.config).slot? u).map (·.unit) := by
  obtain ⟨t₀, hfirst, h₀⟩ := firstStage?_of_stages_eq h
  obtain ⟨hc, htable⟩ := hs.coherent_after h
  have hunit : ∀ s' : Scheduler U P, s'.unit? u = (s'.slot? u).map (·.unit) := fun s' => by
    rw [unit?, slot?, Option.map_map]
    rfl
  rw [← hs.slot?_recovered hc htable, ← hunit, afterRun, run_of_some _ _ hfirst h₀]
  cases t.outcome s.config <;> rfl

end Scheduler

end EventSim
