import EventSim.Proofs.Setup
import EventSim.Proofs.Staging
import Mathlib.Data.List.Induction

set_option autoImplicit false

/-!
# The distribution of units over workers

When a run begins every registered unit gets a place at the worker that it is pinned to, and a route to that
place. Routes and places correspond to each other, so that each unit is found where its route leads, and
nothing else is.

## Main definitions

* `EventSim.Placement.Describes` — routes and places correspond to the units.
* `EventSim.Scheduler.placement`, `EventSim.Scheduler.table` — the distribution for a run.

## Main results

* `EventSim.Placement.describes_ofUnits` — the distribution of units describes them.
* `EventSim.Scheduler.Sound.exists_route`, `EventSim.Scheduler.Sound.of_slot` — where each unit is.
-/

namespace EventSim

variable {U : Type}

namespace Placement

/-- What is at a place of a worker. -/
def slot? (p : Placement U) (worker place : Nat) : Option (Slot U) := p.slots[worker]?.bind (·[place]?)

/-- The routes and the places of the distribution correspond to the units. -/
structure Describes (p : Placement U) (us : List (Option (Registered U))) (workers : Nat) : Prop where
  /-- Every unit number has an entry. -/
  size_routes : p.routes.size = us.length
  /-- Every worker has a list of units. -/
  size_slots : p.slots.size = workers
  /-- A vacant number has no route. -/
  vacant : ∀ {i : Nat}, us[i]? = some none → p.routes[i]? = some none
  /-- A unit has a route to a place, and is there. -/
  occupied : ∀ {i : Nat} {r}, us[i]? = some (some r) → ∃ k, p.routes[i]? = some (some ⟨r.worker, k⟩) ∧
    p.slot? r.worker.index k = some ⟨Id.ofNat i, r.unit, r.nextSeq⟩
  /-- What is at a place is the unit whose route leads there. -/
  slot : ∀ {w k x}, p.slot? w k = some x → ∃ r, us[x.id.index]? = some (some r) ∧
    r.worker.index = w ∧ x = ⟨x.id, r.unit, r.nextSeq⟩ ∧ p.routes[x.id.index]? = some (some ⟨r.worker, k⟩)

/-- What is at a place after a unit has been placed. -/
lemma slot?_add {p : Placement U} {r : Registered U} (hr : r.worker.index < p.slots.size)
    (w k : Nat) : (p.add (some r)).slot? w k =
      if w = r.worker.index ∧ k = (p.slots[r.worker.index]).size then
        some ⟨Id.ofNat p.routes.size, r.unit, r.nextSeq⟩
      else p.slot? w k := by
  have hget : p.slots[r.worker.index]? = some p.slots[r.worker.index] := Array.getElem?_eq_getElem hr
  simp only [slot?, add, Array.getElem?_modify]
  by_cases hw : r.worker.index = w
  · subst hw
    rw [if_pos rfl, hget]
    simp [Array.getElem?_push]
  · rw [if_neg hw, if_neg fun h => hw h.1.symm]

/-- An entry of a list that has been lengthened is an old one or the last. -/
lemma getElem?_concat_cases {α : Type} {xs : List α} {x y : α} {i : Nat} (h : (xs ++ [x])[i]? = some y) :
    xs[i]? = some y ∨ i = xs.length ∧ y = x := by
  rw [List.getElem?_append] at h
  split at h
  · exact Or.inl h
  · rename_i hi
    obtain ⟨hi', rfl⟩ := List.getElem?_eq_some_iff.1 h
    simp only [List.length_singleton] at hi'
    exact Or.inr ⟨by omega, by simp⟩

/-- An entry stays where it is when the array gets longer. -/
lemma getElem?_push_of_eq_some {α : Type} {xs : Array α} {x y : α} {i : Nat} (h : xs[i]? = some y) :
    (xs.push x)[i]? = some y := by
  rw [Array.getElem?_push, if_neg, h]
  exact Nat.ne_of_lt (Array.getElem?_eq_some_iff.1 h).1

namespace Describes

variable {p : Placement U} {us : List (Option (Registered U))} {workers : Nat}
  (hp : p.Describes us workers)

include hp

/-- The distribution stays described when the next number is vacant. -/
lemma add_none : (p.add none).Describes (us ++ [none]) workers where
  size_routes := by simp [Placement.add, hp.size_routes]
  size_slots := hp.size_slots
  vacant h := by
    rcases getElem?_concat_cases h with h | ⟨rfl, _⟩
    · exact getElem?_push_of_eq_some (hp.vacant h)
    · simp [Placement.add, ← hp.size_routes]
  occupied h := by
    rcases getElem?_concat_cases h with h | ⟨_, h⟩
    · obtain ⟨k, hk, hx⟩ := hp.occupied h
      exact ⟨k, getElem?_push_of_eq_some hk, hx⟩
    · cases h
  slot h := by
    obtain ⟨r, hr, hw, hx, hk⟩ := hp.slot h
    refine ⟨r, ?_, hw, hx, getElem?_push_of_eq_some hk⟩
    rw [List.getElem?_append_left (List.getElem?_eq_some_iff.1 hr).1, hr]

variable {r : Registered U}

/-- The route of a unit leads to the end of the list of its worker. -/
lemma route_add (hslots : r.worker.index < p.slots.size) :
    (p.add (some r)).routes[us.length]? =
      some (some ⟨r.worker, (p.slots[r.worker.index]).size⟩) := by
  have hplace : (p.slots[r.worker.index]?.getD #[]).size = (p.slots[r.worker.index]).size := by
    rw [Array.getElem?_eq_getElem hslots, Option.getD_some]
  rw [← hplace, ← hp.size_routes]
  simp [Placement.add]

/-- The distribution stays described when the next unit is placed. -/
lemma add_some (hr : r.worker.index < workers) (hlt : us.length < UInt32.size) :
    (p.add (some r)).Describes (us ++ [some r]) workers := by
  have hslots : r.worker.index < p.slots.size := hp.size_slots ▸ hr
  have hindex : (Id.ofNat p.routes.size : UnitId).index = us.length := by
    rw [hp.size_routes]
    exact Nat.mod_eq_of_lt hlt
  have hlast := hp.route_add hslots
  -- a place that was filled before is not the new one
  have hkeep : ∀ {w k x}, p.slot? w k = some x → (p.add (some r)).slot? w k = some x := by
    intro w k x hx
    rw [slot?_add hslots, if_neg, hx]
    rintro ⟨rfl, rfl⟩
    simp [slot?, Array.getElem?_eq_getElem hslots] at hx
  refine ⟨by simp [Placement.add, hp.size_routes], by simp [Placement.add, hp.size_slots],
    fun h => ?_, fun h => ?_, fun {w k x} h => ?_⟩
  · rcases getElem?_concat_cases h with h | ⟨_, h⟩
    · exact getElem?_push_of_eq_some (hp.vacant h)
    · cases h
  · rcases getElem?_concat_cases h with h' | ⟨rfl, h'⟩
    · obtain ⟨k, hk, hx⟩ := hp.occupied h'
      exact ⟨k, getElem?_push_of_eq_some hk, hkeep hx⟩
    · obtain rfl := Option.some.inj h'
      refine ⟨_, hlast, ?_⟩
      rw [slot?_add hslots, if_pos ⟨rfl, rfl⟩, hp.size_routes]
  · rw [slot?_add hslots] at h
    split at h
    · rename_i hwk
      obtain ⟨rfl, rfl⟩ := hwk
      cases h
      rw [hindex]
      exact ⟨r, by simp, rfl, rfl, hlast⟩
    · obtain ⟨r', hr', hw, hx, hk⟩ := hp.slot h
      refine ⟨r', ?_, hw, hx, getElem?_push_of_eq_some hk⟩
      rw [List.getElem?_append_left (List.getElem?_eq_some_iff.1 hr').1, hr']

end Describes

/-- **The distribution of units describes them**, if they are pinned to workers that are there. -/
theorem describes_ofUnits {units : Array (Option (Registered U))} {workers : Nat}
    (hlt : units.size < UInt32.size)
    (hu : ∀ r, some r ∈ units.toList → r.worker.index < workers) :
    (ofUnits units workers).Describes units.toList workers := by
  rw [ofUnits, ← Array.foldl_toList]
  replace hlt : units.toList.length < UInt32.size := by simpa using hlt
  generalize units.toList = us at hlt hu
  induction us using List.reverseRecOn with
  | nil =>
    refine ⟨rfl, by simp, fun h => by simp at h, fun h => by simp at h, fun {w k x} h => ?_⟩
    obtain ⟨xs, hxs, hx⟩ := Option.bind_eq_some_iff.1 h
    simp only [List.foldl_nil, Array.getElem?_replicate] at hxs
    split at hxs
    · cases hxs
      simp at hx
    · cases hxs
  | append_singleton us u ih =>
    rw [List.length_append, List.length_singleton] at hlt
    rw [List.foldl_append, List.foldl_cons, List.foldl_nil]
    have hus := ih (by omega) fun r hr => hu r (List.mem_append_left _ hr)
    cases u with
    | none => exact hus.add_none
    | some r =>
      exact hus.add_some (hu r (List.mem_append_right _ (List.mem_singleton_self _))) (by omega)

end Placement

/-! ## The distribution for a run -/

namespace Scheduler

variable {P : Type} {s : Scheduler U P} {u : UnitId} {r : Registered U} {w k : Nat} {x : Slot U}

/-- The distribution of the units when a run begins. -/
def placement (s : Scheduler U P) : Placement U := Placement.ofUnits s.units s.config.workers

/-- The routing table when a run begins. -/
def table (s : Scheduler U P) : RoutingTable := ⟨s.placement.routes⟩

namespace Sound

/-- Whatever is registered is pinned to a worker that is there. -/
lemma worker_lt_of_mem (hs : s.Sound) {r : Registered U} (hr : some r ∈ s.units.toList) :
    r.worker.index < s.config.workers := by
  obtain ⟨i, hi⟩ := List.getElem?_of_mem hr
  rw [Array.getElem?_toList] at hi
  have hlt : i < IdKind.unit.capacity := Nat.lt_trans (Array.getElem?_eq_some_iff.1 hi).1 hs.units_lt
  exact hs.worker_lt ⟨i, hlt⟩ r (by rw [registered?_eq, hi]; rfl)

lemma describes (hs : s.Sound) : s.placement.Describes s.units.toList s.config.workers :=
  Placement.describes_ofUnits hs.units_lt fun _ => hs.worker_lt_of_mem

/-- Every registered unit has a route to its place. -/
lemma exists_route (hs : s.Sound) (hu : s.registered? u = some r) :
    ∃ k, s.table.route? u = some ⟨r.worker, k⟩ ∧
      s.placement.slot? r.worker.index k = some ⟨u, r.unit, r.nextSeq⟩ := by
  rw [registered?_eq, Option.join_eq_some_iff, ← Array.getElem?_toList] at hu
  obtain ⟨k, hk, hx⟩ := hs.describes.occupied hu
  have hid : Id.ofNat u.index = u := Id.ext_index (Nat.mod_eq_of_lt u.index_lt)
  rw [hid] at hx
  exact ⟨k, by rw [RoutingTable.route?, table, hk]; rfl, hx⟩

/-- What is at a place is a registered unit whose route leads there. -/
lemma of_slot (hs : s.Sound) (hx : s.placement.slot? w k = some x) :
    ∃ r, s.registered? x.id = some r ∧ r.worker.index = w ∧ x = ⟨x.id, r.unit, r.nextSeq⟩ ∧
      s.table.route? x.id = some ⟨r.worker, k⟩ := by
  obtain ⟨r, hr, hw, hxr, hk⟩ := hs.describes.slot hx
  rw [Array.getElem?_toList] at hr
  exact ⟨r, by rw [registered?_eq, hr]; rfl, hw, hxr, by rw [RoutingTable.route?, table, hk]; rfl⟩

/-- Just the registered units have routes. -/
lemma isSome_route? (hs : s.Sound) (u : UnitId) :
    (s.table.route? u).isSome = (s.registered? u).isSome := by
  cases hu : s.registered? u with
  | some r =>
    obtain ⟨k, hk, _⟩ := hs.exists_route hu
    rw [hk]
    rfl
  | none =>
    rw [registered?_eq] at hu
    rw [RoutingTable.route?, table]
    cases hget : s.units[u.index]? with
    | none =>
      have hsize := hs.describes.size_routes
      rw [Array.length_toList] at hsize
      rw [Array.getElem?_eq_none (by rw [hsize]; exact Array.getElem?_eq_none_iff.1 hget)]
      rfl
    | some v =>
      rw [hget] at hu
      obtain rfl : v = none := hu
      rw [← Array.getElem?_toList] at hget
      rw [hs.describes.vacant hget]
      rfl

/-- Every route leads to the place of a registered unit. -/
lemma exists_of_route? (hs : s.Sound) {q : Route} (hq : s.table.route? u = some q) :
    ∃ r, s.registered? u = some r ∧ r.worker = q.worker ∧
      s.placement.slot? q.worker.index q.slot = some ⟨u, r.unit, r.nextSeq⟩ := by
  have hsome := hs.isSome_route? u
  rw [hq] at hsome
  obtain ⟨r, hr⟩ := Option.isSome_iff_exists.1 hsome.symm
  obtain ⟨k, hk, hslot⟩ := hs.exists_route hr
  cases hq.symm.trans hk
  exact ⟨r, hr, rfl, hslot⟩

/-- Every route leads to a worker that is there. -/
lemma owner_lt (hs : s.Sound) {i : Nat} (ho : s.table.owner? u = some i) : i < s.config.workers := by
  obtain ⟨q, hq, rfl⟩ := Option.map_eq_some_iff.1 ho
  obtain ⟨r, hr, hworker, _⟩ := hs.exists_of_route? hq
  exact hworker ▸ hs.worker_lt u r hr

end Sound

end Scheduler

end EventSim
