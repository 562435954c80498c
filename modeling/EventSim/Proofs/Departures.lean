import EventSim.Traffic.Population
import Mathlib.Data.List.Nodup
import Mathlib.Data.List.Perm.Basic

set_option autoImplicit false

/-!
# Departures

The vehicles of a population are entered into groups one after another, each into the group of the link that its route
begins with. In the end every link from which vehicles depart has one group, and those are its vehicles, in the order of
the population. To take the group of one link away changes no other group.

## Main definitions

* `EventSim.Departures.group` — the vehicles in the group of a link.
* `EventSim.Departures.Tidy` — groups that are not empty, one for each link.
* `EventSim.Population.departingFrom` — the vehicles that depart from a link.
* `EventSim.Population.GroupsDepartures` — every vehicle is in the group of the link that it departs from.

## Main results

* `EventSim.Departures.group_enter`, `EventSim.Departures.group_remove_of_ne` — what becomes of a group when a vehicle is
  entered and when a group is taken away.
* `EventSim.Population.group_departures` — the group of a link.
* `EventSim.Population.groupsDepartures` — the groups of a population.
-/

namespace EventSim

/-! ## Groups -/

namespace Departures

variable {groups : Departures} {l k : LinkId} {v : VehicleId} {vs : List VehicleId}

/-- The vehicles in the group of a link. -/
def group (l : LinkId) : Departures → List VehicleId
  | [] => []
  | (k, vs) :: groups => if k = l then vs else group l groups

/-- No link has two groups, and no group is empty. -/
structure Tidy (groups : Departures) : Prop where
  /-- No link is listed twice. -/
  nodup : (groups.map (·.1)).Nodup
  /-- Only links with vehicles are listed. -/
  ne_nil : ∀ x ∈ groups, x.2 ≠ []

@[simp] lemma group_cons_self (l : LinkId) (vs : List VehicleId) (groups : Departures) :
    group l ((l, vs) :: groups) = vs := if_pos rfl

lemma group_cons_of_ne (h : k ≠ l) : group l ((k, vs) :: groups) = group l groups := if_neg h

/-- Only links that are listed have vehicles. -/
lemma group_of_not_mem (h : l ∉ groups.map (·.1)) : group l groups = [] := by
  induction groups with
  | nil => rfl
  | cons x groups ih =>
    rw [List.map_cons, List.mem_cons, not_or] at h
    exact (group_cons_of_ne (Ne.symm h.1)).trans (ih h.2)

/-- The groups are found by their links. -/
lemma Tidy.mem_iff (h : groups.Tidy) : (l, vs) ∈ groups ↔ vs = group l groups ∧ vs ≠ [] := by
  obtain ⟨hnodup, hne⟩ := h
  induction groups with
  | nil => exact iff_of_false List.not_mem_nil fun ⟨heq, hvs⟩ => hvs heq
  | cons x groups ih =>
    obtain ⟨k, ws⟩ := x
    obtain ⟨hk, hnodup⟩ := List.nodup_cons.1 hnodup
    obtain ⟨hws, hne⟩ := List.forall_mem_cons.1 hne
    rw [List.mem_cons, ih hnodup hne, Prod.mk.injEq]
    by_cases hkl : k = l
    · subst hkl
      rw [group_cons_self, group_of_not_mem hk]
      constructor
      · rintro (⟨-, rfl⟩ | ⟨rfl, hvs⟩)
        · exact ⟨rfl, hws⟩
        · exact absurd rfl hvs
      · rintro ⟨rfl, -⟩
        exact Or.inl ⟨rfl, rfl⟩
    · rw [group_cons_of_ne hkl]
      exact or_iff_right fun heq => hkl heq.1.symm

/-! ### Vehicles that are entered -/

/-- **A vehicle that is entered comes last in its group**, and no other group changes. -/
theorem group_enter (l : LinkId) (v : VehicleId) (groups : Departures) :
    group k (groups.enter l v) = if l = k then group k groups ++ [v] else group k groups := by
  induction groups with
  | nil => rfl
  | cons x groups ih =>
    obtain ⟨j, vs⟩ := x
    rw [enter]
    by_cases hj : j = l
    · subst hj
      rw [if_pos rfl, group, group]
      split <;> rfl
    · rw [if_neg hj, group, group, ih]
      by_cases hjk : j = k
      · rw [if_pos hjk, if_pos hjk, if_neg fun hlk => hj (hjk.trans hlk.symm)]
      · rw [if_neg hjk, if_neg hjk]

/-- The link of a vehicle that is entered is listed from then on. -/
lemma mem_links_enter (l : LinkId) (v : VehicleId) (groups : Departures) :
    k ∈ (groups.enter l v).map (·.1) ↔ k = l ∨ k ∈ groups.map (·.1) := by
  induction groups with
  | nil => simp [enter]
  | cons x groups ih =>
    obtain ⟨j, vs⟩ := x
    rw [enter]
    split
    · rename_i hj
      simp [hj]
    · simp only [List.map_cons, List.mem_cons, ih]
      exact or_left_comm

lemma Tidy.enter (h : groups.Tidy) (l : LinkId) (v : VehicleId) : (groups.enter l v).Tidy := by
  obtain ⟨hnodup, hne⟩ := h
  induction groups with
  | nil => exact ⟨List.nodup_singleton l, by simp [Departures.enter]⟩
  | cons x groups ih =>
    obtain ⟨j, vs⟩ := x
    obtain ⟨hj, hnodup'⟩ := List.nodup_cons.1 hnodup
    obtain ⟨hvs, hne⟩ := List.forall_mem_cons.1 hne
    obtain ⟨hnodup', hne'⟩ := ih hnodup' hne
    rw [Departures.enter]
    split
    · exact ⟨hnodup, List.forall_mem_cons.2 ⟨by simp, hne⟩⟩
    · rename_i hjl
      refine ⟨List.nodup_cons.2 ⟨fun hmem => ?_, hnodup'⟩, List.forall_mem_cons.2 ⟨hvs, hne'⟩⟩
      exact ((mem_links_enter l v groups).1 hmem).elim hjl hj

/-- A vehicle that is entered is in one group. -/
lemma perm_enter (l : LinkId) (v : VehicleId) (groups : Departures) :
    ((groups.enter l v).flatMap (·.2)).Perm (groups.flatMap (·.2) ++ [v]) := by
  induction groups with
  | nil => exact List.Perm.refl _
  | cons x groups ih =>
    obtain ⟨j, vs⟩ := x
    rw [enter]
    split
    · rw [List.flatMap_cons, List.flatMap_cons, List.append_assoc, List.append_assoc]
      exact List.perm_append_comm.append_left vs
    · rw [List.flatMap_cons, List.flatMap_cons, List.append_assoc]
      exact ih.append_left vs

/-! ### Groups that are taken away -/

/-- What is taken away is the group of the link. -/
lemma remove_fst (l : LinkId) (groups : Departures) : (groups.remove l).1 = group l groups := by
  induction groups with
  | nil => rfl
  | cons x groups ih =>
    rw [remove, group]
    split
    · rfl
    · exact ih

/-- The other groups stay as they are. -/
lemma group_remove_of_ne (h : l ≠ k) : group k (groups.remove l).2 = group k groups := by
  induction groups with
  | nil => rfl
  | cons x groups ih =>
    obtain ⟨j, vs⟩ := x
    rw [remove]
    split
    · rename_i hj
      exact (group_cons_of_ne (hj ▸ h)).symm
    · rw [group, group, ih]

end Departures

/-! ## The groups of a population -/

namespace Population

open Departures

variable {p : Population} {l : LinkId}

/-- The vehicles that depart from a link. -/
def departingFrom (p : Population) (l : LinkId) : List VehicleId :=
  (p.vehicles.toList.filter (·.route.head? = some l)).map (·.id)

/-- Enters a vehicle into the group of the link that its route begins with. A vehicle without a route is in no group. -/
private def enterVehicle (groups : Departures) (v : Vehicle) : Departures :=
  match v.route with
  | [] => groups
  | l :: _ => groups.enter l v.id

private lemma departures_eq (p : Population) : p.departures = p.vehicles.toList.foldl enterVehicle [] := rfl

private lemma group_foldl (vs : List Vehicle) (groups : Departures) : group l (vs.foldl enterVehicle groups) =
    group l groups ++ (vs.filter (·.route.head? = some l)).map (·.id) := by
  induction vs generalizing groups with
  | nil => exact (List.append_nil _).symm
  | cons v vs ih =>
    rw [List.foldl_cons, ih, enterVehicle, List.filter_cons]
    cases v.route with
    | nil => rfl
    | cons k route =>
      simp only [List.head?_cons, Option.some.injEq, decide_eq_true_eq, group_enter]
      split
      · rw [List.map_cons, List.append_assoc]
        rfl
      · rfl

/-- **The group of a link** are the vehicles that depart from it, in the order of the population. -/
theorem group_departures (p : Population) (l : LinkId) : group l p.departures = p.departingFrom l :=
  (group_foldl p.vehicles.toList []).trans (List.nil_append _)

private lemma tidy_foldl (vs : List Vehicle) {groups : Departures} (h : groups.Tidy) :
    Tidy (vs.foldl enterVehicle groups) := by
  induction vs generalizing groups with
  | nil => exact h
  | cons v vs ih =>
    rw [List.foldl_cons, enterVehicle]
    cases v.route with
    | nil => exact ih h
    | cons l route => exact ih (h.enter l v.id)

/-- No link has two groups, and no group is empty. -/
lemma tidy_departures (p : Population) : p.departures.Tidy :=
  tidy_foldl _ ⟨List.nodup_nil, List.forall_mem_nil _⟩

private lemma perm_foldl {vs : List Vehicle} (h : ∀ v ∈ vs, v.route ≠ []) (groups : Departures) :
    ((vs.foldl enterVehicle groups).flatMap (·.2)).Perm (groups.flatMap (·.2) ++ vs.map (·.id)) := by
  induction vs generalizing groups with
  | nil => rw [List.map_nil, List.append_nil, List.foldl_nil]
  | cons v vs ih =>
    obtain ⟨hv, hvs⟩ := List.forall_mem_cons.1 h
    rw [List.foldl_cons, List.map_cons, List.append_cons]
    refine (ih hvs _).trans (List.Perm.append_right _ ?_)
    rw [enterVehicle]
    cases hroute : v.route with
    | nil => exact absurd hroute hv
    | cons l route => exact perm_enter l v.id groups

/-- Every vehicle departs from the first link of its route, and those that depart from one link are in order. -/
structure GroupsDepartures (p : Population) : Prop where
  /-- No link is listed twice. -/
  nodup : (p.departures.map (·.1)).Nodup
  /-- A link is listed with the vehicles whose routes begin there, in the order of the population, if there are any. -/
  mem_iff : ∀ (l : LinkId) (vs : List VehicleId), (l, vs) ∈ p.departures ↔
    vs = (p.vehicles.toList.filter (·.route.head? = some l)).map (·.id) ∧ vs ≠ []
  /-- Every vehicle is listed once. -/
  perm : (p.departures.flatMap (·.2)).Perm (p.vehicles.toList.map (·.id))

/-- **Every vehicle is in the group of the link that it departs from**, in every population whose routes are not empty.

**Proof sketch.** Induction on the vehicles that are entered: one more comes last in the group of its link
(`Departures.group_enter`), and links are listed once (`Departures.Tidy.enter`). -/
theorem groupsDepartures (h : ∀ vehicle ∈ p.vehicles.toList, vehicle.route ≠ []) : p.GroupsDepartures where
  nodup := p.tidy_departures.nodup
  mem_iff l vs := by
    rw [p.tidy_departures.mem_iff, p.group_departures]
    rfl
  perm := perm_foldl h []

end Population

end EventSim
