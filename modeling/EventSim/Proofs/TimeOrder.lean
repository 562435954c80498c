import EventSim.RunConfig
import Mathlib.Order.MinMax
import Mathlib.Tactic.Lemma

set_option autoImplicit false

/-!
# Times as a linear order

Times are compared by their rank, so they form a linear order in the sense of the order library, and the
earliest of some times is their least element.

## Main results

* `EventSim.SimTime.instLinearOrder` — times are linearly ordered.
* `EventSim.SimTime.earliest?_eq_some_iff` — the earliest time is the least one.
* `EventSim.SimTime.earliest?_congr` — it depends only on which times there are.
* `EventSim.SimTime.earliest?_filterMap` — it can be found group by group.
* `EventSim.RunConfig.le_deliveryLimit_iff` — what is due in a round.
-/

namespace EventSim

namespace SimTime

lemma le_refl (a : SimTime) : a ≤ a := le_def.2 (UInt64.le_refl _)

lemma le_trans {a b c : SimTime} (hab : a ≤ b) (hbc : b ≤ c) : a ≤ c := by
  rw [le_iff_toNat] at *; omega

/-- Times are linearly ordered by rank. -/
instance instLinearOrder : LinearOrder SimTime where
  le_refl := le_refl
  le_trans _ _ _ := le_trans
  lt_iff_le_not_ge a b := by rw [lt_iff_toNat, le_iff_toNat, le_iff_toNat]; omega
  le_antisymm a b hab hba := rank_inj (by rw [le_iff_toNat] at hab hba; omega)
  le_total a b := by rw [le_iff_toNat, le_iff_toNat]; omega
  toDecidableLE := inferInstance
  toDecidableEq := inferInstance
  toDecidableLT := inferInstance
  min_def a b := by
    change (if b < a then b else a) = if a ≤ b then a else b
    by_cases h : b < a
    · rw [if_pos h, if_neg (fun hle => le_iff_not_lt.1 hle h)]
    · rw [if_neg h, if_pos (le_iff_not_lt.2 h)]
  max_def a b := by
    change (if a < b then b else a) = if a ≤ b then b else a
    by_cases h : a < b
    · rw [if_pos h, if_pos (by rw [le_iff_toNat]; rw [lt_iff_toNat] at h; omega)]
    · by_cases hab : a ≤ b
      · rw [if_neg h, if_pos hab]
        exact rank_inj (by rw [le_iff_toNat] at hab; rw [lt_iff_toNat] at h; omega)
      · rw [if_neg h, if_neg hab]
  compare_eq_compareOfLessAndEq _ _ := rfl

/-! ## The earliest of some times -/

/-- Folding `min` over times gives one of them, or the time that it begins with. -/
lemma foldl_min_mem (t : SimTime) (ts : List SimTime) : ts.foldl min t ∈ t :: ts := by
  induction ts generalizing t with
  | nil => exact List.mem_cons_self
  | cons s ts ih =>
    rcases List.mem_cons.1 (ih (min t s)) with h | h
    · rcases min_choice t s with hm | hm
      · exact List.mem_cons.2 (Or.inl (h.trans hm))
      · exact List.mem_cons_of_mem _ (List.mem_cons.2 (Or.inl (h.trans hm)))
    · exact List.mem_cons_of_mem _ (List.mem_cons_of_mem _ h)

/-- Folding `min` over times gives a lower bound. -/
lemma foldl_min_le (t : SimTime) (ts : List SimTime) : ∀ x ∈ t :: ts, ts.foldl min t ≤ x := by
  induction ts generalizing t with
  | nil =>
    intro x hx
    rw [List.mem_singleton.1 hx]
    exact le_refl t
  | cons s ts ih =>
    have hmin := ih (min t s) _ List.mem_cons_self
    intro x hx
    rcases List.mem_cons.1 hx with rfl | hx
    · exact le_trans hmin (min_le_left _ _)
    · rcases List.mem_cons.1 hx with rfl | hx
      · exact le_trans hmin (min_le_right _ _)
      · exact ih _ _ (List.mem_cons_of_mem _ hx)

/-- The earliest of some times is the least of them. -/
lemma earliest?_eq_some_iff {ts : List SimTime} {t : SimTime} :
    earliest? ts = some t ↔ t ∈ ts ∧ ∀ x ∈ ts, t ≤ x := by
  cases ts with
  | nil => simp [earliest?]
  | cons s ts =>
    simp only [earliest?, Option.some.injEq]
    constructor
    · rintro rfl
      exact ⟨foldl_min_mem s ts, foldl_min_le s ts⟩
    · rintro ⟨hmem, hle⟩
      exact le_antisymm (foldl_min_le s ts t hmem) (hle _ (foldl_min_mem s ts))

/-- There is an earliest time unless there is no time. -/
lemma earliest?_eq_none_iff {ts : List SimTime} : earliest? ts = none ↔ ts = [] := by
  cases ts <;> simp [earliest?]

/-- Times that are no earlier than some others do not change the earliest of those. -/
lemma earliest?_eq_of_subset {ts us : List SimTime} (hsub : ts ⊆ us)
    (hlow : ∀ u ∈ us, ∃ t ∈ ts, t ≤ u) : earliest? ts = earliest? us := by
  cases ht : earliest? ts with
  | none =>
    rw [earliest?_eq_none_iff] at ht
    rw [eq_comm, earliest?_eq_none_iff]
    apply List.eq_nil_iff_forall_not_mem.2
    intro u hu
    obtain ⟨t, hmem, _⟩ := hlow u hu
    simp [ht] at hmem
  | some t =>
    obtain ⟨hmem, hle⟩ := earliest?_eq_some_iff.1 ht
    refine (earliest?_eq_some_iff.2 ⟨hsub hmem, fun u hu => ?_⟩).symm
    obtain ⟨x, hx, hxu⟩ := hlow u hu
    exact le_trans (hle x hx) hxu

/-- The earliest time depends only on which times there are. -/
lemma earliest?_congr {ts us : List SimTime} (h : ∀ x, x ∈ ts ↔ x ∈ us) :
    earliest? ts = earliest? us :=
  earliest?_eq_of_subset (fun _ hx => (h _).1 hx) fun u hu => ⟨u, (h u).2 hu, le_refl u⟩

/-- The earliest time can be found group by group. -/
lemma earliest?_filterMap {α : Type} (f : α → List SimTime) (xs : List α) :
    earliest? (xs.filterMap fun x => earliest? (f x)) = earliest? (xs.flatMap f) := by
  refine earliest?_eq_of_subset (fun t ht => ?_) fun u hu => ?_
  · obtain ⟨x, hx, ht⟩ := List.mem_filterMap.1 ht
    exact List.mem_flatMap.2 ⟨x, hx, (earliest?_eq_some_iff.1 ht).1⟩
  · obtain ⟨x, hx, hu⟩ := List.mem_flatMap.1 hu
    cases ht : earliest? (f x) with
    | none => simp [earliest?_eq_none_iff.1 ht] at hu
    | some t =>
      exact ⟨t, List.mem_filterMap.2 ⟨x, hx, ht⟩, (earliest?_eq_some_iff.1 ht).2 u hu⟩

/-- The earliest time of two groups. -/
lemma earliest?_append (ts us : List SimTime) :
    earliest? (ts ++ us) = earliest? ((earliest? ts).toList ++ (earliest? us).toList) := by
  have hgroups := earliest?_filterMap id [ts, us]
  simp only [List.flatMap_cons, List.flatMap_nil, List.append_nil, id_eq] at hgroups
  rw [← hgroups]
  cases ht : earliest? ts <;> cases hu : earliest? us <;> simp [ht, hu]

/-- At most one time is the earliest of itself. -/
@[simp] lemma earliest?_toList (t : Option SimTime) : earliest? t.toList = t := by cases t <;> rfl

end SimTime

/-! ## What is due in a round -/

namespace RunConfig

variable {c : RunConfig} {horizon t : SimTime}

/-- A time is due if it is within the horizon and not after the end. -/
lemma le_deliveryLimit_iff :
    t ≤ c.deliveryLimit horizon ↔ t ≤ horizon ∧ ∀ finish ∈ c.endTime, t ≤ finish := by
  unfold deliveryLimit
  cases c.endTime with
  | none => simp
  | some finish => simp

/-- Unless the end is passed, everything within the horizon is due. -/
lemma deliveryLimit_eq_of_reachedEnd_eq_false (h : c.reachedEnd horizon = false) :
    c.deliveryLimit horizon = horizon := by
  rw [reachedEnd] at h
  rw [deliveryLimit]
  cases hend : c.endTime with
  | none => rfl
  | some finish =>
    rw [hend] at h
    exact min_eq_left (not_lt.1 (of_decide_eq_false h))

end RunConfig

end EventSim
