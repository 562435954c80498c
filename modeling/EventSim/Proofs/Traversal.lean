import Mathlib.Data.List.Basic

set_option autoImplicit false

/-!
# Computations on all elements of a list

A computation that may fail is carried out on the elements of a list one after another. It succeeds on the list just if
it succeeds on every element; otherwise the first element on which it fails decides how it fails.

## Main results

* `EventSim.mapM_eq_ok_iff` — when a computation has results for all elements.
* `EventSim.forM_eq_ok_iff`, `EventSim.forM_eq_error_iff` — when a check passes for all elements, and how it fails.
-/

namespace EventSim

/-! ## Computations with results -/

/-- A computation succeeds on all elements just if it succeeds on each of them. -/
lemma mapM_eq_ok_iff {α β ε : Type} {f : α → Except ε β} {xs : List α} {ys : List β} :
    xs.mapM f = .ok ys ↔ xs.map f = ys.map .ok := by
  induction xs generalizing ys with
  | nil => cases ys <;> simp [pure, Except.pure]
  | cons x xs ih =>
    rw [List.mapM_cons]
    cases hx : f x with
    | error e => cases ys <;> simp [bind, Except.bind, hx]
    | ok y =>
      cases hxs : xs.mapM f with
      | error e =>
        apply iff_of_false (by simp [bind, Except.bind])
        intro h
        cases ys with
        | nil => simp at h
        | cons z zs =>
          have hrest := ih.2 (List.cons.inj h).2
          cases hxs.symm.trans hrest
      | ok zs =>
        have hzs := ih.1 hxs
        have hinj : ∀ ws : List β, zs.map (Except.ok : β → Except ε β) = ws.map .ok ↔ zs = ws := fun ws =>
          (List.map_injective_iff.2 fun _ _ h => Except.ok.inj h).eq_iff
        cases ys <;> simp [bind, Except.bind, pure, Except.pure, hx, hzs, hinj]

/-- If a computation succeeds on all elements, each element has its result. -/
lemma exists_of_mapM_eq_ok {α β ε : Type} {f : α → Except ε β} {xs : List α} {ys : List β}
    (h : xs.mapM f = .ok ys) {i : Nat} {x : α} (hx : xs[i]? = some x) : ∃ y, ys[i]? = some y ∧ f x = .ok y := by
  have hi := congrArg (·[i]?) (mapM_eq_ok_iff.1 h)
  rw [List.getElem?_map, List.getElem?_map, hx, Option.map_some] at hi
  obtain ⟨y, hy, hok⟩ := Option.map_eq_some_iff.1 hi.symm
  exact ⟨y, hy, hok.symm⟩

/-- What the results of a computation have in common with the elements. -/
lemma map_eq_of_mapM_eq_ok {α β γ ε : Type} {f : α → Except ε β} {g : β → γ} {g' : α → γ}
    (hf : ∀ x y, f x = .ok y → g y = g' x) {xs : List α} {ys : List β} (h : xs.mapM f = .ok ys) :
    ys.map g = xs.map g' := by
  rw [mapM_eq_ok_iff] at h
  induction xs generalizing ys with
  | nil =>
    rw [List.map_nil, eq_comm, List.map_eq_nil_iff] at h
    rw [h]
    rfl
  | cons x xs ih =>
    cases ys with
    | nil => cases h
    | cons y ys =>
      obtain ⟨hx, hxs⟩ := List.cons.inj h
      rw [List.map_cons, List.map_cons, hf x y hx, ih hxs]

/-! ## Checks -/

variable {α ε : Type} {f : α → Except ε Unit} {xs : List α}

/-- A check of all elements of a list passes just if it passes for each of them. -/
lemma forM_eq_ok_iff : xs.forM f = .ok () ↔ ∀ x ∈ xs, f x = .ok () := by
  induction xs with
  | nil => simp [pure, Except.pure]
  | cons x xs ih =>
    rw [List.forall_mem_cons, ← ih, List.forM]
    cases f x <;> simp [bind, Except.bind]

/-- **A check of all elements fails** as it does for the first element for which it fails. -/
theorem forM_eq_error_iff {e : ε} : xs.forM f = .error e ↔
    ∃ before x after, xs = before ++ x :: after ∧ (∀ y ∈ before, f y = .ok ()) ∧ f x = .error e := by
  induction xs with
  | nil => simp [pure, Except.pure]
  | cons x xs ih =>
    rw [List.forM]
    cases hx : f x with
    | error e' =>
      constructor
      · intro h
        exact ⟨[], x, xs, rfl, fun _ hy => absurd hy List.not_mem_nil, hx.trans h⟩
      · rintro ⟨before, y, after, heq, hbefore, hy⟩
        cases before with
        | nil =>
          obtain ⟨rfl, -⟩ := List.cons.inj heq
          exact hx.symm.trans hy
        | cons z zs =>
          obtain ⟨rfl, -⟩ := List.cons.inj heq
          cases hx.symm.trans (hbefore x List.mem_cons_self)
    | ok u =>
      change xs.forM f = .error e ↔ _
      rw [ih]
      constructor
      · rintro ⟨before, y, after, rfl, hbefore, hy⟩
        exact ⟨x :: before, y, after, rfl, List.forall_mem_cons.2 ⟨hx, hbefore⟩, hy⟩
      · rintro ⟨before, y, after, heq, hbefore, hy⟩
        cases before with
        | nil =>
          obtain ⟨rfl, -⟩ := List.cons.inj heq
          cases hx.symm.trans hy
        | cons z zs =>
          obtain ⟨rfl, rfl⟩ := List.cons.inj heq
          exact ⟨zs, y, after, rfl, (List.forall_mem_cons.1 hbefore).2, hy⟩

end EventSim
