import EventSim.Network.Path
import Mathlib.Logic.Relation
import Mathlib.Order.WellFounded

set_option autoImplicit false

/-!
# The search, turn by turn

In one turn, a search takes the cheapest node off its frontier. A node that has been reached at less cost since it was
put there is passed over; from any other node all links are followed. Every turn lowers the potential of the search, so
there is no endless sequence of turns, and a search runs until its target is the cheapest node or its frontier is empty.

When the target has been found, the way back to where the search began is gone link by link, as long as the search has
arrived at a node by some link.

## Main definitions

* `EventSim.Search.Turn` — one turn of a search.
* `EventSim.Search.Found` — the target is the cheapest node of the frontier.
* `EventSim.Search.Retraces` — the links of the whole way back from a node.
* `EventSim.Search.lower` — what is noted when a node is reached at less cost.

## Main results

* `EventSim.Search.wellFounded_turn` — there is no endless sequence of turns.
* `EventSim.Search.exists_turns` — a search runs until it cannot take another turn.
* `EventSim.Search.Retraces.trace_eq` — the bound on the way back does not cut it off.
* `EventSim.Search.follow_eq` — what it means to follow a link.
-/

namespace EventSim.Search

variable {n : Network} {s t : Search} {target cost node : Nat} {rest : List (Nat × Nat)}

/-! ## Turns -/

/-- One turn of a search for a node. -/
inductive Turn (n : Network) (target : Nat) : Search → Search → Prop
  /-- The node has been reached at less cost since it was put into the frontier. -/
  | pass {s : Search} {cost node : Nat} {rest : List (Nat × Nat)} (hs : s.frontier = (cost, node) :: rest)
    (hne : node ≠ target) (hlt : s.costAt node < cost) : Turn n target s { s with frontier := rest }
  /-- All links that leave the node are followed. -/
  | expand {s : Search} {cost node : Nat} {rest : List (Nat × Nat)} (hs : s.frontier = (cost, node) :: rest)
    (hne : node ≠ target) (hle : cost ≤ s.costAt node) :
    Turn n target s (followAll n cost { s with frontier := rest } (n.outLinks (Id.ofNat node)))

/-- The target is the cheapest node of the frontier. -/
def Found (target : Nat) (s : Search) : Prop := ∃ cost rest, s.frontier = (cost, target) :: rest

/-- What has been taken off the frontier does not count any more. -/
lemma potential_lt_of_frontier (hs : s.frontier = (cost, node) :: rest) :
    { s with frontier := rest }.potential < s.potential := by
  simp only [potential, hs, List.length_cons]
  omega

/-- A turn lowers the potential. -/
lemma Turn.potential_lt (h : Turn n target s t) : t.potential < s.potential := by
  cases h with
  | pass hs => exact potential_lt_of_frontier hs
  | expand hs => exact Nat.lt_of_le_of_lt (potential_followAll_le n _ _ _) (potential_lt_of_frontier hs)

/-- **There is no endless sequence of turns.** -/
theorem wellFounded_turn (n : Network) (target : Nat) : WellFounded fun t s : Search => s.Turn n target t :=
  Subrelation.wf (fun h => h.potential_lt) (measure potential).wf

/-- **A search runs until it cannot take another turn**: either the target is the cheapest node, or no node is left. -/
theorem exists_turns (n : Network) (target : Nat) (s : Search) :
    ∃ t, Relation.ReflTransGen (Turn n target) s t ∧
      (t.Found target ∧ s.run n target = some t ∨ t.frontier = [] ∧ s.run n target = none) := by
  induction s using (wellFounded_turn n target).induction with
  | _ s ih =>
    rw [run.eq_def]
    split
    · rename_i hs
      exact ⟨s, .refl, Or.inr ⟨hs, rfl⟩⟩
    · rename_i cost node rest hs
      split_ifs with hnode hstale
      · exact ⟨s, .refl, Or.inl ⟨⟨cost, rest, hnode ▸ hs⟩, rfl⟩⟩
      · have hturn := Turn.pass (n := n) hs hnode hstale
        obtain ⟨t, ht, hend⟩ := ih _ hturn
        exact ⟨t, .head hturn ht, hend⟩
      · have hturn := Turn.expand (n := n) hs hnode (Nat.not_lt.1 hstale)
        obtain ⟨t, ht, hend⟩ := ih _ hturn
        exact ⟨t, .head hturn ht, hend⟩

/-! ## The way back -/

/-- The whole way back from a node, up to one at which the search has not arrived by a link. The links are given in the
order in which they lead to the node. -/
inductive Retraces (n : Network) (s : Search) : Nat → List LinkId → Prop
  /-- The search has not arrived here by a link. -/
  | stop {node : Nat} (h : s.arrivals[node]?.join = none) : Retraces n s node []
  /-- The way goes on from the node that the link leaves. -/
  | step {node : Nat} {l : LinkId} {link : Link} {links : List LinkId} (h : s.arrivals[node]?.join = some l)
    (hl : n.link? l = some link) (hlinks : Retraces n s link.source.index links) : Retraces n s node (links ++ [l])

/-- **The bound on the way back does not cut it off** if the way has no more links. -/
theorem Retraces.trace_eq {links : List LinkId} (h : s.Retraces n node links) {k : Nat} (hk : links.length ≤ k)
    (after : List LinkId) : s.trace n k node after = links ++ after := by
  induction h generalizing k after with
  | stop h =>
    cases k with
    | zero => rfl
    | succ k => rw [trace, h, List.nil_append]
  | @step node l link links h hl _ ih =>
    rw [List.length_append, List.length_singleton] at hk
    cases k with
    | zero => omega
    | succ k =>
      rw [trace, h]
      dsimp only
      rw [hl]
      exact (ih (Nat.le_of_succ_le_succ hk) (l :: after)).trans (List.append_cons ..)

/-! ## Reaching a node at less cost -/

/-- Notes that a node is reached by a link at some cost. -/
def lower (s : Search) (cost node : Nat) (l : LinkId) : Search where
  costs := s.costs.setIfInBounds node cost
  arrivals := s.arrivals.setIfInBounds node (some l)
  frontier := insertByCost (cost, node) s.frontier

/-- **A link is followed** if it reaches its end at less cost. -/
theorem follow_eq {l : LinkId} {link : Link} (hl : n.link? l = some link) (cost : Nat) (s : Search) :
    s.follow n cost l =
      if min (cost + n.costOf l) Binary64.wordMax < s.costAt link.target.index then
        s.lower (min (cost + n.costOf l) Binary64.wordMax) link.target.index l
      else s := by
  unfold follow
  split
  · rename_i h
    cases hl.symm.trans h
  · rename_i link' costs arrivals frontier h
    cases hl.symm.trans h
    rfl

/-- What an array holds after one of its entries has been set. -/
lemma getElem?_setIfInBounds_of_lt {α : Type} {xs : Array α} {i : Nat} (hi : i < xs.size) (x : α) (j : Nat) :
    (xs.setIfInBounds i x)[j]? = if j = i then some x else xs[j]? := by
  rw [Array.getElem?_setIfInBounds, if_pos hi]
  exact if_congr eq_comm rfl rfl

variable {l : LinkId}

/-- Only the cost of the node that is reached changes. -/
lemma costAt_lower (hnode : node < s.costs.size) (i : Nat) :
    (s.lower cost node l).costAt i = if i = node then cost else s.costAt i := by
  unfold costAt lower
  rw [getElem?_setIfInBounds_of_lt hnode]
  split_ifs <;> rfl

/-- Only the node that is reached is arrived at anew. -/
lemma arrivals_lower (hnode : node < s.arrivals.size) (i : Nat) :
    (s.lower cost node l).arrivals[i]? = if i = node then some (some l) else s.arrivals[i]? :=
  getElem?_setIfInBounds_of_lt hnode (some l) i

lemma mem_insertByCost {a b : Nat × Nat} {bs : List (Nat × Nat)} : b ∈ insertByCost a bs ↔ b = a ∨ b ∈ bs := by
  induction bs with
  | nil => exact List.mem_cons
  | cons c bs ih =>
    unfold insertByCost
    split
    · exact List.mem_cons
    · rw [List.mem_cons, ih, List.mem_cons, or_left_comm]

/-- The frontier stays in the order of costs. -/
lemma pairwise_insertByCost {a : Nat × Nat} {bs : List (Nat × Nat)} (h : bs.Pairwise fun b c => b.1 ≤ c.1) :
    (insertByCost a bs).Pairwise fun b c => b.1 ≤ c.1 := by
  induction bs with
  | nil => exact List.pairwise_singleton _ a
  | cons b bs ih =>
    obtain ⟨hb, hbs⟩ := List.pairwise_cons.1 h
    unfold insertByCost
    split
    · rename_i hbefore
      have hab : a.1 ≤ b.1 := by
        simp only [before, Bool.or_eq_true, Bool.and_eq_true, decide_eq_true_eq, beq_iff_eq] at hbefore
        omega
      refine List.pairwise_cons.2 ⟨fun c hc => ?_, h⟩
      rcases List.mem_cons.1 hc with rfl | hc
      · exact hab
      · exact Nat.le_trans hab (hb c hc)
    · rename_i hbefore
      have hba : b.1 ≤ a.1 := by
        simp only [before, Bool.or_eq_true, Bool.and_eq_true, decide_eq_true_eq, beq_iff_eq] at hbefore
        omega
      refine List.pairwise_cons.2 ⟨fun c hc => ?_, ih hbs⟩
      rcases mem_insertByCost.1 hc with rfl | hc
      · exact hba
      · exact hb c hc

end EventSim.Search
