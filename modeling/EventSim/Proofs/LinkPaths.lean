import EventSim.Network.Path
import Mathlib.Data.List.Induction
import Mathlib.Data.List.Nodup

set_option autoImplicit false

/-!
# Paths of links

Links join two nodes if each of them begins where the one before ends. Costs are added from the first link on and stop
growing at the largest one, so that the cost of a path does not depend on how the path is divided into parts.

## Main definitions

* `EventSim.Network.Joins` — links that lead from one node to another.
* `EventSim.Network.stops` — the nodes on the way.
* `EventSim.Network.costAll` — the cost of links, held at the largest one.
* `EventSim.Network.Contiguous` — links of which each begins where the one before ends.

## Main results

* `EventSim.Network.joins_concat_iff` — paths by their last links.
* `EventSim.Network.costAll_append` — the cost of a path is that of its parts.
* `EventSim.Network.contiguous_iff_joins` — what lies between the ends of contiguous links is a path.
-/

namespace EventSim.Network

variable {n : Network} {u v w : NodeId} {l l' : LinkId} {link link' : Link} {links links' : List LinkId}

/-! ## Paths between nodes -/

/-- The links lead from one node to another: each of them begins where the one before ends. -/
inductive Joins (n : Network) : NodeId → List LinkId → NodeId → Prop
  /-- No links lead from a node to itself. -/
  | nil (v : NodeId) : n.Joins v [] v
  /-- A link leads to the begin of the others. -/
  | cons {l : LinkId} {link : Link} {links : List LinkId} {v : NodeId} (hl : n.link? l = some link)
    (h : n.Joins link.target links v) : n.Joins link.source (l :: links) v

/-- One path after another is a path. -/
lemma Joins.append (h : n.Joins u links v) (h' : n.Joins v links' w) : n.Joins u (links ++ links') w := by
  induction h with
  | nil v => exact h'
  | cons hl _ ih => exact .cons hl (ih h')

/-- A link by itself is a path. -/
lemma joins_singleton (hl : n.link? l = some link) : n.Joins link.source [l] link.target :=
  .cons hl (.nil _)

/-- A path without links stays where it is. -/
lemma joins_nil_iff : n.Joins u [] v ↔ u = v := by
  constructor
  · rintro ⟨⟩
    rfl
  · rintro rfl
    exact .nil u

/-- A path that is not empty begins with a link that leaves its first node. -/
lemma joins_cons_iff : n.Joins u (l :: links) v ↔
    ∃ link, n.link? l = some link ∧ link.source = u ∧ n.Joins link.target links v := by
  constructor
  · intro h
    cases h with
    | cons hl h => exact ⟨_, hl, rfl, h⟩
  · rintro ⟨link, hl, rfl, h⟩
    exact .cons hl h

/-- **A path ends with a link** that leads to its last node. -/
theorem joins_concat_iff : n.Joins u (links ++ [l]) v ↔
    ∃ link, n.link? l = some link ∧ n.Joins u links link.source ∧ link.target = v := by
  constructor
  · intro h
    induction links generalizing u with
    | nil =>
      obtain ⟨link, hl, rfl, hrest⟩ := joins_cons_iff.1 h
      exact ⟨link, hl, .nil _, joins_nil_iff.1 hrest⟩
    | cons k links ih =>
      obtain ⟨first, hk, rfl, hrest⟩ := joins_cons_iff.1 h
      obtain ⟨link, hl, hlinks, rfl⟩ := ih hrest
      exact ⟨link, hl, .cons hk hlinks, rfl⟩
  · rintro ⟨link, hl, h, rfl⟩
    exact h.append (joins_singleton hl)

/-! ## The nodes on the way -/

/-- The nodes at which links that are taken from a node begin and end. -/
def stops (n : Network) (u : NodeId) (links : List LinkId) : List NodeId :=
  u :: links.filterMap fun l => (n.link? l).map (·.target)

lemma stops_concat (u : NodeId) (links : List LinkId) (hl : n.link? l = some link) :
    n.stops u (links ++ [l]) = n.stops u links ++ [link.target] := by
  simp [stops, hl]

/-- On a path there is one node more than there are links. -/
lemma Joins.length_stops (h : n.Joins u links v) : (n.stops u links).length = links.length + 1 := by
  induction links using List.reverseRecOn generalizing v with
  | nil => rfl
  | append_singleton links l ih =>
    obtain ⟨link, hl, hlinks, -⟩ := joins_concat_iff.1 h
    rw [stops_concat u links hl, List.length_append, ih hlinks, List.length_append]
    rfl

/-- The last node of a path is on it. -/
lemma Joins.mem_stops (h : n.Joins u links v) : v ∈ n.stops u links := by
  cases links using List.reverseRecOn with
  | nil => exact joins_nil_iff.1 h ▸ List.mem_singleton_self u
  | append_singleton links l =>
    obtain ⟨link, hl, -, rfl⟩ := joins_concat_iff.1 h
    rw [stops_concat u links hl]
    exact List.mem_append_right _ (List.mem_singleton_self _)

/-- Where a link leads is a stop. -/
lemma target_mem_stops (u : NodeId) (hl : n.link? l = some link) (hmem : l ∈ links) : link.target ∈ n.stops u links :=
  List.mem_cons_of_mem _ (List.mem_filterMap.2 ⟨l, hmem, by rw [hl]; rfl⟩)

/-- A path leads to each of its links, and on from it. -/
lemma Joins.exists_parts (h : n.Joins u links v) (hmem : l ∈ links) :
    ∃ link before after, n.link? l = some link ∧ links = before ++ l :: after ∧ n.Joins u before link.source ∧
      n.Joins link.target after v := by
  induction h with
  | nil v => exact absurd hmem List.not_mem_nil
  | @cons k first links v hk hlinks ih =>
    rcases List.mem_cons.1 hmem with rfl | hmem
    · exact ⟨first, [], links, hk, rfl, .nil _, hlinks⟩
    · obtain ⟨link, before, after, hl, rfl, hbefore, hafter⟩ := ih hmem
      exact ⟨link, k :: before, after, hl, rfl, .cons hk hbefore, hafter⟩

/-- A path that comes to no node twice takes no link twice. -/
lemma Joins.nodup_links (h : n.Joins u links v) (hnodup : (n.stops u links).Nodup) : links.Nodup := by
  induction links using List.reverseRecOn generalizing v with
  | nil => exact List.nodup_nil
  | append_singleton links l ih =>
    obtain ⟨link, hl, hlinks, -⟩ := joins_concat_iff.1 h
    rw [stops_concat u links hl, List.nodup_append] at hnodup
    refine List.nodup_append.2 ⟨ih hlinks hnodup.1, List.nodup_singleton l, ?_⟩
    rintro k hk _ hk' rfl
    obtain rfl := List.mem_singleton.1 hk'
    exact hnodup.2.2 _ (target_mem_stops u hl hk) _ (List.mem_singleton_self _) rfl

/-- It takes no link that leads to where it begins, -/
lemma not_mem_of_target_eq (hnodup : (n.stops u links).Nodup) (hl : n.link? l = some link) (heq : link.target = u) :
    l ∉ links := by
  intro hmem
  obtain ⟨hnot, -⟩ := List.nodup_cons.1 hnodup
  exact hnot (List.mem_filterMap.2 ⟨l, hmem, by rw [hl, ← heq]; rfl⟩)

/-- and none that leaves the node where it ends. -/
lemma Joins.not_mem_of_source_eq (h : n.Joins u links v) (hnodup : (n.stops u links).Nodup)
    (hl : n.link? l = some link) (heq : link.source = v) : l ∉ links := by
  intro hmem
  obtain ⟨link', before, after, hl', rfl, hbefore, hafter⟩ := h.exists_parts hmem
  obtain rfl := Option.some.inj (hl.symm.trans hl')
  -- the last node would be a stop before the link, and again after it
  have hstops : n.stops u (before ++ l :: after) = n.stops u before ++ n.stops link.target after := by
    simp [stops, hl]
  rw [hstops, List.nodup_append] at hnodup
  exact hnodup.2.2 v (heq ▸ hbefore.mem_stops) v hafter.mem_stops rfl

/-! ## Costs -/

/-- The cost of links, added from the first one on. It stops growing at the largest cost. -/
def costAll (n : Network) (links : List LinkId) : Nat :=
  links.foldl (fun cost l => min (cost + n.costOf l) Binary64.wordMax) 0

lemma costAll_concat (n : Network) (links : List LinkId) (l : LinkId) :
    n.costAll (links ++ [l]) = min (n.costAll links + n.costOf l) Binary64.wordMax := by
  rw [costAll, List.foldl_append]
  rfl

lemma costAll_le (n : Network) (links : List LinkId) : n.costAll links ≤ Binary64.wordMax := by
  cases links using List.reverseRecOn with
  | nil => exact Nat.zero_le _
  | append_singleton links l => exact Nat.le_trans (Nat.le_of_eq (n.costAll_concat links l)) (Nat.min_le_right _ _)

/-- **The cost of a path is that of its parts**, held at the largest cost. -/
theorem costAll_append (n : Network) (links links' : List LinkId) :
    n.costAll (links ++ links') = min (n.costAll links + n.costAll links') Binary64.wordMax := by
  induction links' using List.reverseRecOn with
  | nil =>
    rw [List.append_nil]
    exact (Nat.min_eq_left (n.costAll_le links)).symm
  | append_singleton links' l ih =>
    rw [← List.append_assoc, costAll_concat, costAll_concat, ih]
    omega

/-! ## Contiguous links -/

/-- A link begins where another one ends. -/
def Follows (n : Network) (k l : LinkId) : Prop :=
  ∃ link link', n.link? k = some link ∧ n.link? l = some link' ∧ link.target = link'.source

/-- Each of the links begins where the one before ends. -/
def Contiguous (n : Network) (links : List LinkId) : Prop := links.IsChain n.Follows

/-- **What lies between the first and the last of contiguous links is a path.** -/
theorem contiguous_iff_joins (hl : n.link? l = some link) (hl' : n.link? l' = some link') :
    n.Contiguous (l :: links ++ [l']) ↔ n.Joins link.target links link'.source := by
  unfold Contiguous
  induction links generalizing l link with
  | nil =>
    rw [joins_nil_iff]
    constructor
    · intro h
      obtain ⟨k, k', hk, hk', heq⟩ := (List.isChain_cons_cons.1 h).1
      cases hl.symm.trans hk
      cases hl'.symm.trans hk'
      exact heq
    · intro heq
      exact List.isChain_cons_cons.2 ⟨⟨link, link', hl, hl', heq⟩, List.IsChain.singleton l'⟩
  | cons k links ih =>
    rw [List.cons_append, List.cons_append, List.isChain_cons_cons, ← List.cons_append, joins_cons_iff]
    constructor
    · rintro ⟨⟨_, next, hfirst, hk, heq⟩, h⟩
      cases hl.symm.trans hfirst
      exact ⟨next, hk, heq.symm, (ih hk).1 h⟩
    · rintro ⟨next, hk, heq, h⟩
      exact ⟨⟨link, next, hl, hk, heq.symm⟩, (ih hk).2 h⟩

end EventSim.Network
