import EventSim.Proofs.Exploration
import EventSim.Proofs.LinkPaths

set_option autoImplicit false

/-!
# Shortest paths

A search that finds its target has found a path of least cost: every path to a node that is not done has to pass the
frontier, and there nothing is cheaper than the target. The way back from the target is that path. It leads over nodes
that were done earlier and earlier, so that it comes to no node twice, and it ends where the search began.

A search that does not find its target has shown that every path costs the largest cost. That is less than to say that
there is none: the time on a link may be so long, in milliseconds, that its cost is held at the largest one, and then
the link cannot be told from one that does not exist.

## Main definitions

* `EventSim.Network.Cheapest` — a path of least cost that comes to no node twice.
* `EventSim.Network.Ends` — the search and the way back come to an end, and give the result.
* `EventSim.Search.Branch` — the way back from a node together with the path along which it was reached.

## Main results

* `EventSim.Search.Explores.le_costAll` — what a path costs that leads to a node that is not done.
* `EventSim.Search.Explores.exists_branch` — the way back from a node that has been reached.
* `EventSim.NetworkBuilder.findsCheapest` — paths that are found are cheapest.
* `EventSim.NetworkBuilder.noRoute_iff` — when no path is found.
* `EventSim.NetworkBuilder.exists_noRoute_of_joins` — that does not mean that there is none.
-/

namespace EventSim

namespace Search

variable {n : Network} {source target v : NodeId} {level : Nat} {done within : List NodeId} {links : List LinkId}
  {s : Search}

/-! ## What paths cost -/

/-- **A path leads over the frontier** unless it leads to a node that is done. If nothing in the frontier costs less
than `m`, then a path costs at least `m`, or it leads to a node that is done, at no less than its cost.

**Proof sketch.** Induction on the path by its last link. The node before it is done, or the path costs enough
already. If it is done, the link has been followed; so its end has been reached, and is done or in the frontier. -/
theorem Explores.le_costAll (hn : n.Regular) (h : Explores n source level done [] s) (hsource : source.index < n.nodeCount)
    {m : Nat} (hmax : m ≤ Binary64.wordMax) (hm : ∀ a ∈ s.frontier, m ≤ a.1) (hlinks : n.Joins source links v) :
    v ∈ done ∧ s.costAt v.index ≤ n.costAll links ∨ m ≤ n.costAll links := by
  -- a node that has been reached at some cost is done, or it costs as much as the frontier
  have hreached : ∀ (v : NodeId) (cost : Nat), v.index < n.nodeCount → s.costAt v.index ≤ cost →
      v ∈ done ∧ s.costAt v.index ≤ cost ∨ m ≤ cost := by
    intro v cost hv hle
    rcases Nat.lt_or_ge (s.costAt v.index) Binary64.wordMax with hlt | hge
    · rcases h.known v hv hlt with hdone | hmem
      · exact Or.inl ⟨hdone, hle⟩
      · exact Or.inr (Nat.le_trans (hm _ hmem) hle)
    · exact Or.inr (Nat.le_trans hmax (Nat.le_trans hge hle))
  induction links using List.reverseRecOn generalizing v with
  | nil =>
    obtain rfl := Network.joins_nil_iff.1 hlinks
    exact hreached source _ hsource (Nat.le_of_eq h.costAt_source)
  | append_singleton links l ih =>
    obtain ⟨link, hl, hbefore, rfl⟩ := Network.joins_concat_iff.1 hlinks
    rw [Network.costAll_concat]
    rcases ih hbefore with ⟨hdone, hle⟩ | hle
    · have hfollowed := (h.followed l link hl hdone).resolve_left List.not_mem_nil
      exact hreached link.target _ (hn.target_lt l link hl) (by omega)
    · exact Or.inr (by omega)

/-! ## The way back -/

/-- A node has been reached along the way back from it: that is a path from where the search began, it costs what the
search has noted, and it comes to no node twice. -/
structure Branch (n : Network) (source : NodeId) (s : Search) (v : NodeId) (links : List LinkId)
    (within : List NodeId) : Prop where
  /-- The links are the whole way back. -/
  retraces : s.Retraces n v.index links
  /-- They lead to the node. -/
  joins : n.Joins source links v
  /-- They cost as much as has been noted. -/
  cost : n.costAll links = s.costAt v.index
  /-- They come to no node twice, -/
  nodup : (n.stops source links).Nodup
  /-- and to these nodes only. -/
  subset : n.stops source links ⊆ within

/-- The way back from a node, if there is one from every node from which a link arrives at it. -/
lemma Explores.exists_branch_of_arrived (h : Explores n source level done [] s) (hv : v.index < n.nodeCount)
    (hmax : s.costAt v.index < Binary64.wordMax) (hnew : v ∉ within)
    (hwithin : ∀ l link, s.arrivals[v.index]?.join = some l → n.link? l = some link →
      ∃ links, Branch n source s link.source links within) :
    ∃ links, Branch n source s v links (v :: within) := by
  by_cases hroot : v = source
  · subst hroot
    refine ⟨[], .stop (by rw [h.arrivals_source]; rfl), .nil v, h.costAt_source.symm, List.nodup_singleton v, ?_⟩
    exact fun u hu => List.mem_cons.2 (Or.inl (List.mem_singleton.1 hu))
  · obtain ⟨l, link, harrival, hl, rfl, -, hcost⟩ := h.arrived v hroot hv hmax
    obtain ⟨links, hbranch⟩ := hwithin l link harrival hl
    refine ⟨links ++ [l], .step harrival hl hbranch.retraces, ?_, ?_, ?_, ?_⟩
    · exact Network.joins_concat_iff.2 ⟨link, hl, hbranch.joins, rfl⟩
    · rw [Network.costAll_concat, hbranch.cost, ← hcost]
      exact Nat.min_eq_left (Nat.le_of_lt hmax)
    · rw [Network.stops_concat source links hl, List.nodup_append]
      refine ⟨hbranch.nodup, List.nodup_singleton _, ?_⟩
      rintro u hu _ hu' rfl
      exact hnew (List.mem_singleton.1 hu' ▸ hbranch.subset hu)
    · rw [Network.stops_concat source links hl]
      intro u hu
      rcases List.mem_append.1 hu with hu | hu
      · exact List.mem_cons_of_mem _ (hbranch.subset hu)
      · exact List.mem_cons.2 (Or.inl (List.mem_singleton.1 hu))

/-- The way back from what is done leads over what was done earlier. -/
lemma Explores.exists_branch_of_mem (h : Explores n source level done [] s) {later earlier : List NodeId}
    (hdone : done = later ++ earlier) (hv : v ∈ earlier) : ∃ links, Branch n source s v links earlier := by
  induction earlier generalizing later v with
  | nil => exact absurd hv List.not_mem_nil
  | cons u earlier ih =>
    have hsplit : done = (later ++ [u]) ++ earlier := by rw [hdone, List.append_assoc, List.singleton_append]
    by_cases hearlier : v ∈ earlier
    · obtain ⟨links, hbranch⟩ := ih hsplit hearlier
      exact ⟨links, { hbranch with subset := fun w hw => List.mem_cons_of_mem _ (hbranch.subset hw) }⟩
    · obtain rfl := (List.mem_cons.1 hv).resolve_right hearlier
      have hmem : v ∈ done := hdone ▸ List.mem_append_right _ List.mem_cons_self
      obtain ⟨hvlt, hle⟩ := h.of_mem_done v hmem
      refine h.exists_branch_of_arrived hvlt (Nat.lt_of_le_of_lt hle h.level_lt) hearlier fun l link harrival hl => ?_
      exact ih hsplit (h.ordered later v earlier hdone l link harrival hl)

/-- **The way back from a node that has been reached** is a path from where the search began. -/
theorem Explores.exists_branch (h : Explores n source level done [] s) (hv : v.index < n.nodeCount)
    (hmax : s.costAt v.index < Binary64.wordMax) (hnew : v ∉ done) :
    ∃ links, Branch n source s v links (v :: done) := by
  refine h.exists_branch_of_arrived hv hmax hnew fun l link harrival hl => ?_
  exact h.exists_branch_of_mem (List.nil_append done).symm (h.source_mem_done hv hmax harrival hl)

/-- The way back has fewer links than there are nodes. -/
lemma Branch.length_lt (h : Branch n source s v links within) (hwithin : ∀ u ∈ within, u.index < n.nodeCount) :
    links.length < n.nodeCount := by
  have hnodup : ((n.stops source links).map Id.index).Nodup :=
    h.nodup.map fun _ _ heq => Id.ext_index heq
  have hsubset : (n.stops source links).map Id.index ⊆ List.range n.nodeCount := by
    intro i hi
    obtain ⟨u, hu, rfl⟩ := List.mem_map.1 hi
    exact List.mem_range.2 (hwithin u (h.subset hu))
  have hle := (List.subperm_of_subset hnodup hsubset).length_le
  rw [List.length_map, h.joins.length_stops, List.length_range] at hle
  exact hle

end Search

/-! ## Results -/

namespace Network

variable {n : Network} {source target : NodeId}

/-- A path that costs no more than any other, and comes to no node twice. -/
structure Cheapest (n : Network) (source : NodeId) (links : List LinkId) (target : NodeId) : Prop where
  /-- The links lead from the one node to the other. -/
  joins : n.Joins source links target
  /-- They come to no node twice. -/
  nodup : (n.stops source links).Nodup
  /-- No other links that do so cost less. -/
  costAll_le : ∀ links', n.Joins source links' target → n.costAll links ≤ n.costAll links'

/-- The search for a path comes to an end. If no node is left, there is no path; if the target is the cheapest node,
then the way back from it comes to an end as well, and is the path. -/
def Ends (n : Network) (source target : NodeId) : Prop :=
  ∃ s, Relation.ReflTransGen (Search.Turn n target.index) (.start n.nodeCount source.index) s ∧
    (s.frontier = [] ∧ n.shortestPath source target = .error (.noRoute source target) ∨
      s.Found target.index ∧ ∃ links, s.Retraces n target.index links ∧
        n.shortestPath source target = .ok (n.pathOf links))

/-- A path is looked for between different nodes that exist. -/
lemma shortestPath_of_ne (hsource : source.index < n.nodeCount) (htarget : target.index < n.nodeCount)
    (hne : source ≠ target) : n.shortestPath source target =
      match (Search.start n.nodeCount source.index).run n target.index with
      | some s => .ok (n.pathOf (s.trace n n.nodeCount target.index []))
      | none => .error (.noRoute source target) := by
  unfold shortestPath checkNode
  rw [if_pos hsource, if_pos htarget]
  dsimp only [bind, Except.bind]
  rw [if_neg hne]
  cases (Search.start n.nodeCount source.index).run n target.index <;> rfl

/-- No path is needed to stay at a node. -/
lemma shortestPath_self (hsource : source.index < n.nodeCount) :
    n.shortestPath source source = .ok ⟨[], Binary64.zero⟩ := by
  unfold shortestPath checkNode
  rw [if_pos hsource]
  dsimp only [bind, Except.bind]
  rw [if_pos rfl]
  rfl

/-- It costs nothing, and nothing costs less. -/
lemma cheapest_nil (n : Network) (v : NodeId) : n.Cheapest v [] v :=
  ⟨.nil v, List.nodup_singleton v, fun _ _ => Nat.zero_le _⟩

/-- **How a search between different nodes ends**: it finds a cheapest path, which costs less than the largest cost, or
all paths cost that much.

**Proof sketch.** The invariant holds when no turn is left (`Search.exists_explores`). In an empty frontier nothing is
cheap, and if the target is the cheapest node, nothing in the frontier costs less (`Search.Explores.le_costAll`). -/
theorem Regular.shortestPath_cases (hn : n.Regular) (hsource : source.index < n.nodeCount)
    (htarget : target.index < n.nodeCount) (hne : source ≠ target) : n.Ends source target ∧
      (n.shortestPath source target = .error (.noRoute source target) ∧
          (∀ links, n.Joins source links target → n.costAll links = Binary64.wordMax) ∨
        ∃ links, n.shortestPath source target = .ok (n.pathOf links) ∧ n.Cheapest source links target ∧
          n.costAll links < Binary64.wordMax) := by
  obtain ⟨s, hturns, hend⟩ := Search.exists_turns n target.index (.start n.nodeCount source.index)
  obtain ⟨level, done, hs, hdone⟩ := Search.exists_explores hn hsource hturns
  have hpath := shortestPath_of_ne hsource htarget hne
  rcases hend with ⟨⟨cost, rest, hfrontier⟩, hrun⟩ | ⟨hfrontier, hrun⟩
  · -- the target has been found
    obtain ⟨-, hcost, v, hv, -, hle⟩ := hs.of_mem_frontier _ (hfrontier ▸ List.mem_cons_self)
    obtain rfl : v = target := Id.ext_index hv
    have hfirst : ∀ a ∈ s.frontier, cost ≤ a.1 := by
      have hsorted := hs.sorted
      rw [hfrontier] at hsorted ⊢
      exact List.forall_mem_cons.2 ⟨Nat.le_refl _, (List.pairwise_cons.1 hsorted).1⟩
    obtain ⟨links, hbranch⟩ := hs.exists_branch htarget (Nat.lt_of_le_of_lt hle hcost) hdone
    have hlength : links.length ≤ n.nodeCount := Nat.le_of_lt <| hbranch.length_lt <|
      List.forall_mem_cons.2 ⟨htarget, fun u hu => (hs.of_mem_done u hu).1⟩
    rw [hrun] at hpath
    dsimp only at hpath
    rw [hbranch.retraces.trace_eq hlength, List.append_nil] at hpath
    refine ⟨⟨s, hturns, Or.inr ⟨⟨cost, rest, hfrontier⟩, links, hbranch.retraces, hpath⟩⟩, Or.inr ⟨links, hpath, ?_, ?_⟩⟩
    · refine ⟨hbranch.joins, hbranch.nodup, fun links' hlinks' => ?_⟩
      rw [hbranch.cost]
      rcases hs.le_costAll hn hsource (Nat.le_of_lt hcost) hfirst hlinks' with ⟨hmem, -⟩ | hge
      · exact absurd hmem hdone
      · exact Nat.le_trans hle hge
    · exact hbranch.cost ▸ Nat.lt_of_le_of_lt hle hcost
  · -- no node is left
    rw [hrun] at hpath
    refine ⟨⟨s, hturns, Or.inl ⟨hfrontier, hpath⟩⟩, Or.inl ⟨hpath, fun links hlinks => ?_⟩⟩
    have hempty : ∀ a ∈ s.frontier, Binary64.wordMax ≤ a.1 := fun a ha => absurd (hfrontier ▸ ha) List.not_mem_nil
    rcases hs.le_costAll hn hsource (Nat.le_refl _) hempty hlinks with ⟨hmem, -⟩ | hge
    · exact absurd hmem hdone
    · exact Nat.le_antisymm (n.costAll_le links) hge

/-- A path is found only between nodes that exist. -/
lemma lt_of_shortestPath {p : Path} (h : n.shortestPath source target = .ok p) :
    source.index < n.nodeCount ∧ target.index < n.nodeCount := by
  unfold shortestPath checkNode at h
  by_cases hsource : source.index < n.nodeCount
  · by_cases htarget : target.index < n.nodeCount
    · exact ⟨hsource, htarget⟩
    · rw [if_pos hsource, if_neg htarget] at h
      cases h
  · rw [if_neg hsource] at h
    cases h

/-- **What is found is a cheapest path.** It has links unless its ends are the same. -/
theorem Regular.cheapest_of_ok (hn : n.Regular) {p : Path} (h : n.shortestPath source target = .ok p) :
    n.Cheapest source p.links target ∧ (p.links = [] ↔ source = target) := by
  obtain ⟨hsource, htarget⟩ := lt_of_shortestPath h
  by_cases hne : source = target
  · subst hne
    cases (shortestPath_self hsource).symm.trans h
    exact ⟨n.cheapest_nil source, iff_of_true rfl rfl⟩
  · obtain ⟨-, ⟨herror, -⟩ | ⟨links, hok, hcheapest, -⟩⟩ := hn.shortestPath_cases hsource htarget hne
    · cases herror.symm.trans h
    · cases hok.symm.trans h
      refine ⟨hcheapest, iff_of_false ?_ hne⟩
      rintro rfl
      exact hne (joins_nil_iff.1 hcheapest.joins)

end Network

namespace NetworkBuilder

variable {b : NetworkBuilder} {n : Network} {source target : NodeId}

/-- **No path is found** just if every path costs the largest cost; in particular, if there is none. Otherwise there is
a result. -/
theorem noRoute_iff (hb : b.build = .ok n) (hsource : source.index < n.nodeCount)
    (htarget : target.index < n.nodeCount) :
    (n.shortestPath source target = .error (.noRoute source target) ↔
        ∀ links, n.Joins source links target → n.costAll links = Binary64.wordMax) ∧
      ((∃ p, n.shortestPath source target = .ok p) ↔
        ∃ links, n.Joins source links target ∧ n.costAll links < Binary64.wordMax) := by
  have hn := regular_of_build hb
  by_cases hne : source = target
  · subst hne
    have hpath := Network.shortestPath_self hsource
    have hzero : n.costAll [] < Binary64.wordMax := (by decide : 0 < Binary64.wordMax)
    refine ⟨iff_of_false ?_ ?_, iff_of_true ⟨_, hpath⟩ ⟨[], .nil source, hzero⟩⟩
    · intro h
      cases hpath.symm.trans h
    · intro h
      exact Nat.ne_of_lt hzero (h [] (.nil source))
  · obtain ⟨-, ⟨herror, hall⟩ | ⟨links, hok, hcheapest, hlt⟩⟩ := hn.shortestPath_cases hsource htarget hne
    · refine ⟨iff_of_true herror hall, iff_of_false ?_ ?_⟩
      · rintro ⟨p, hp⟩
        cases herror.symm.trans hp
      · rintro ⟨links, hlinks, hlt⟩
        exact Nat.ne_of_lt hlt (hall links hlinks)
    · refine ⟨iff_of_false ?_ ?_, iff_of_true ⟨_, hok⟩ ⟨links, hcheapest.joins, hlt⟩⟩
      · intro h
        cases hok.symm.trans h
      · intro hall
        exact Nat.ne_of_lt hlt (hall links hcheapest.joins)

/-! ## A link that takes too long -/

/-- Two places that are joined by a link of about ten thousand light years, on which one metre is made in a second. -/
def farAway : NetworkBuilder where
  nodes := #[⟨Binary64.zero, Binary64.zero⟩, ⟨Binary64.ofNat 1, Binary64.zero⟩]
  links := #[alley 0 1 (Binary64.ofDecimal 1 20) (Binary64.ofNat 1)]

/-- Its network. -/
def farAwayNetwork : Network where
  nodes := farAway.nodes
  links := farAway.links
  outStart := #[0, 1, 1]

lemma build_farAway : farAway.build = .ok farAwayNetwork :=
  build_of_pairwise (by decide +kernel) (by decide +kernel) (by decide +kernel) (by decide +kernel)

/-- **That no path is found does not mean that there is none**: the cost of a link may be held at the largest one. -/
theorem exists_noRoute_of_joins : ∃ (b : NetworkBuilder) (n : Network) (source target : NodeId) (links : List LinkId),
    b.build = .ok n ∧ b.links.size < UInt32.size ∧ source.index < n.nodeCount ∧ target.index < n.nodeCount ∧
      n.Joins source links target ∧ n.shortestPath source target = .error (.noRoute source target) := by
  have hlink : farAwayNetwork.link? (Id.ofNat 0) = some (alley 0 1 (Binary64.ofDecimal 1 20) (Binary64.ofNat 1)) := rfl
  exact ⟨farAway, farAwayNetwork, Id.ofNat 0, Id.ofNat 1, [Id.ofNat 0], build_farAway, by decide, by decide, by decide,
    Network.joins_singleton hlink, by decide +kernel⟩

/-- The search says of the places that are far away just that paths between them cost the largest cost, and of the old
town that there are paths from the square to the gate, and none that costs less to the place that cannot be reached. -/
theorem noRoute_iff_farAway :
    (farAway.build = .ok farAwayNetwork ∧
      (Id.ofNat 0 : NodeId).index < farAwayNetwork.nodeCount ∧ (Id.ofNat 1 : NodeId).index < farAwayNetwork.nodeCount ∧
      ∀ links, farAwayNetwork.Joins (Id.ofNat 0) links (Id.ofNat 1) →
        farAwayNetwork.costAll links = Binary64.wordMax) ∧
    (∃ links, oldTownNetwork.Joins (Id.ofNat 0) links (Id.ofNat 3) ∧
      oldTownNetwork.costAll links < Binary64.wordMax) ∧
    ∀ links, oldTownNetwork.Joins (Id.ofNat 0) links (Id.ofNat 4) →
      oldTownNetwork.costAll links = Binary64.wordMax := by
  have hgate : oldTownNetwork.shortestPath (Id.ofNat 0) (Id.ofNat 3) =
      .ok (oldTownNetwork.pathOf [Id.ofNat 0, Id.ofNat 4, Id.ofNat 7]) := by decide +kernel
  refine ⟨⟨build_farAway, by decide, by decide, ?_⟩, ?_, ?_⟩
  · exact (noRoute_iff build_farAway (by decide) (by decide)).1.1 (by decide +kernel)
  · exact (noRoute_iff build_oldTown (by decide) (by decide)).2.1 ⟨_, hgate⟩
  · exact (noRoute_iff build_oldTown (by decide) (by decide)).1.1 (by decide +kernel)

end NetworkBuilder

end EventSim
