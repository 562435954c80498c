import EventSim.Proofs.Adjacency
import EventSim.Proofs.SearchTurns

set_option autoImplicit false

/-!
# What a search knows

The nodes that a search has expanded are done: their costs do not change any more, and all links that leave them have
been followed. Whatever else has been reached is in the frontier, with costs that are at least as large. The search
arrives at a node by a link that leaves a node that was done before; so the way back from a node leads over nodes that
were done earlier and earlier.

Costs that have grown to the largest one cannot be told from those of nodes that have not been reached.

## Main definitions

* `EventSim.Search.Explores` — the invariant of a search, in the course of a turn.

## Main results

* `EventSim.Search.explores_start` — a search begins with it.
* `EventSim.Search.Explores.follow` — to follow a link keeps it.
* `EventSim.Search.Explores.turn` — so does a turn, and what is done stays done.
* `EventSim.Search.exists_explores` — it holds after any number of turns.
-/

namespace EventSim.Search

variable {n : Network} {source target v : NodeId} {level cost node : Nat} {done : List NodeId} {l : LinkId}
  {pending : List LinkId} {rest : List (Nat × Nat)} {s t : Search}

/-- What a search from a node knows when it has come to some level of costs. The nodes that are done are given from the
last one back to the first. Of the links that leave the last one, some may be pending. -/
structure Explores (n : Network) (source : NodeId) (level : Nat) (done : List NodeId) (pending : List LinkId)
    (s : Search) : Prop where
  /-- There is a cost for every node. -/
  size_costs : s.costs.size = n.nodeCount
  /-- There is an arrival for every node. -/
  size_arrivals : s.arrivals.size = n.nodeCount
  /-- No cost is above the largest one, -/
  costAt_le : ∀ i, s.costAt i ≤ Binary64.wordMax
  /-- which is not reached. -/
  level_lt : level < Binary64.wordMax
  /-- The search begins without cost, -/
  costAt_source : s.costAt source.index = 0
  /-- and without a link. -/
  arrivals_source : s.arrivals[source.index]? = some none
  /-- The frontier is in the order of costs. -/
  sorted : s.frontier.Pairwise fun a b => a.1 ≤ b.1
  /-- In the frontier are nodes of the network, at costs that are not below the level and not below their own. -/
  of_mem_frontier : ∀ a ∈ s.frontier, level ≤ a.1 ∧ a.1 < Binary64.wordMax ∧
    ∃ v : NodeId, v.index = a.2 ∧ v.index < n.nodeCount ∧ s.costAt v.index ≤ a.1
  /-- What is done has been reached, at costs up to the level. -/
  of_mem_done : ∀ v ∈ done, v.index < n.nodeCount ∧ s.costAt v.index ≤ level
  /-- Every node that has been reached is done or in the frontier. -/
  known : ∀ v : NodeId, v.index < n.nodeCount → s.costAt v.index < Binary64.wordMax →
    v ∈ done ∨ (s.costAt v.index, v.index) ∈ s.frontier
  /-- The links that leave what is done have been followed, or they are pending. -/
  followed : ∀ l link, n.link? l = some link → link.source ∈ done →
    l ∈ pending ∨ s.costAt link.target.index ≤ min (s.costAt link.source.index + n.costOf l) Binary64.wordMax
  /-- The pending links leave a node that was reached at the level. -/
  of_mem_pending : ∀ l ∈ pending, ∃ link, n.link? l = some link ∧ link.source ∈ done ∧
    s.costAt link.source.index = level
  /-- Any other node that has been reached was reached from one that is done. -/
  arrived : ∀ v : NodeId, v ≠ source → v.index < n.nodeCount → s.costAt v.index < Binary64.wordMax →
    ∃ l link, s.arrivals[v.index]?.join = some l ∧ n.link? l = some link ∧ link.target = v ∧ link.source ∈ done ∧
      s.costAt v.index = s.costAt link.source.index + n.costOf l
  /-- What is done was reached from what had been done earlier. -/
  ordered : ∀ later v earlier, done = later ++ v :: earlier → ∀ l link, s.arrivals[v.index]?.join = some l →
    n.link? l = some link → link.source ∈ earlier

/-- The link by which a node was reached leaves a node that is done. -/
lemma Explores.source_mem_done (h : Explores n source level done pending s) {link : Link} (hv : v.index < n.nodeCount)
    (hmax : s.costAt v.index < Binary64.wordMax) (harrival : s.arrivals[v.index]?.join = some l)
    (hl : n.link? l = some link) : link.source ∈ done := by
  have hroot : v ≠ source := by
    rintro rfl
    rw [h.arrivals_source] at harrival
    cases harrival
  obtain ⟨l', link', harrival', hl', -, hdone, -⟩ := h.arrived v hroot hv hmax
  obtain rfl := Option.some.inj (harrival.symm.trans harrival')
  obtain rfl := Option.some.inj (hl.symm.trans hl')
  exact hdone

/-! ## The beginning -/

/-- **A search begins** with one node that is reached, in the frontier. -/
theorem explores_start (hsource : source.index < n.nodeCount) :
    Explores n source 0 [] [] (start n.nodeCount source.index) := by
  have hmax : 0 < Binary64.wordMax := by decide
  have hcost : ∀ i, (start n.nodeCount source.index).costAt i =
      if i = source.index then 0 else if i < n.nodeCount then Binary64.wordMax else 0 := fun i => by
    unfold costAt start
    rw [getElem?_setIfInBounds_of_lt (by rwa [Array.size_replicate]), Array.getElem?_replicate]
    split_ifs <;> rfl
  have hzero : (start n.nodeCount source.index).costAt source.index = 0 := (hcost _).trans (if_pos rfl)
  -- nothing but the source has been reached
  have honly : ∀ v : NodeId, v.index < n.nodeCount →
      (start n.nodeCount source.index).costAt v.index < Binary64.wordMax → v = source := fun v hv hlt => by
    by_contra hne
    rw [hcost, if_neg (mt Id.ext_index hne), if_pos hv] at hlt
    exact Nat.lt_irrefl _ hlt
  constructor
  case size_costs => exact Array.size_setIfInBounds.trans Array.size_replicate
  case size_arrivals => exact Array.size_replicate
  case costAt_le =>
    intro i
    rw [hcost]
    split_ifs <;> omega
  case level_lt => exact hmax
  case costAt_source => exact hzero
  case arrivals_source => exact (Array.getElem?_replicate ..).trans (if_pos hsource)
  case sorted => exact List.pairwise_singleton _ _
  case of_mem_frontier =>
    intro a ha
    obtain rfl := List.mem_singleton.1 ha
    exact ⟨Nat.le_refl _, hmax, source, rfl, hsource, Nat.le_of_eq hzero⟩
  case of_mem_done => exact fun v hv => absurd hv List.not_mem_nil
  case known =>
    intro v hv hlt
    obtain rfl := honly v hv hlt
    rw [hzero]
    exact Or.inr (List.mem_singleton_self _)
  case followed => exact fun l link _ hl => absurd hl List.not_mem_nil
  case of_mem_pending => exact fun l hl => absurd hl List.not_mem_nil
  case arrived => exact fun v hne hv hlt => absurd (honly v hv hlt) hne
  case ordered => exact fun later v earlier h => absurd h (by simp)

/-! ## Following links -/

/-- A link that is pending and does not reach its end at less cost has been followed. -/
lemma Explores.drop (h : Explores n source level done (l :: pending) s)
    (hle : ∀ link, n.link? l = some link → s.costAt link.target.index ≤ min (level + n.costOf l) Binary64.wordMax) :
    Explores n source level done pending s := by
  obtain ⟨first, hfirst, -, hlevel⟩ := h.of_mem_pending l List.mem_cons_self
  refine { h with
    followed := fun k link hk hdone => ?_
    of_mem_pending := fun k hk => h.of_mem_pending k (List.mem_cons_of_mem _ hk) }
  rcases h.followed k link hk hdone with hmem | hle'
  · rcases List.mem_cons.1 hmem with rfl | hmem
    · obtain rfl := Option.some.inj (hfirst.symm.trans hk)
      exact Or.inr (hlevel ▸ hle first hk)
    · exact Or.inl hmem
  · exact Or.inr hle'

/-- A node that is reached at less cost from what is done, at a cost that is not below the level, may be noted. -/
lemma Explores.lower (h : Explores n source level done pending s) {link : Link} (hl : n.link? l = some link)
    (hsource : link.source ∈ done) (hnode : link.target.index < n.nodeCount)
    (hcost : cost = s.costAt link.source.index + n.costOf l) (hlevel : level ≤ cost)
    (hlt : cost < s.costAt link.target.index) :
    Explores n source level done pending (s.lower cost link.target.index l) := by
  have hmax : cost < Binary64.wordMax := Nat.lt_of_lt_of_le hlt (h.costAt_le _)
  have hcostAt : ∀ i, (s.lower cost link.target.index l).costAt i =
      if i = link.target.index then cost else s.costAt i := costAt_lower (h.size_costs ▸ hnode)
  have harrivals : ∀ i, (s.lower cost link.target.index l).arrivals[i]? =
      if i = link.target.index then some (some l) else s.arrivals[i]? := arrivals_lower (h.size_arrivals ▸ hnode)
  -- what is done is not reached at less cost any more
  have hne : ∀ v ∈ done, v.index ≠ link.target.index := by
    intro v hv heq
    have hle := (h.of_mem_done v hv).2
    rw [heq] at hle
    omega
  have hdone : ∀ v ∈ done, (s.lower cost link.target.index l).costAt v.index = s.costAt v.index := fun v hv => by
    rw [hcostAt, if_neg (hne v hv)]
  have hle : ∀ i, (s.lower cost link.target.index l).costAt i ≤ s.costAt i := fun i => by
    rw [hcostAt]
    split_ifs with hi
    · exact Nat.le_of_lt (hi ▸ hlt)
    · exact Nat.le_refl _
  have hroot : source.index ≠ link.target.index := by
    intro heq
    rw [← heq, h.costAt_source] at hlt
    exact Nat.not_lt_zero _ hlt
  constructor
  case size_costs => exact Array.size_setIfInBounds.trans h.size_costs
  case size_arrivals => exact Array.size_setIfInBounds.trans h.size_arrivals
  case costAt_le => exact fun i => Nat.le_trans (hle i) (h.costAt_le i)
  case level_lt => exact h.level_lt
  case costAt_source => rw [hcostAt, if_neg hroot, h.costAt_source]
  case arrivals_source => rw [harrivals, if_neg hroot, h.arrivals_source]
  case sorted => exact pairwise_insertByCost h.sorted
  case of_mem_frontier =>
    intro a ha
    rcases mem_insertByCost.1 ha with rfl | ha
    · exact ⟨hlevel, hmax, link.target, rfl, hnode, by rw [hcostAt, if_pos rfl]⟩
    · obtain ⟨hge, hamax, v, hv, hvlt, hva⟩ := h.of_mem_frontier a ha
      exact ⟨hge, hamax, v, hv, hvlt, Nat.le_trans (hle _) hva⟩
  case of_mem_done => exact fun v hv => (h.of_mem_done v hv).imp_right fun hv => Nat.le_trans (hle _) hv
  case known =>
    intro v hv hvmax
    by_cases hi : v.index = link.target.index
    · rw [hcostAt, if_pos hi, hi]
      exact Or.inr (mem_insertByCost.2 (Or.inl rfl))
    · rw [hcostAt, if_neg hi] at hvmax ⊢
      exact (h.known v hv hvmax).imp_right fun hmem => mem_insertByCost.2 (Or.inr hmem)
  case followed =>
    intro k link' hk hsource'
    rw [hdone _ hsource']
    exact (h.followed k link' hk hsource').imp_right fun hle' => Nat.le_trans (hle _) hle'
  case of_mem_pending =>
    intro k hk
    obtain ⟨link', hk', hsource', hlevel'⟩ := h.of_mem_pending k hk
    exact ⟨link', hk', hsource', (hdone _ hsource').trans hlevel'⟩
  case arrived =>
    intro v hv hvlt hvmax
    rw [harrivals]
    by_cases hi : v.index = link.target.index
    · rw [hcostAt, if_pos hi, if_pos hi]
      exact ⟨l, link, rfl, hl, Id.ext_index hi.symm, hsource, by rw [hdone _ hsource, hcost]⟩
    · rw [hcostAt, if_neg hi] at hvmax
      rw [hcostAt, if_neg hi, if_neg hi]
      obtain ⟨k, link', hk, hlink', htarget, hsource', heq⟩ := h.arrived v hv hvlt hvmax
      exact ⟨k, link', hk, hlink', htarget, hsource', by rw [hdone _ hsource', heq]⟩
  case ordered =>
    intro later v earlier hsplit k link' hk
    have hv : v ∈ done := hsplit ▸ List.mem_append_right _ List.mem_cons_self
    rw [harrivals, if_neg (hne v hv)] at hk
    exact h.ordered later v earlier hsplit k link' hk

/-- **To follow a pending link** keeps what is known. -/
theorem Explores.follow (hn : n.Regular) (h : Explores n source level done (l :: pending) s) :
    Explores n source level done pending (s.follow n level l) := by
  obtain ⟨link, hl, hsource, hlevel⟩ := h.of_mem_pending l List.mem_cons_self
  have hmax := h.costAt_le link.target.index
  rw [follow_eq hl]
  split_ifs with hlt
  · have hcost : min (level + n.costOf l) Binary64.wordMax = level + n.costOf l := by omega
    rw [hcost] at hlt ⊢
    have hlower := h.lower hl hsource (hn.target_lt l link hl) (by rw [hlevel]) (Nat.le_add_right _ _) hlt
    refine hlower.drop fun link' hl' => ?_
    obtain rfl := Option.some.inj (hl.symm.trans hl')
    rw [costAt_lower (h.size_costs ▸ hn.target_lt l link hl), if_pos rfl, hcost]
  · refine h.drop fun link' hl' => ?_
    obtain rfl := Option.some.inj (hl.symm.trans hl')
    exact Nat.not_lt.1 hlt

/-- When all pending links have been followed, none is left. -/
lemma Explores.followAll (hn : n.Regular) (h : Explores n source level done pending s) :
    Explores n source level done [] (s.followAll n level pending) := by
  induction pending generalizing s with
  | nil => exact h
  | cons l pending ih => exact ih (h.follow hn)

/-! ## Turns -/

/-- A node that has been reached at less cost may be taken off the frontier. -/
lemma Explores.pass (h : Explores n source level done [] s) (hs : s.frontier = (cost, node) :: rest)
    (hlt : s.costAt node < cost) : Explores n source level done [] { s with frontier := rest } := by
  have hsub : ∀ a ∈ rest, a ∈ s.frontier := fun a ha => hs ▸ List.mem_cons_of_mem _ ha
  refine { h with
    sorted := (List.pairwise_cons.1 (hs ▸ h.sorted)).2
    of_mem_frontier := fun a ha => h.of_mem_frontier a (hsub a ha)
    known := fun v hv hvmax => (h.known v hv hvmax).imp_right fun hmem => ?_ }
  rw [hs] at hmem
  refine (List.mem_cons.1 hmem).resolve_left fun heq => ?_
  obtain ⟨hcost, hnode⟩ := Prod.mk.inj heq
  exact Nat.lt_irrefl _ (hcost ▸ hnode ▸ hlt)

/-- The cheapest node of the frontier is done when it is taken off, and its links are pending. -/
lemma Explores.expand (hn : n.Regular) (h : Explores n source level done [] s)
    (hs : s.frontier = (cost, v.index) :: rest) (hle : cost ≤ s.costAt v.index) :
    Explores n source cost (v :: done) (n.outLinks v) { s with frontier := rest } := by
  have hsub : ∀ a ∈ rest, a ∈ s.frontier := fun a ha => hs ▸ List.mem_cons_of_mem _ ha
  obtain ⟨hfirst, hrest⟩ := List.pairwise_cons.1 (hs ▸ h.sorted)
  obtain ⟨hlevel, hmax, v', hv', hvlt, hva⟩ := h.of_mem_frontier _ (hs ▸ List.mem_cons_self)
  obtain rfl : v' = v := Id.ext_index hv'
  have hcost : s.costAt v'.index = cost := Nat.le_antisymm hva hle
  refine { h with
    level_lt := hmax
    sorted := hrest
    of_mem_frontier := fun a ha => ⟨hfirst a ha, (h.of_mem_frontier a (hsub a ha)).2⟩
    of_mem_done := fun u hu => ?_
    known := fun u hu humax => ?_
    followed := fun l link hl hdone => ?_
    of_mem_pending := fun l hl => ?_
    arrived := fun u hu hult humax => ?_
    ordered := fun later u earlier hsplit l link hu hl => ?_ }
  · rcases List.mem_cons.1 hu with rfl | hu
    · exact ⟨hvlt, hva⟩
    · exact (h.of_mem_done u hu).imp_right fun hu => Nat.le_trans hu hlevel
  · rcases h.known u hu humax with hdone | hmem
    · exact Or.inl (List.mem_cons_of_mem _ hdone)
    · rw [hs] at hmem
      rcases List.mem_cons.1 hmem with heq | hmem
      · exact Or.inl (List.mem_cons.2 (Or.inl (Id.ext_index (Prod.mk.inj heq).2)))
      · exact Or.inr hmem
  · rcases List.mem_cons.1 hdone with heq | hdone
    · exact Or.inl ((hn.mem_outLinks_iff _ l).2 ⟨link, hl, heq⟩)
    · exact Or.inr ((h.followed l link hl hdone).resolve_left List.not_mem_nil)
  · obtain ⟨link, hlink, rfl⟩ := (hn.mem_outLinks_iff _ l).1 hl
    exact ⟨link, hlink, List.mem_cons_self, hcost⟩
  · obtain ⟨l, link, harrival, hl, htarget, hdone, heq⟩ := h.arrived u hu hult humax
    exact ⟨l, link, harrival, hl, htarget, List.mem_cons_of_mem _ hdone, heq⟩
  · cases later with
    | nil =>
      obtain ⟨rfl, rfl⟩ := List.cons.inj hsplit
      exact h.source_mem_done hvlt (hcost ▸ hmax) hu hl
    | cons w later =>
      obtain ⟨-, hsplit⟩ := List.cons.inj hsplit
      exact h.ordered later u earlier hsplit l link hu hl

/-- **A turn keeps what is known**, and the target of the search is never done. -/
theorem Explores.turn (hn : n.Regular) (h : Explores n source level done [] s) (htarget : target ∉ done)
    (hturn : Turn n target.index s t) :
    ∃ level' done', Explores n source level' done' [] t ∧ target ∉ done' := by
  cases hturn with
  | pass hs hne hlt => exact ⟨level, done, h.pass hs hlt, htarget⟩
  | @expand cost node rest hs hne hle =>
    obtain ⟨-, -, v, rfl, -, -⟩ := h.of_mem_frontier _ (hs ▸ List.mem_cons_self)
    have hv : Id.ofNat v.index = v := Id.ext_index (Nat.mod_eq_of_lt v.index_lt)
    rw [hv]
    refine ⟨cost, v :: done, (h.expand hn hs hle).followAll hn, ?_⟩
    rw [List.mem_cons, not_or]
    exact ⟨fun heq => hne (congrArg Id.index heq.symm), htarget⟩

/-- **What is known after any number of turns.** -/
theorem exists_explores (hn : n.Regular) (hsource : source.index < n.nodeCount)
    (h : Relation.ReflTransGen (Turn n target.index) (start n.nodeCount source.index) s) :
    ∃ level done, Explores n source level done [] s ∧ target ∉ done := by
  induction h with
  | refl => exact ⟨0, [], explores_start hsource, List.not_mem_nil⟩
  | tail _ hturn ih =>
    obtain ⟨level, done, hexplores, htarget⟩ := ih
    exact hexplores.turn hn htarget hturn

end EventSim.Search
