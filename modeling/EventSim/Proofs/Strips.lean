import EventSim.Network.Share
import EventSim.Proofs.Adjacency
import EventSim.Proofs.Scenarios

set_option autoImplicit false

/-!
# Vertical strips

The links of a network are put in an order from west to east, and every worker gets a part of that order. With `count`
links and `workers` workers, the link of rank `r` goes to worker `⌊r * workers / count⌋`. So the ranks of the workers
below `w` are those below `⌈w * count / workers⌉`, and a worker gets the whole part of `count / workers`, or one more.

## Main definitions

* `EventSim.recipients` — the workers that get one more.
* `EventSim.Network.Precedes` — the order of links from west to east.
* `EventSim.Network.InStrips` — workers for the links of a network, in parts of that order that are equally large.

## Main results

* `EventSim.Network.Precedes.rank_lt` — links are ranked in their order from west to east.
* `EventSim.countP_quotient_lt` — how many ranks belong to the first workers.
* `EventSim.countP_quotient_eq_add` — what is left over when all have equally many is divided like the whole.
* `EventSim.Network.Ranked.count_eq` — how many links a worker gets.
* `EventSim.NetworkBuilder.inStrips` — every network that is built can be divided into strips.
-/

namespace EventSim

/-! ### Internal helpers: tables that are filled in an order -/

section Fill

variable {α : Type} {f : Nat → α} {order : List Nat} {i r : Nat}

/-- A place that is not in the order is not filled. -/
lemma getElem?_fill_of_not_mem (k : Nat) (table : Array α) (hi : i ∉ order) :
    ((order.zipIdx k).foldl (fun t x => t.setIfInBounds x.1 (f x.2)) table)[i]? = table[i]? := by
  induction order generalizing k table with
  | nil => rfl
  | cons j order ih =>
    obtain ⟨hne, hrest⟩ := not_or.1 (mt List.mem_cons.2 hi)
    rw [List.zipIdx_cons, List.foldl_cons, ih (k + 1) _ hrest, Array.getElem?_setIfInBounds_ne (Ne.symm hne)]

/-- A place that is in the order once is filled with what belongs to its rank. -/
lemma getElem?_fill (k : Nat) {table : Array α} (hnodup : order.Nodup) (hlt : ∀ j ∈ order, j < table.size)
    (hi : order[r]? = some i) :
    ((order.zipIdx k).foldl (fun t x => t.setIfInBounds x.1 (f x.2)) table)[i]? = some (f (k + r)) := by
  induction order generalizing k table r with
  | nil => cases hi
  | cons j order ih =>
    obtain ⟨hj, hrest⟩ := List.nodup_cons.1 hnodup
    rw [List.zipIdx_cons, List.foldl_cons]
    cases r with
    | zero =>
      obtain rfl : j = i := Option.some.inj hi
      rw [getElem?_fill_of_not_mem _ _ hj, Array.getElem?_setIfInBounds_self_of_lt (hlt j List.mem_cons_self)]
      rfl
    | succ r =>
      rw [ih (k + 1) hrest (fun j' hj' => ?_) hi, Nat.succ_add_eq_add_succ]
      rw [Array.size_setIfInBounds]
      exact hlt j' (List.mem_cons_of_mem _ hj')

/-- Filling does not change the size of a table. -/
lemma size_fill (xs : List (Nat × Nat)) (table : Array α) :
    (xs.foldl (fun t x => t.setIfInBounds x.1 (f x.2)) table).size = table.size := by
  induction xs generalizing table with
  | nil => rfl
  | cons x xs ih => rw [List.foldl_cons, ih, Array.size_setIfInBounds]

end Fill

/-! ## Equal parts of an order -/

/-- Of the numbers below a bound, as many are below another one. -/
lemma countP_lt_range (c n : Nat) : (List.range n).countP (· < c) = min c n := by
  induction n with
  | zero => exact (Nat.min_zero c).symm
  | succ n ih =>
    rw [List.range_succ, List.countP_append, ih, List.countP_singleton]
    simp only [decide_eq_true_eq]
    split_ifs <;> omega

/-- **How many ranks belong to the first workers**: their part of all ranks, rounded up. -/
theorem countP_quotient_lt {workers w : Nat} (count : Nat) (hw : w ≤ workers) (hworkers : 0 < workers) :
    (List.range count).countP (fun r => r * workers / count < w) = (w * count + (workers - 1)) / workers := by
  rcases Nat.eq_zero_or_pos count with rfl | hcount
  · exact (Nat.div_eq_of_lt (by omega)).symm
  have hquotient : ∀ r, r * workers / count < w ↔ r < (w * count + (workers - 1)) / workers := by
    intro r
    rw [Nat.div_lt_iff_lt_mul hcount, Nat.lt_iff_add_one_le (m := r), Nat.le_div_iff_mul_le hworkers, Nat.succ_mul]
    omega
  simp only [hquotient]
  rw [countP_lt_range]
  apply Nat.min_eq_left
  -- the part of all workers is everything
  calc (w * count + (workers - 1)) / workers
      ≤ (workers * count + (workers - 1)) / workers :=
        Nat.div_le_div_right (Nat.add_le_add_right (Nat.mul_le_mul_right count hw) _)
    _ = count := by
        rw [Nat.mul_add_div hworkers, Nat.div_eq_of_lt (Nat.sub_lt hworkers Nat.one_pos), Nat.add_zero]

/-- **A rest is divided like the whole**: a worker gets a whole part, and what it would get of the rest alone. -/
lemma countP_quotient_eq_add {workers w : Nat} (count : Nat) (hw : w < workers) :
    (List.range count).countP (fun r => r * workers / count = w) = count / workers +
      (List.range (count % workers)).countP (fun r => r * workers / (count % workers) = w) := by
  have hworkers : 0 < workers := Nat.zero_lt_of_lt hw
  have hfirst : ∀ v ≤ workers, (List.range count).countP (fun r => r * workers / count < v) = v * (count / workers) +
      (List.range (count % workers)).countP (fun r => r * workers / (count % workers) < v) := by
    intro v hv
    rw [countP_quotient_lt count hv hworkers, countP_quotient_lt (count % workers) hv hworkers,
      ← Nat.mul_add_div hworkers, ← Nat.add_assoc, Nat.mul_left_comm, ← Nat.mul_add, Nat.div_add_mod]
  have hall := countP_lt_succ (fun r => r * workers / count) (List.range count) w
  have hrest := countP_lt_succ (fun r => r * workers / (count % workers)) (List.range (count % workers)) w
  rw [hfirst (w + 1) hw, hfirst w hw.le, Nat.succ_mul] at hall
  omega

/-- The workers to whom links go that are left over when all workers have equally many: those to whom the rest would go
if there were nothing else. -/
def recipients (workers rest : Nat) : List Nat := (List.range rest).map fun r => r * workers / rest

/-- A link that is left over goes to a worker behind that of the one before. -/
lemma pairwise_recipients {workers rest : Nat} (hle : rest ≤ workers) : (recipients workers rest).Pairwise (· < ·) := by
  rw [recipients, List.pairwise_map]
  refine List.pairwise_lt_range.imp_of_mem fun {a b} ha hb hab => ?_
  have hrest : 0 < rest := Nat.zero_lt_of_lt (List.mem_range.1 ha)
  calc a * workers / rest
      < (a * workers + rest) / rest := by
        rw [Nat.add_div_right _ hrest]
        exact Nat.lt_succ_self _
    _ ≤ (a * workers + workers) / rest := Nat.div_le_div_right (Nat.add_le_add_left hle _)
    _ ≤ b * workers / rest := by
        rw [← Nat.succ_mul]
        exact Nat.div_le_div_right (Nat.mul_le_mul_right workers hab)

/-- No two links that are left over go to the same worker. -/
lemma nodup_recipients {workers rest : Nat} (hle : rest ≤ workers) : (recipients workers rest).Nodup :=
  (pairwise_recipients hle).imp Nat.ne_of_lt

/-- How many ranks belong to one worker: a whole part, or one more. -/
lemma countP_quotient_eq {workers w : Nat} (count : Nat) (hw : w < workers) :
    (List.range count).countP (fun r => r * workers / count = w) = count / workers +
      if w ∈ recipients workers (count % workers) then 1 else 0 := by
  have hnodup := nodup_recipients (Nat.mod_lt count (Nat.zero_lt_of_lt hw)).le
  rw [countP_quotient_eq_add count hw, ← hnodup.count, recipients, List.count, List.countP_map]
  rfl

/-! ## Links from west to east -/

namespace Network

variable {n : Network} {i j r workers : Nat} {assignment : List WorkerId}

/-- A link comes before another one: the node that it leaves lies further to the west, or in the same distance to the
east and the link has the smaller number. -/
def Precedes (n : Network) (i j : Nat) : Prop :=
  ∃ link link' p q, n.links[i]? = some link ∧ n.links[j]? = some link' ∧ n.node? link.source = some p ∧
    n.node? link'.source = some q ∧ (p.x.rank < q.x.rank ∨ p.x = q.x ∧ i < j)

/-- The key of a link is the place of its x coordinate in the order of all numbers. -/
lemma stripKey_eq {link : Link} {p : Point} (hlink : n.links[i]? = some link) (hp : n.node? link.source = some p) :
    n.stripKey i = p.x.rank := by
  have hpoint : ((n.links[i]?).bind fun link => n.nodes[link.source.index]?) = some p := by
    rw [hlink]
    exact hp
  rw [stripKey, hpoint]

/-- A link that comes before another one has a smaller key, or the same key and a smaller number. -/
lemma Precedes.stripKey_lt (h : n.Precedes i j) :
    (n.stripKey i).toNat < (n.stripKey j).toNat ∨ n.stripKey i = n.stripKey j ∧ i < j := by
  obtain ⟨link, link', p, q, hi, hj, hp, hq, hlt | ⟨heq, hlt⟩⟩ := h <;> rw [stripKey_eq hi hp, stripKey_eq hj hq]
  · exact Or.inl (UInt64.lt_iff_toNat_lt.1 hlt)
  · exact Or.inr ⟨by rw [heq], hlt⟩

lemma byX_eq (n : Network) : n.byX =
    (List.range n.linkCount).mergeSort fun a b => (n.stripKey a).toNat ≤ (n.stripKey b).toNat := by
  simp only [byX, UInt64.le_iff_toNat_le]

lemma perm_byX (n : Network) : n.byX.Perm (List.range n.linkCount) := List.mergeSort_perm _ _

lemma nodup_byX (n : Network) : n.byX.Nodup := n.perm_byX.nodup_iff.2 List.nodup_range

lemma length_byX (n : Network) : n.byX.length = n.linkCount := n.perm_byX.length_eq.trans List.length_range

lemma mem_byX_iff : i ∈ n.byX ↔ i < n.linkCount := n.perm_byX.mem_iff.trans List.mem_range

/-- The order of all links is one by their keys and then by their numbers. -/
lemma pairwise_byX (n : Network) : n.byX.Pairwise fun i j =>
    (n.stripKey i).toNat < (n.stripKey j).toNat ∨ n.stripKey i = n.stripKey j ∧ i < j := by
  have hsorted := pairwise_key_mergeSort (fun i => (n.stripKey i).toNat) (List.range n.linkCount)
  -- the sort is stable, so links with one key stay in the order of their numbers
  have hstable : ∀ k, n.byX.Pairwise fun i j => (n.stripKey i).toNat = k → (n.stripKey j).toNat = k → i < j := by
    intro k
    have hfilter : (n.byX.filter fun i => (n.stripKey i).toNat = k).Pairwise (· < ·) := by
      rw [byX_eq, filter_mergeSort (fun i => (n.stripKey i).toNat)]
      exact List.pairwise_lt_range.filter _
    simpa only [List.pairwise_filter, decide_eq_true_eq] using hfilter
  rw [← byX_eq] at hsorted
  rw [List.pairwise_iff_getElem] at hsorted ⊢
  intro a b ha hb hab
  rcases Nat.lt_or_eq_of_le (hsorted a b ha hb hab) with hlt | heq
  · exact Or.inl hlt
  · exact Or.inr ⟨UInt64.toNat_inj.1 heq, List.pairwise_iff_getElem.1 (hstable _) a b ha hb hab heq rfl⟩

/-- **Links are ranked from west to east.** -/
theorem Precedes.rank_lt {a b : Nat} (h : n.Precedes i j) (ha : n.byX[a]? = some i) (hb : n.byX[b]? = some j) :
    a < b := by
  obtain ⟨ha', rfl⟩ := List.getElem?_eq_some_iff.1 ha
  obtain ⟨hb', rfl⟩ := List.getElem?_eq_some_iff.1 hb
  have hkey := h.stripKey_lt
  rw [← UInt64.toNat_inj] at hkey
  by_contra hle
  rcases Nat.lt_or_eq_of_le (Nat.not_lt.1 hle) with hlt | rfl
  · have hback := List.pairwise_iff_getElem.1 n.pairwise_byX b a hb' ha' hlt
    rw [← UInt64.toNat_inj] at hback
    omega
  · omega

/-- The links of a network are in a strict order if the nodes that they leave exist. -/
lemma precedes_or_precedes (hn : ∀ link ∈ n.links.toList, link.source.index < n.nodeCount) (hi : i < n.linkCount)
    (hj : j < n.linkCount) (hne : i ≠ j) : n.Precedes i j ∨ n.Precedes j i := by
  have hpoint : ∀ {k : Nat}, k < n.linkCount → ∃ link p, n.links[k]? = some link ∧ n.node? link.source = some p := by
    intro k hk
    have hlink := Array.getElem?_eq_getElem hk
    have hsource := hn _ (Array.mem_toList_iff.2 (Array.mem_of_getElem? hlink))
    exact ⟨_, _, hlink, Array.getElem?_eq_getElem hsource⟩
  obtain ⟨link, p, hlink, hp⟩ := hpoint hi
  obtain ⟨link', q, hlink', hq⟩ := hpoint hj
  rcases Nat.lt_trichotomy p.x.rank.toNat q.x.rank.toNat with hlt | heq | hlt
  · exact Or.inl ⟨link, link', p, q, hlink, hlink', hp, hq, Or.inl (UInt64.lt_iff_toNat_lt.2 hlt)⟩
  · have hx : p.x = q.x := Binary64.rank_inj (UInt64.toNat_inj.1 heq)
    rcases Nat.lt_or_gt_of_ne hne with hlt | hlt
    · exact Or.inl ⟨link, link', p, q, hlink, hlink', hp, hq, Or.inr ⟨hx, hlt⟩⟩
    · exact Or.inr ⟨link', link, q, p, hlink', hlink, hq, hp, Or.inr ⟨hx.symm, hlt⟩⟩
  · exact Or.inr ⟨link', link, q, p, hlink', hlink, hq, hp, Or.inl (UInt64.lt_iff_toNat_lt.2 hlt)⟩

/-! ## Workers for ranks -/

/-- Every link has the worker for its rank. -/
structure Ranked (n : Network) (workers : Nat) (assignment : List WorkerId) : Prop where
  /-- There is one worker for every link. -/
  length_eq : assignment.length = n.linkCount
  /-- The worker of a link is the one for its rank. -/
  worker_eq : ∀ r i, n.byX[r]? = some i → assignment[i]? = some (stripOf workers n.linkCount r)

/-- Strips give every link the worker for its rank. -/
lemma strips_eq_ok (n : Network) (hpos : 1 ≤ workers) (hle : workers ≤ 65535) :
    ∃ assignment, n.strips workers = .ok assignment ∧ n.Ranked workers assignment := by
  have hcheck : checkWorkers workers = .ok () := if_neg (by omega)
  refine ⟨_, by rw [strips, hcheck]; rfl, ?_, fun r i hi => ?_⟩
  · rw [Array.length_toList]
    exact (size_fill _ _).trans Array.size_replicate
  · rw [Array.getElem?_toList]
    refine (getElem?_fill 0 n.nodup_byX (fun j hj => ?_) hi).trans (by rw [Nat.zero_add])
    rw [Array.size_replicate]
    exact mem_byX_iff.1 hj

/-- The worker for a rank exists, and its number is the part of the rank. -/
lemma index_stripOf {count : Nat} (hpos : 1 ≤ workers) (hle : workers ≤ 65535) (hr : r < count) :
    (stripOf workers count r).index = r * workers / count ∧ r * workers / count < workers := by
  have hcount : 0 < count := Nat.zero_lt_of_lt hr
  have hlt : r * workers / count < workers := by
    rw [Nat.div_lt_iff_lt_mul hcount, Nat.mul_comm workers]
    exact Nat.mul_lt_mul_of_pos_right hr hpos
  refine ⟨?_, hlt⟩
  rw [stripOf, Nat.max_eq_left hcount]
  exact Nat.mod_eq_of_lt (Nat.lt_of_lt_of_le hlt (Nat.le_succ_of_le hle))

namespace Ranked

variable (h : n.Ranked workers assignment)

include h

/-- A link that has a worker has a rank. -/
lemma exists_rank {w : WorkerId} (hw : assignment[i]? = some w) :
    ∃ r < n.linkCount, n.byX[r]? = some i ∧ w = stripOf workers n.linkCount r := by
  obtain ⟨hi, -⟩ := List.getElem?_eq_some_iff.1 hw
  obtain ⟨r, hr⟩ := List.getElem?_of_mem (mem_byX_iff.2 (h.length_eq ▸ hi))
  have hlt := (List.getElem?_eq_some_iff.1 hr).1
  rw [length_byX] at hlt
  exact ⟨r, hlt, hr, Option.some.inj (hw.symm.trans (h.worker_eq r i hr))⟩

/-- The workers of all links are those for all ranks. -/
lemma perm : assignment.Perm ((List.range n.linkCount).map (stripOf workers n.linkCount)) := by
  have hlinks : assignment = (List.range n.linkCount).map fun i => assignment[i]?.getD default := by
    apply List.ext_getElem (by simp [h.length_eq])
    intro i hi _
    rw [List.getElem_map, List.getElem_range, List.getElem?_eq_getElem hi, Option.getD_some]
  have hranks : (n.byX.map fun i => assignment[i]?.getD default) =
      (List.range n.linkCount).map (stripOf workers n.linkCount) := by
    apply List.ext_getElem (by simp [length_byX])
    intro r hr _
    rw [List.length_map] at hr
    rw [List.getElem_map, List.getElem_map, List.getElem_range, h.worker_eq r _ (List.getElem?_eq_getElem hr),
      Option.getD_some]
  rw [hlinks, ← hranks]
  exact (n.perm_byX.map _).symm

variable (hpos : 1 ≤ workers) (hle : workers ≤ 65535)

include hpos hle

/-- Every worker that a link has exists. -/
lemma index_lt {w : WorkerId} (hw : w ∈ assignment) : w.index < workers := by
  obtain ⟨i, hi⟩ := List.getElem?_of_mem hw
  obtain ⟨r, hr, -, rfl⟩ := h.exists_rank hi
  obtain ⟨heq, hlt⟩ := index_stripOf hpos hle hr
  exact heq ▸ hlt

/-- A link that comes later has no smaller worker. -/
lemma index_le_index {v w : WorkerId} (hij : n.Precedes i j) (hv : assignment[i]? = some v)
    (hw : assignment[j]? = some w) : v.index ≤ w.index := by
  obtain ⟨a, ha, hi, rfl⟩ := h.exists_rank hv
  obtain ⟨b, hb, hj, rfl⟩ := h.exists_rank hw
  rw [(index_stripOf hpos hle ha).1, (index_stripOf hpos hle hb).1]
  exact Nat.div_le_div_right (Nat.mul_le_mul_right workers (hij.rank_lt hi hj).le)

/-- **How many links a worker gets**: a whole part, and one more if a link that is left over goes to it. -/
theorem count_eq {w : WorkerId} (hw : w.index < workers) : assignment.count w = n.linkCount / workers +
    if w.index ∈ recipients workers (n.linkCount % workers) then 1 else 0 := by
  rw [← countP_quotient_eq n.linkCount hw, h.perm.count_eq, List.count, List.countP_map]
  refine List.countP_congr fun r hr => ?_
  rw [decide_eq_true_eq, Function.comp_apply, beq_iff_eq, ← (index_stripOf hpos hle (List.mem_range.1 hr)).1]
  exact ⟨congrArg Id.index, Id.ext_index⟩

end Ranked

end Network

/-! ## Registration -/

namespace Scheduler

section Units

variable {U P : Type} [SimUnit U P] {s : Scheduler U P}

/-- A unit for a worker that exists is not refused for its worker. -/
lemma register_ne_workerOutOfRange (unit : U) {worker : WorkerId} (hworker : worker.index < s.config.workers)
    (w : WorkerId) (k : Nat) : (s.register unit worker).1 ≠ .error (.workerOutOfRange w k) := by
  intro h
  unfold Scheduler.register at h
  split at h
  · cases h
  rw [if_neg (Nat.not_le.2 hworker)] at h
  split at h
  · cases h
  dsimp only at h
  split at h
  · cases h
  split at h <;> cases h

end Units

variable {s : Scheduler Road TrafficEvent} {n : Network} {p : Population} {assignment : List WorkerId}

/-- Roads for workers that exist are not refused for their workers. -/
lemma registerListed_ne_workerOutOfRange {rows : List ((LinkId × Link) × WorkerId)}
    (hrows : ∀ row ∈ rows, row.2.index < s.config.workers) (w : WorkerId) (k : Nat) :
    (registerListed p s rows).1 ≠ .error (.run (.workerOutOfRange w k)) := by
  induction rows generalizing s with
  | nil =>
    intro h
    cases h
  | cons row rows ih =>
    obtain ⟨⟨id, link⟩, worker⟩ := row
    obtain ⟨hworker, hrest⟩ := List.forall_mem_cons.1 hrows
    have hunit := register_ne_workerOutOfRange (Road.ofLink id link p (p.departingFrom id)) hworker w k
    rw [registerListed, registerRoad]
    rcases s.register_reply (Road.ofLink id link p (p.departingFrom id)) worker with
      ⟨e, heq⟩ | ⟨u, -, -, -, heq⟩ <;> rw [heq] at hunit ⊢ <;> dsimp only at hunit ⊢
    · intro h
      cases h
      exact hunit rfl
    · by_cases hindex : u.index = id.index
      · rw [if_pos hindex]
        exact ih hrest
      · rw [if_neg hindex]
        intro h
        cases h

/-- If every link has a worker, the check of a scenario does not miss any. -/
lemma checkScenario_ne_assignment (hlength : assignment.length = n.linkCount) (got expected : Nat) :
    checkScenario n p assignment ≠ .error (.assignment got expected) := by
  intro h
  rw [checkScenario, if_neg (not_not.2 hlength)] at h
  obtain ⟨_, _, _, _, _, hroute⟩ := forM_eq_error_iff.1 h
  obtain ⟨_, l, _, _, _, hlink⟩ := forM_eq_error_iff.1 hroute
  cases hcheck : n.checkLink l <;> rw [hcheck] at hlink <;> cases hlink

/-- Roads are not refused for their workers if every link has one and all of them exist. -/
lemma registerRoads_accepts (hlength : assignment.length = n.linkCount)
    (hworkers : ∀ w ∈ assignment, w.index < s.config.workers) :
    (∀ got expected, (s.registerRoads n p assignment).1 ≠ .error (.assignment got expected)) ∧
      ∀ w k, (s.registerRoads n p assignment).1 ≠ .error (.run (.workerOutOfRange w k)) := by
  rw [registerRoads_eq]
  cases hcheck : checkScenario n p assignment with
  | error e =>
    obtain rfl | ⟨_, _, _, _, _, rfl⟩ := of_checkScenario_error hcheck
    · exact absurd hcheck (checkScenario_ne_assignment hlength _ _)
    · constructor <;> intro _ _ h <;> cases h
  | ok _ =>
    refine ⟨fun got expected h => ?_, registerListed_ne_workerOutOfRange fun row hrow => ?_⟩
    · obtain ⟨l, heq⟩ | ⟨_, _, _, _, heq, -⟩ := of_registerListed_error h <;> cases heq
    · exact hworkers _ (List.of_mem_zip hrow).2

end Scheduler

/-! ## Networks that are built -/

/-- The links of a network are divided into vertical strips, one for each worker. -/
structure Network.InStrips (n : Network) (workers : Nat) (assignment : List WorkerId) : Prop where
  /-- There is one worker for every link. -/
  length_eq : assignment.length = n.linkCount
  /-- Every worker that a link has exists. -/
  index_lt : ∀ w ∈ assignment, w.index < workers
  /-- Of two links, one comes before the other. -/
  total : ∀ i j, i < n.linkCount → j < n.linkCount → i ≠ j → n.Precedes i j ∨ n.Precedes j i
  /-- A link that comes later has no smaller worker. -/
  ordered : ∀ i j v w, n.Precedes i j → assignment[i]? = some v → assignment[j]? = some w → v.index ≤ w.index
  /-- No worker has more than one link more than another. -/
  balanced : ∀ v w : WorkerId, v.index < workers → w.index < workers → assignment.count v ≤ assignment.count w + 1
  /-- A scheduler with so many workers does not refuse the roads of the network because links have no worker, or
  because a worker does not exist. -/
  accepted : ∀ (s : Scheduler Road TrafficEvent) (p : Population), workers ≤ s.config.workers →
    (∀ got expected, (s.registerRoads n p assignment).1 ≠ .error (.assignment got expected)) ∧
      ∀ w k, (s.registerRoads n p assignment).1 ≠ .error (.run (.workerOutOfRange w k))

namespace NetworkBuilder

variable {b : NetworkBuilder} {n : Network} {workers : Nat}

/-- **Every network that is built can be divided into strips**, for any number of workers that has numbers for them.

**Proof sketch.** The links are ranked from west to east (`Network.Precedes.rank_lt`), and every link has the worker for
its rank (`Network.strips_eq_ok`). The worker for a rank does not fall when the rank grows. How many ranks belong to a
worker is counted by those of the first workers (`countP_quotient_lt`). -/
theorem inStrips (h : b.build = .ok n) (hpos : 1 ≤ workers) (hle : workers ≤ 65535) :
    ∃ assignment, n.strips workers = .ok assignment ∧ n.InStrips workers assignment := by
  obtain ⟨assignment, hstrips, hranked⟩ := n.strips_eq_ok hpos hle
  refine ⟨assignment, hstrips, ?_⟩
  constructor
  case length_eq => exact hranked.length_eq
  case index_lt => exact fun w => hranked.index_lt hpos hle
  case total =>
    obtain ⟨hlinks, -, rfl⟩ := build_eq_ok_iff.1 h
    exact fun i j => Network.precedes_or_precedes fun link hlink =>
      (hlinks link (b.perm_arranged.mem_iff.1 hlink)).source_lt
  case ordered => exact fun i j v w => hranked.index_le_index hpos hle
  case balanced =>
    intro v w hv hw
    rw [hranked.count_eq hpos hle hv, hranked.count_eq hpos hle hw]
    split_ifs <;> omega
  case accepted =>
    intro s p hworkers
    exact Scheduler.registerRoads_accepts hranked.length_eq fun w hw =>
      Nat.lt_of_lt_of_le (hranked.index_lt hpos hle hw) hworkers

/-! ### A riverbank -/

/-- A way along a river, through places that are in no order of their x coordinates. One of these is not a number, and
the two zeros are different. -/
def riverbank : NetworkBuilder where
  nodes := #[⟨Binary64.nan, Binary64.zero⟩, ⟨Binary64.zero, Binary64.zero⟩, ⟨-Binary64.zero, Binary64.zero⟩,
    ⟨Binary64.negInfinity, Binary64.zero⟩, ⟨Binary64.zero, Binary64.ofNat 1⟩]
  links := #[alley 0 1 (Binary64.ofNat 1) (Binary64.ofNat 1), alley 1 2 (Binary64.ofNat 1) (Binary64.ofNat 1),
    alley 2 3 (Binary64.ofNat 1) (Binary64.ofNat 1), alley 3 4 (Binary64.ofNat 1) (Binary64.ofNat 1),
    alley 4 0 (Binary64.ofNat 1) (Binary64.ofNat 1)]

/-- Its network. -/
def riverbankNetwork : Network where
  nodes := riverbank.nodes
  links := riverbank.links
  outStart := #[0, 1, 2, 3, 4, 5]

lemma build_riverbank : riverbank.build = .ok riverbankNetwork :=
  build_of_pairwise (by decide +kernel) (by decide +kernel) (by decide +kernel) (by decide +kernel)

/-- The way along the river is divided between two workers, and among more workers than there are links. -/
theorem inStrips_riverbank : riverbank.build = .ok riverbankNetwork ∧
    (1 ≤ 2 ∧ 2 ≤ 65535 ∧ ∃ assignment, riverbankNetwork.strips 2 = .ok assignment ∧
      riverbankNetwork.InStrips 2 assignment) ∧
    (1 ≤ 65535 ∧ ∃ assignment, riverbankNetwork.strips 65535 = .ok assignment ∧
      riverbankNetwork.InStrips 65535 assignment) :=
  ⟨build_riverbank, ⟨by decide, by decide, inStrips build_riverbank (by decide) (by decide)⟩, by decide,
    inStrips build_riverbank (by decide) (by decide)⟩

end NetworkBuilder

end EventSim
