import EventSim.Network.Builder
import EventSim.Proofs.NearestNumber
import EventSim.Proofs.Traversal
import Mathlib.Data.List.Induction
import Mathlib.Data.List.Sort

set_option autoImplicit false

/-!
# Links in the order of their sources

A builder that is given nodes and links makes a network of them unless one of the links is not admissible; then the
first such link is reported, with the first thing that is wrong with it. The links of the network are those that were
given, in a stable order by the nodes they leave. So the links that leave a node stand together, and where they begin
is the number of links that leave nodes with smaller numbers: that is what the offsets of the network hold, as words.
The last offset is the number of all links just if that is a word, so a network that is built has a number for every
link.

## Main definitions

* `EventSim.Link.Admissible`, `EventSim.Link.Fault` — what a link must be like, and what is wrong with it first.
* `EventSim.Network.Arranges` — the network of given nodes and links.
* `EventSim.Network.Regular` — a network in which links join nodes, and are listed for the nodes they leave.
* `EventSim.NetworkBuilder.Addition` — what may be added to a builder.

## Main results

* `EventSim.NetworkBuilder.build_eq_ok_iff`, `EventSim.NetworkBuilder.build_eq_error_iff` — when there is a network,
  and what is reported otherwise.
* `EventSim.NetworkBuilder.linkCount_lt_of_build` — a network that is built has a number for every link.
* `EventSim.NetworkBuilder.outStart_eq` — the offsets count the links that leave smaller nodes.
* `EventSim.NetworkBuilder.arranges_of_build` — every network that is built arranges what was added.
* `EventSim.NetworkBuilder.faithful` — what becomes of nodes, links and roads that are added in any order.
-/

namespace EventSim

/-! ### Internal helpers: lists that are sorted by a key -/

section Keys

variable {α : Type} {key : α → Nat} {xs : List α}

lemma decide_key_trans (x y z : α) (hxy : decide (key x ≤ key y) = true) (hyz : decide (key y ≤ key z) = true) :
    decide (key x ≤ key z) = true := by
  rw [decide_eq_true_eq] at *
  exact Nat.le_trans hxy hyz

lemma decide_key_total (x y : α) : (decide (key x ≤ key y) || decide (key y ≤ key x)) = true := by
  rw [Bool.or_eq_true, decide_eq_true_eq, decide_eq_true_eq]
  exact Nat.le_total _ _

/-- A list that has been sorted by a key is in its order. -/
lemma pairwise_key_mergeSort (key : α → Nat) (xs : List α) :
    (xs.mergeSort fun x y => key x ≤ key y).Pairwise fun x y => key x ≤ key y :=
  (List.pairwise_mergeSort decide_key_trans decide_key_total xs).imp of_decide_eq_true

/-- A stable sort does not change the order of elements with the same key. -/
lemma filter_mergeSort (key : α → Nat) (xs : List α) (k : Nat) :
    (xs.mergeSort fun x y => key x ≤ key y).filter (key · = k) = xs.filter (key · = k) := by
  have hpairwise : (xs.filter (key · = k)).Pairwise fun x y => decide (key x ≤ key y) = true := by
    rw [List.pairwise_filter]
    refine List.pairwise_of_forall fun x y hx hy => ?_
    rw [decide_eq_true_eq] at *
    exact (hx.trans hy.symm).le
  -- the elements with the key are a part of the sorted list, and there are no others in it
  have hsub := (List.sublist_mergeSort decide_key_trans decide_key_total hpairwise
    List.filter_sublist).filter (key · = k)
  rw [List.filter_filter, List.filter_congr fun x _ => Bool.and_self _] at hsub
  exact (hsub.eq_of_length ((List.mergeSort_perm xs _).filter _).length_eq.symm).symm

/-- The elements with smaller keys come first. -/
lemma key_getElem_lt_iff (h : xs.Pairwise fun x y => key x ≤ key y) (k : Nat) {i : Nat} (hi : i < xs.length) :
    key xs[i] < k ↔ i < xs.countP (key · < k) := by
  induction xs generalizing i with
  | nil => exact absurd hi (Nat.not_lt_zero i)
  | cons x xs ih =>
    obtain ⟨hx, hxs⟩ := List.pairwise_cons.1 h
    by_cases hk : key x < k
    · rw [List.countP_cons_of_pos (by simpa using hk)]
      cases i with
      | zero => exact iff_of_true hk (Nat.succ_pos _)
      | succ i =>
        rw [List.getElem_cons_succ, ih hxs (Nat.lt_of_succ_lt_succ hi), Nat.succ_lt_succ_iff]
    · have hall : ∀ y ∈ x :: xs, ¬ key y < k := by
        intro y hy
        rcases List.mem_cons.1 hy with rfl | hy
        · exact hk
        · exact fun hlt => hk (Nat.lt_of_le_of_lt (hx y hy) hlt)
      rw [List.countP_eq_zero.2 (by simpa using hall)]
      exact iff_of_false (hall _ (List.getElem_mem hi)) (Nat.not_lt_zero i)

/-- Keys below the next number are those below the number, and the number itself. -/
lemma countP_lt_succ (key : α → Nat) (xs : List α) (k : Nat) :
    xs.countP (key · < k + 1) = xs.countP (key · < k) + xs.countP (key · = k) := by
  induction xs with
  | nil => rfl
  | cons x xs ih =>
    simp only [List.countP_cons, ih, decide_eq_true_eq]
    split_ifs <;> omega

end Keys

/-! ## Links that may be built -/

namespace Link

variable {l : Link} {nodeCount : Nat} {e : NetworkError}

/-- The value is finite and strictly positive. -/
def Measures (x : Binary64) : Prop := x.isFinite = true ∧ Binary64.zero.numericLt x = true

instance (x : Binary64) : Decidable (Measures x) :=
  inferInstanceAs (Decidable (x.isFinite = true ∧ Binary64.zero.numericLt x = true))

/-- The link joins nodes that exist, and it has a length, a speed and a capacity. -/
structure Admissible (nodeCount : Nat) (l : Link) : Prop where
  /-- The node it leaves exists. -/
  source_lt : l.source.index < nodeCount
  /-- The node it leads to exists. -/
  target_lt : l.target.index < nodeCount
  /-- Its length is finite and positive. -/
  length : Measures l.length
  /-- So is the speed on it, -/
  speed : Measures l.speed
  /-- and its capacity. -/
  capacity : Measures l.capacity

/-- What is wrong with a link first: its ends are looked at before its attributes. -/
inductive Fault (nodeCount : Nat) (l : Link) : NetworkError → Prop
  /-- The node it leaves does not exist. -/
  | source (h : nodeCount ≤ l.source.index) : l.Fault nodeCount (.nodeNotFound l.source)
  /-- The node it leads to does not exist. -/
  | target (hsource : l.source.index < nodeCount) (h : nodeCount ≤ l.target.index) :
    l.Fault nodeCount (.nodeNotFound l.target)
  /-- It has no length. -/
  | length (hsource : l.source.index < nodeCount) (htarget : l.target.index < nodeCount) (h : ¬ Measures l.length) :
    l.Fault nodeCount (.invalidLink l.source l.target .length l.length)
  /-- It has a length, but no speed. -/
  | speed (hsource : l.source.index < nodeCount) (htarget : l.target.index < nodeCount) (hlength : Measures l.length)
    (h : ¬ Measures l.speed) : l.Fault nodeCount (.invalidLink l.source l.target .speed l.speed)
  /-- It has a length and a speed, but no capacity. -/
  | capacity (hsource : l.source.index < nodeCount) (htarget : l.target.index < nodeCount)
    (hlength : Measures l.length) (hspeed : Measures l.speed) (h : ¬ Measures l.capacity) :
    l.Fault nodeCount (.invalidLink l.source l.target .capacity l.capacity)

/-- A link is admissible, or it has a fault. -/
lemma admissible_or_fault (nodeCount : Nat) (l : Link) : l.Admissible nodeCount ∨ ∃ e, l.Fault nodeCount e := by
  by_cases hsource : nodeCount ≤ l.source.index
  · exact Or.inr ⟨_, .source hsource⟩
  by_cases htarget : nodeCount ≤ l.target.index
  · exact Or.inr ⟨_, .target (Nat.not_le.1 hsource) htarget⟩
  rw [Nat.not_le] at hsource htarget
  by_cases hlength : Measures l.length
  · by_cases hspeed : Measures l.speed
    · by_cases hcapacity : Measures l.capacity
      · exact Or.inl ⟨hsource, htarget, hlength, hspeed, hcapacity⟩
      · exact Or.inr ⟨_, .capacity hsource htarget hlength hspeed hcapacity⟩
    · exact Or.inr ⟨_, .speed hsource htarget hlength hspeed⟩
  · exact Or.inr ⟨_, .length hsource htarget hlength⟩

/-- The check of a link whose ends exist looks at its attributes. -/
lemma checkLink_of_lt (hsource : l.source.index < nodeCount) (htarget : l.target.index < nodeCount) :
    NetworkBuilder.checkLink nodeCount l =
      if l.length.isPositiveFinite = true then
        if l.speed.isPositiveFinite = true then
          if l.capacity.isPositiveFinite = true then .ok ()
          else .error (.invalidLink l.source l.target .capacity l.capacity)
        else .error (.invalidLink l.source l.target .speed l.speed)
      else .error (.invalidLink l.source l.target .length l.length) := by
  unfold NetworkBuilder.checkLink
  rw [if_neg (Nat.not_le.2 hsource), if_neg (Nat.not_le.2 htarget)]
  dsimp only [bind, Except.bind]
  split_ifs <;> rfl

/-- An admissible link passes the check. -/
lemma Admissible.checkLink_eq (h : l.Admissible nodeCount) : NetworkBuilder.checkLink nodeCount l = .ok () := by
  rw [checkLink_of_lt h.source_lt h.target_lt, if_pos (Binary64.isPositiveFinite_iff_numericLt.2 h.length),
    if_pos (Binary64.isPositiveFinite_iff_numericLt.2 h.speed),
    if_pos (Binary64.isPositiveFinite_iff_numericLt.2 h.capacity)]

/-- The check of a link reports its fault. -/
lemma Fault.checkLink_eq (h : l.Fault nodeCount e) : NetworkBuilder.checkLink nodeCount l = .error e := by
  have hmeasures : ∀ x : Binary64, x.isPositiveFinite = true ↔ Measures x :=
    fun _ => Binary64.isPositiveFinite_iff_numericLt
  cases h with
  | source h => rw [NetworkBuilder.checkLink, if_pos h]; rfl
  | target hsource h => rw [NetworkBuilder.checkLink, if_neg (Nat.not_le.2 hsource), if_pos h]; rfl
  | length hsource htarget h => rw [checkLink_of_lt hsource htarget, if_neg (mt (hmeasures _).1 h)]
  | speed hsource htarget hlength h =>
    rw [checkLink_of_lt hsource htarget, if_pos ((hmeasures _).2 hlength), if_neg (mt (hmeasures _).1 h)]
  | capacity hsource htarget hlength hspeed h =>
    rw [checkLink_of_lt hsource htarget, if_pos ((hmeasures _).2 hlength), if_pos ((hmeasures _).2 hspeed),
      if_neg (mt (hmeasures _).1 h)]

/-- Just the admissible links pass the check. -/
lemma checkLink_eq_ok_iff : NetworkBuilder.checkLink nodeCount l = .ok () ↔ l.Admissible nodeCount := by
  refine ⟨fun h => (admissible_or_fault nodeCount l).resolve_right ?_, Admissible.checkLink_eq⟩
  rintro ⟨e, hfault⟩
  cases h.symm.trans hfault.checkLink_eq

/-- The check of a link reports what is wrong with it first. -/
lemma checkLink_eq_error_iff : NetworkBuilder.checkLink nodeCount l = .error e ↔ l.Fault nodeCount e := by
  refine ⟨fun h => ?_, Fault.checkLink_eq⟩
  rcases admissible_or_fault nodeCount l with hl | ⟨e', hfault⟩
  · cases h.symm.trans hl.checkLink_eq
  · cases h.symm.trans hfault.checkLink_eq
    exact hfault

instance : Decidable (l.Admissible nodeCount) :=
  decidable_of_iff (l.source.index < nodeCount ∧ l.target.index < nodeCount ∧ Measures l.length ∧ Measures l.speed ∧
      Measures l.capacity)
    ⟨fun ⟨hsource, htarget, hlength, hspeed, hcapacity⟩ => ⟨hsource, htarget, hlength, hspeed, hcapacity⟩,
      fun ⟨hsource, htarget, hlength, hspeed, hcapacity⟩ => ⟨hsource, htarget, hlength, hspeed, hcapacity⟩⟩

end Link

/-! ## Offsets -/

namespace NetworkBuilder

/-- One link more is counted for the node it leaves. -/
lemma outDegrees_concat (nodeCount : Nat) (links : List Link) (l : Link) :
    outDegrees nodeCount (links ++ [l]) = (outDegrees nodeCount links).modify l.source.index (· + 1) := by
  rw [outDegrees, List.foldl_append]
  rfl

/-- Each link counts for the node it leaves. -/
lemma getElem?_outDegrees {nodeCount i : Nat} (hi : i < nodeCount) (links : List Link) :
    (outDegrees nodeCount links)[i]? = some (UInt32.ofNat (links.countP (·.source.index = i))) := by
  induction links using List.reverseRecOn with
  | nil => simp [outDegrees, hi]
  | append_singleton links l ih =>
    rw [outDegrees_concat, Array.getElem?_modify, ih, List.countP_append, List.countP_singleton]
    simp only [decide_eq_true_eq]
    split_ifs
    · rw [UInt32.ofNat_add]
      rfl
    · rfl

lemma size_outDegrees (nodeCount : Nat) (links : List Link) : (outDegrees nodeCount links).size = nodeCount := by
  induction links using List.reverseRecOn with
  | nil => exact Array.size_replicate
  | append_singleton links l ih =>
    rw [outDegrees_concat, Array.size_modify, ih]

/-- The degrees of all nodes are counts of links. -/
lemma outDegrees_eq (nodeCount : Nat) (links : List Link) : (outDegrees nodeCount links).toList =
    (List.range nodeCount).map fun i => UInt32.ofNat (links.countP (·.source.index = i)) := by
  apply List.ext_getElem?
  intro i
  rw [Array.getElem?_toList, List.getElem?_map]
  rcases Nat.lt_or_ge i nodeCount with hi | hi
  · rw [getElem?_outDegrees hi, List.getElem?_range hi, Option.map_some]
  · rw [Array.getElem?_eq_none (by rwa [size_outDegrees]), List.getElem?_eq_none (by simpa using hi), Option.map_none]

/-- Running totals of the degrees, from some node on, are counts of links that leave smaller nodes. -/
lemma totals_degrees (links : List Link) (k d : Nat) :
    totals (UInt32.ofNat (links.countP (·.source.index < k)))
        ((List.range' k d).map fun i => UInt32.ofNat (links.countP (·.source.index = i))) =
      (List.range' k (d + 1)).map fun i => UInt32.ofNat (links.countP (·.source.index < i)) := by
  induction d generalizing k with
  | zero => rfl
  | succ d ih =>
    rw [List.range'_succ, List.map_cons, totals, ← UInt32.ofNat_add, ← countP_lt_succ, ih (k + 1),
      List.range'_succ (n := d + 1), List.map_cons]

/-- **The offsets count links**: where the links of a node begin is the number of links that leave smaller nodes. -/
theorem outStart_eq (nodeCount : Nat) (links : List Link) : totals 0 (outDegrees nodeCount links).toList =
    (List.range (nodeCount + 1)).map fun i => UInt32.ofNat (links.countP (·.source.index < i)) := by
  have hnone : links.countP (·.source.index < 0) = 0 := List.countP_eq_zero.2 (by simp)
  rw [outDegrees_eq, List.range_eq_range', List.range_eq_range', ← totals_degrees, hnone]
  rfl

end NetworkBuilder

/-! ## Networks that are built -/

/-- The network has the given nodes, and the given links in a stable order by the nodes they leave. -/
structure Network.Arranges (n : Network) (points : List Point) (rows : List Link) : Prop where
  /-- The nodes are the given ones. -/
  nodes_eq : n.nodes.toList = points
  /-- The links are the given ones, each with its ends and its attributes. -/
  perm : n.links.toList.Perm rows
  /-- They are in the order of the nodes they leave. -/
  sorted : n.links.toList.Pairwise fun l m => l.source.index ≤ m.source.index
  /-- Those that leave one node are in the order in which they were given. -/
  stable : ∀ v : NodeId, n.links.toList.filter (·.source = v) = rows.filter (·.source = v)
  /-- There is one offset for each node, and one for the end. -/
  size_outStart : n.outStart.size = n.nodeCount + 1
  /-- The offsets begin at zero, -/
  first_outStart : n.outStart[0]? = some 0
  /-- they do not fall, -/
  sorted_outStart : n.outStart.toList.Pairwise (· ≤ ·)
  /-- and they end with the number of links. -/
  last_outStart : n.outStart[n.nodeCount]?.map (·.toNat) = some n.linkCount
  /-- The links that are listed for a node are those that leave it. -/
  mem_outLinks_iff : ∀ (v : NodeId) (l : LinkId), l ∈ n.outLinks v ↔ ∃ link, n.link? l = some link ∧ link.source = v
  /-- Each of them is listed once, and they are in order. -/
  sorted_outLinks : ∀ v : NodeId, (n.outLinks v).Pairwise (· < ·)
  /-- As many links are counted for a node as leave it. -/
  outDegree_eq : ∀ v : NodeId, v.index < n.nodeCount → n.outDegree? v = some (rows.countP (·.source = v))

/-- What a search relies on: links join nodes that exist, and are listed for the nodes they leave. -/
structure Network.Regular (n : Network) : Prop where
  /-- The node that a link leaves exists. -/
  source_lt : ∀ (l : LinkId) (link : Link), n.link? l = some link → link.source.index < n.nodeCount
  /-- The node that a link leads to exists. -/
  target_lt : ∀ (l : LinkId) (link : Link), n.link? l = some link → link.target.index < n.nodeCount
  /-- The links that are listed for a node are those that leave it. -/
  mem_outLinks_iff : ∀ (v : NodeId) (l : LinkId), l ∈ n.outLinks v ↔ ∃ link, n.link? l = some link ∧ link.source = v

namespace NetworkBuilder

variable {b : NetworkBuilder} {n : Network} {e : NetworkError} {v : NodeId}

lemma perm_arranged (b : NetworkBuilder) : b.arranged.links.toList.Perm b.links.toList :=
  List.mergeSort_perm _ _

/-- There are as many links as were added. -/
lemma length_arranged (b : NetworkBuilder) : b.arranged.links.toList.length = b.links.size := by
  rw [b.perm_arranged.length_eq, Array.length_toList]

lemma pairwise_arranged (b : NetworkBuilder) :
    b.arranged.links.toList.Pairwise fun l m => l.source.index ≤ m.source.index :=
  pairwise_key_mergeSort (fun l : Link => l.source.index) _

lemma outStart_arranged (b : NetworkBuilder) : b.arranged.outStart.toList =
    (List.range (b.nodes.size + 1)).map fun i =>
      UInt32.ofNat (b.arranged.links.toList.countP (·.source.index < i)) :=
  outStart_eq _ _

/-- The offset of a node. -/
lemma getElem?_outStart_arranged (b : NetworkBuilder) {i : Nat} (hi : i ≤ b.nodes.size) :
    b.arranged.outStart[i]? = some (UInt32.ofNat (b.arranged.links.toList.countP (·.source.index < i))) := by
  rw [← Array.getElem?_toList, outStart_arranged, List.getElem?_map, List.getElem?_range (Nat.lt_succ_of_le hi)]
  rfl

/-! ### When there is a network -/

/-- All links leave nodes, if they are admissible. -/
lemma countP_lt_size (hlinks : ∀ l ∈ b.links.toList, l.Admissible b.nodes.size) :
    b.arranged.links.toList.countP (·.source.index < b.nodes.size) = b.links.size := by
  have hall : b.links.toList.countP (·.source.index < b.nodes.size) = b.links.toList.length :=
    List.countP_eq_length.2 fun l hl => decide_eq_true (hlinks l hl).source_lt
  rw [b.perm_arranged.countP_eq, hall, Array.length_toList]

/-- Admissible links are built, if the number of them is a word. -/
lemma build_of_admissible (hlinks : ∀ l ∈ b.links.toList, l.Admissible b.nodes.size) :
    b.build = if b.links.size < UInt32.size then .ok b.arranged
      else .error (.crash (Crash.unequal (b.links.size % UInt32.size) b.links.size)) := by
  have hforM : b.links.toList.forM (checkLink b.nodes.size) = .ok () :=
    forM_eq_ok_iff.2 fun l hl => (hlinks l hl).checkLink_eq
  have hsize : b.arranged.outStart.size = b.nodes.size + 1 := by
    rw [← Array.length_toList, outStart_arranged, List.length_map, List.length_range]
  have hlast : (b.arranged.outStart.back?.getD 0).toNat = b.links.size % UInt32.size := by
    rw [Array.back?_eq_getElem?, hsize, Nat.add_sub_cancel, getElem?_outStart_arranged b (Nat.le_refl _),
      countP_lt_size hlinks, Option.getD_some, UInt32.toNat_ofNat']
  have hcount : b.arranged.linkCount = b.links.size := b.length_arranged
  unfold build
  rw [hforM]
  simp only [Except.mapError, bind, Except.bind, hlast, hcount]
  by_cases hlt : b.links.size < UInt32.size
  · rw [if_neg (not_not.2 (Nat.mod_eq_of_lt hlt)), if_pos hlt]
    rfl
  · have hne : b.links.size % UInt32.size ≠ b.links.size := fun heq =>
      hlt (heq ▸ Nat.mod_lt _ (by decide))
    rw [if_pos hne, if_neg hlt]
    rfl

/-- Otherwise the first link that is not admissible is reported. -/
lemma build_of_checkLink_error (h : b.links.toList.forM (checkLink b.nodes.size) = .error e) :
    b.build = .error (.error e) := by
  unfold build
  rw [h]
  rfl

/-- **A network is built** of admissible links, if the number of them is a word. -/
theorem build_eq_ok_iff : b.build = .ok n ↔
    (∀ l ∈ b.links.toList, l.Admissible b.nodes.size) ∧ b.links.size < UInt32.size ∧ n = b.arranged := by
  simp only [← Link.checkLink_eq_ok_iff, ← forM_eq_ok_iff]
  cases hforM : b.links.toList.forM (checkLink b.nodes.size) with
  | error e =>
    rw [build_of_checkLink_error hforM]
    exact iff_of_false (by simp) (by simp)
  | ok u =>
    rw [build_of_admissible fun l hl => Link.checkLink_eq_ok_iff.1 (forM_eq_ok_iff.1 hforM l hl), and_iff_right rfl]
    split
    · next hlt => rw [and_iff_right hlt, Except.ok.injEq, eq_comm]
    · next hlt => exact iff_of_false (by simp) fun h => hlt h.1

/-- Links that are in the order of the nodes they leave stay where they are. -/
lemma build_of_pairwise {outStart : Array UInt32} (hlinks : ∀ l ∈ b.links.toList, l.Admissible b.nodes.size)
    (hsize : b.links.size < UInt32.size)
    (hsorted : b.links.toList.Pairwise fun l m => decide (l.source.index ≤ m.source.index) = true)
    (hstart : (totals 0 (outDegrees b.nodes.size b.links.toList).toList).toArray = outStart) :
    b.build = .ok ⟨b.nodes, b.links, outStart⟩ := by
  refine build_eq_ok_iff.2 ⟨hlinks, hsize, ?_⟩
  rw [arranged, List.mergeSort_of_pairwise hsorted, Array.toArray_toList, hstart]

/-- **The first link that is not admissible is reported.** -/
theorem build_eq_error_iff : b.build = .error (.error e) ↔ ∃ before l after, b.links.toList = before ++ l :: after ∧
    (∀ m ∈ before, m.Admissible b.nodes.size) ∧ l.Fault b.nodes.size e := by
  simp only [← Link.checkLink_eq_ok_iff, ← Link.checkLink_eq_error_iff, ← forM_eq_error_iff]
  cases hforM : b.links.toList.forM (checkLink b.nodes.size) with
  | error e' =>
    rw [build_of_checkLink_error hforM, Except.error.injEq, Except.error.injEq, NoResult.error.injEq]
  | ok u =>
    rw [build_of_admissible fun l hl => Link.checkLink_eq_ok_iff.1 (forM_eq_ok_iff.1 hforM l hl)]
    split <;> simp

/-- **Every link of a network that is built has a number.** -/
theorem linkCount_lt_of_build (h : b.build = .ok n) : n.linkCount < UInt32.size := by
  obtain ⟨-, hsize, rfl⟩ := build_eq_ok_iff.1 h
  exact b.length_arranged.trans_lt hsize

/-! ### Where the links of a node are -/

/-- The offsets are numbers of links, if the number of all links is a word. -/
lemma toNat_ofNat_countP (hsize : b.links.size < UInt32.size) (k : Nat) :
    (UInt32.ofNat (b.arranged.links.toList.countP (·.source.index < k))).toNat =
      b.arranged.links.toList.countP (·.source.index < k) := by
  have hle := List.countP_le_length (l := b.arranged.links.toList) (p := fun l : Link => decide (l.source.index < k))
  rw [UInt32.toNat_ofNat', Nat.mod_eq_of_lt (Nat.lt_of_le_of_lt (b.length_arranged ▸ hle) hsize)]

/-- The links of a node stand between two offsets. -/
lemma outRange?_arranged (hsize : b.links.size < UInt32.size) (hv : v.index < b.nodes.size) :
    ∃ start stop, b.arranged.outRange? v = some (start, stop) ∧
      start.toNat = b.arranged.links.toList.countP (·.source.index < v.index) ∧
      stop.toNat = b.arranged.links.toList.countP (·.source.index < v.index + 1) := by
  refine ⟨_, _, ?_, toNat_ofNat_countP hsize _, toNat_ofNat_countP hsize _⟩
  rw [Network.outRange?, getElem?_outStart_arranged b (Nat.le_of_lt hv), getElem?_outStart_arranged b hv]
  rfl

/-- A node that does not exist has no links. -/
lemma outRange?_arranged_of_le (hv : b.nodes.size ≤ v.index) : b.arranged.outRange? v = none := by
  have hsize : b.arranged.outStart.size = b.nodes.size + 1 := by
    rw [← Array.length_toList, outStart_arranged, List.length_map, List.length_range]
  rw [Network.outRange?, Array.getElem?_eq_none (i := v.index + 1) (by omega)]
  cases b.arranged.outStart[v.index]? <;> rfl

/-- The links that are listed for a node are those that leave it. -/
lemma mem_outLinks_arranged (hlinks : ∀ l ∈ b.links.toList, l.Admissible b.nodes.size)
    (hsize : b.links.size < UInt32.size) (v : NodeId) (l : LinkId) :
    l ∈ b.arranged.outLinks v ↔ ∃ link, b.arranged.link? l = some link ∧ link.source = v := by
  have hlength := b.length_arranged
  have hlink : ∀ link, b.arranged.link? l = some link ↔ b.arranged.links.toList[l.index]? = some link := fun link => by
    rw [Network.link?, ← Array.getElem?_toList]
  rcases Nat.lt_or_ge v.index b.nodes.size with hv | hv
  · have hkey := fun k => key_getElem_lt_iff b.pairwise_arranged k (i := l.index)
    have hcount := fun k : Nat => List.countP_le_length (l := b.arranged.links.toList)
      (p := fun m : Link => decide (m.source.index < k))
    obtain ⟨start, stop, hrange, hstartNat, hstopNat⟩ := outRange?_arranged hsize hv
    simp only [Network.outLinks, hrange, List.mem_map, List.mem_range'_1, hlink, hstartNat, hstopNat]
    constructor
    · rintro ⟨i, ⟨hstart, hstop⟩, rfl⟩
      have hi : i < b.arranged.links.toList.length := by have := hcount (v.index + 1); omega
      have hindex : (Id.ofNat i : LinkId).index = i := Nat.mod_eq_of_lt (Nat.lt_trans (hlength ▸ hi) hsize)
      rw [hindex] at hkey ⊢
      refine ⟨_, List.getElem?_eq_getElem hi, Id.ext_index ?_⟩
      have hge := mt (hkey v.index hi).1 (by omega)
      have hlt := (hkey (v.index + 1) hi).2 (by omega)
      omega
    · rintro ⟨link, hl, rfl⟩
      obtain ⟨hi, rfl⟩ := List.getElem?_eq_some_iff.1 hl
      have hge := mt (hkey _ hi).2 (Nat.lt_irrefl _)
      have hlt := (hkey (b.arranged.links.toList[l.index].source.index + 1) hi).1 (Nat.lt_succ_self _)
      exact ⟨l.index, by omega, Id.ext_index (Nat.mod_eq_of_lt l.index_lt)⟩
  · rw [Network.outLinks, outRange?_arranged_of_le hv]
    apply iff_of_false List.not_mem_nil
    rintro ⟨link, hl, rfl⟩
    have hmem := b.perm_arranged.mem_iff.1 (List.mem_of_getElem? ((hlink link).1 hl))
    exact Nat.not_lt.2 hv (hlinks link hmem).source_lt

/-- The links of a node are listed in order. -/
lemma sorted_outLinks_arranged (hsize : b.links.size < UInt32.size) (v : NodeId) :
    (b.arranged.outLinks v).Pairwise (· < ·) := by
  rcases Nat.lt_or_ge v.index b.nodes.size with hv | hv
  · obtain ⟨start, stop, hrange, hstart, hstop⟩ := outRange?_arranged hsize hv
    rw [Network.outLinks, hrange, List.pairwise_map]
    refine List.Pairwise.imp_of_mem (fun hi hj hlt => ?_) List.pairwise_lt_range'
    have hcount : b.arranged.links.toList.countP (·.source.index < v.index + 1) ≤ b.links.size := by
      rw [← b.length_arranged]
      exact List.countP_le_length
    have hindex : ∀ {i : Nat}, i < b.links.size → (Id.ofNat i : LinkId).index = i := fun hi =>
      Nat.mod_eq_of_lt (Nat.lt_trans hi hsize)
    rw [List.mem_range'_1] at hi hj
    change (Id.ofNat _ : LinkId).index < (Id.ofNat _ : LinkId).index
    rw [hindex (by omega), hindex (by omega)]
    exact hlt
  · rw [Network.outLinks, outRange?_arranged_of_le hv]
    exact List.Pairwise.nil

/-- **Every network that is built arranges what was added.**

**Proof sketch.** The offsets count the links that leave smaller nodes (`outStart_eq`). In a list that is sorted by the
nodes that links leave, these are the first so many (`key_getElem_lt_iff`). So between the offset of a node and the
next one there are just its links. -/
theorem arranges_of_build (h : b.build = .ok n) : n.Arranges b.nodes.toList b.links.toList := by
  obtain ⟨hlinks, hsize, rfl⟩ := build_eq_ok_iff.1 h
  have hsource : ∀ (v : NodeId) (l : Link), l.source = v ↔ l.source.index = v.index := fun v l =>
    ⟨congrArg Id.index, Id.ext_index⟩
  have hcount : ∀ i, b.arranged.links.toList.countP (·.source.index < i) =
      b.links.toList.countP (·.source.index < i) := fun i => b.perm_arranged.countP_eq _
  constructor
  case nodes_eq => rfl
  case perm => exact b.perm_arranged
  case sorted => exact b.pairwise_arranged
  case stable =>
    intro v
    simp only [hsource]
    exact filter_mergeSort (fun l : Link => l.source.index) _ _
  case size_outStart =>
    rw [← Array.length_toList, outStart_arranged, List.length_map, List.length_range]
    rfl
  case first_outStart =>
    rw [getElem?_outStart_arranged b (Nat.zero_le _), List.countP_eq_zero.2 (by simp)]
    rfl
  case sorted_outStart =>
    rw [outStart_arranged, List.pairwise_map]
    refine List.pairwise_lt_range.imp fun {i j} hij => ?_
    rw [UInt32.le_iff_toNat_le, toNat_ofNat_countP hsize, toNat_ofNat_countP hsize]
    refine List.countP_mono_left fun l _ hl => ?_
    rw [decide_eq_true_eq] at *
    exact Nat.lt_trans hl hij
  case last_outStart =>
    have hlast := getElem?_outStart_arranged b (Nat.le_refl _)
    rw [countP_lt_size hlinks] at hlast
    rw [show b.arranged.nodeCount = b.nodes.size from rfl, hlast, Option.map_some, UInt32.toNat_ofNat',
      Nat.mod_eq_of_lt hsize]
    exact congrArg some b.length_arranged.symm
  case mem_outLinks_iff => exact mem_outLinks_arranged hlinks hsize
  case sorted_outLinks => exact sorted_outLinks_arranged hsize
  case outDegree_eq =>
    intro v hv
    simp only [hsource]
    obtain ⟨start, stop, hrange, hstart, hstop⟩ := outRange?_arranged hsize hv
    rw [hcount] at hstart
    rw [hcount, countP_lt_succ] at hstop
    have hle : start ≤ stop := UInt32.le_iff_toNat_le.2 (by omega)
    have hdegree : (stop - start).toNat = b.links.toList.countP (·.source.index = v.index) := by
      rw [UInt32.toNat_sub_of_le _ _ hle, hstart, hstop, Nat.add_sub_cancel_left]
    rw [Network.outDegree?, hrange, ← hdegree]
    rfl

/-- Every network that is built is regular. -/
theorem regular_of_build (h : b.build = .ok n) : n.Regular := by
  have harranges := arranges_of_build h
  obtain ⟨hlinks, -, rfl⟩ := build_eq_ok_iff.1 h
  have hadmissible : ∀ (l : LinkId) (link : Link), b.arranged.link? l = some link → link.Admissible b.nodes.size :=
    fun l link hl => hlinks link (b.perm_arranged.mem_iff.1 (Array.mem_toList_iff.2 (Array.mem_of_getElem? hl)))
  exact ⟨fun l link hl => (hadmissible l link hl).source_lt, fun l link hl => (hadmissible l link hl).target_lt,
    harranges.mem_outLinks_iff⟩

/-! ## Additions -/

/-- What may be added to a builder. -/
inductive Addition where
  /-- A node. -/
  | node (p : Point)
  /-- A link. -/
  | link (l : Link)
  /-- A link, and the link in the opposite direction. -/
  | road (l : Link)

namespace Addition

/-- Adds to a builder. -/
def addTo (b : NetworkBuilder) : Addition → NetworkBuilder
  | node p => (b.addNode p).2
  | link l => b.addLink l
  | road l => b.addRoad l

/-- The nodes that are added. -/
def points : Addition → List Point
  | node p => [p]
  | link _ | road _ => []

/-- The links that are added. -/
def rows : Addition → List Link
  | node _ => []
  | link l => [l]
  | road l => [l, { l with source := l.target, target := l.source }]

end Addition

/-- The builder to which so much has been added in order. -/
def ofAdditions (additions : List Addition) : NetworkBuilder := additions.foldl Addition.addTo {}

/-- A builder keeps what is added to it, in order. -/
lemma toList_ofAdditions (additions : List Addition) :
    (ofAdditions additions).nodes.toList = additions.flatMap (·.points) ∧
      (ofAdditions additions).links.toList = additions.flatMap (·.rows) := by
  induction additions using List.reverseRecOn with
  | nil => exact ⟨rfl, rfl⟩
  | append_singleton additions a ih =>
    have hfold : ofAdditions (additions ++ [a]) = a.addTo (ofAdditions additions) := by
      rw [ofAdditions, List.foldl_append]
      rfl
    rw [hfold, List.flatMap_append, List.flatMap_append, ← ih.1, ← ih.2]
    cases a <;> simp [Addition.addTo, Addition.points, Addition.rows, addNode, addLink, addRoad]

/-- What became of nodes and links that were added to a builder, when a network was to be built of them. -/
structure Faithful (additions : List Addition) : Prop where
  /-- There is a network just if all links are admissible. -/
  built_iff : (∃ n, (ofAdditions additions).build = .ok n) ↔
    ∀ l ∈ additions.flatMap (·.rows), l.Admissible (additions.flatMap (·.points)).length
  /-- Otherwise the first link that is not is reported. -/
  failed_iff : ∀ e, (ofAdditions additions).build = .error (.error e) ↔
    ∃ before l after, additions.flatMap (·.rows) = before ++ l :: after ∧
      (∀ m ∈ before, m.Admissible (additions.flatMap (·.points)).length) ∧
      l.Fault (additions.flatMap (·.points)).length e
  /-- The network arranges what was added. -/
  arranges : ∀ n, (ofAdditions additions).build = .ok n →
    n.Arranges (additions.flatMap (·.points)) (additions.flatMap (·.rows))

/-- **Building is faithful** to all nodes, links and roads that are added in any order, as long as there are numbers
for the links. -/
theorem faithful (additions : List Addition) (hsize : (additions.flatMap (·.rows)).length < UInt32.size) :
    Faithful additions := by
  obtain ⟨hpoints, hrows⟩ := toList_ofAdditions additions
  rw [← hrows, Array.length_toList] at hsize
  constructor
  · simp only [build_eq_ok_iff, ← hpoints, ← hrows, Array.length_toList, exists_and_left, exists_eq, and_true, hsize,
      true_and]
  · intro e
    rw [build_eq_error_iff, ← hpoints, ← hrows, Array.length_toList]
  · intro n h
    rw [← hpoints, ← hrows]
    exact arranges_of_build h

/-! ## An old town -/

/-- A link of an old town. -/
def alley (source target : Nat) (length speed : Binary64) : Link :=
  ⟨Id.ofNat source, Id.ofNat target, length, speed, Binary64.ofNat 1800⟩

/-- An old town, added in no order: there is a road that takes no time, a loop, two ways from one place to another, and
a place that cannot be left or reached. -/
def oldTown : List Addition :=
  let place := Addition.node ⟨Binary64.zero, Binary64.zero⟩
  [.link (alley 1 3 (Binary64.ofNat 100) (Binary64.ofNat 10)), place,
    .road (alley 0 1 (Binary64.ofDecimal 1 (-3)) (Binary64.ofNat 10)), place, place,
    .link (alley 0 2 (Binary64.ofNat 100) (Binary64.ofNat 10)),
    .link (alley 2 2 (Binary64.ofNat 100) (Binary64.ofNat 10)),
    .link (alley 1 2 (Binary64.ofNat 100) (Binary64.ofNat 20)), place,
    .link (alley 1 2 (Binary64.ofNat 100) (Binary64.ofNat 10)),
    .link (alley 2 3 (Binary64.ofNat 1) (Binary64.ofNat 10)), place]

/-- The network of the old town. -/
def oldTownNetwork : Network where
  nodes := Array.replicate 5 ⟨Binary64.zero, Binary64.zero⟩
  links := #[alley 0 1 (Binary64.ofDecimal 1 (-3)) (Binary64.ofNat 10),
    alley 0 2 (Binary64.ofNat 100) (Binary64.ofNat 10),
    alley 1 3 (Binary64.ofNat 100) (Binary64.ofNat 10),
    alley 1 0 (Binary64.ofDecimal 1 (-3)) (Binary64.ofNat 10),
    alley 1 2 (Binary64.ofNat 100) (Binary64.ofNat 20),
    alley 1 2 (Binary64.ofNat 100) (Binary64.ofNat 10),
    alley 2 2 (Binary64.ofNat 100) (Binary64.ofNat 10),
    alley 2 3 (Binary64.ofNat 1) (Binary64.ofNat 10)]
  outStart := #[0, 2, 6, 8, 8, 8]

/-- The network is what is built of the old town. -/
lemma build_oldTown : (ofAdditions oldTown).build = .ok oldTownNetwork := by
  have hsort : ((ofAdditions oldTown).links.toList.mergeSort fun l m => l.source.index ≤ m.source.index) =
      oldTownNetwork.links.toList := by
    rw [(toList_ofAdditions oldTown).2]
    simp [oldTown, oldTownNetwork, Addition.rows, alley, Id.ofNat, IdKind.capacity, UInt32.size, List.mergeSort]
  refine build_eq_ok_iff.2 ⟨by decide +kernel, by decide +kernel, ?_⟩
  rw [arranged, hsort]
  decide +kernel

/-- The old town is built faithfully. -/
theorem faithful_oldTown : (oldTown.flatMap (·.rows)).length < UInt32.size ∧
    (∃ n, (ofAdditions oldTown).build = .ok n ∧
      n.Arranges (oldTown.flatMap (·.points)) (oldTown.flatMap (·.rows))) := by
  have hsize : (oldTown.flatMap (·.rows)).length < UInt32.size := by decide
  exact ⟨hsize, oldTownNetwork, build_oldTown, (faithful oldTown hsize).arranges _ build_oldTown⟩

end NetworkBuilder

end EventSim
