import EventSim.Network.Load
import EventSim.Proofs.Adjacency

set_option autoImplicit false

/-!
# Networks from records

A network is loaded from records of nodes and of links. Nodes have identities of their own there; in the network their
numbers are their places among the records, as words of 32 bits. So a network can be loaded just if no identity occurs
twice, the ends of all links are listed, and all links have a length, a speed and a capacity, as long as there are
numbers for the nodes and the links. Its links are then the records, brought into the
order of the nodes they leave. Otherwise there is a flaw, and which one is reported is decided in this order: the
first node whose identity has occurred before, the first link with an end that is not listed, the first link without
one of its attributes.

## Main definitions

* `EventSim.Network.ofRecords` — the network of records of nodes and links.
* `EventSim.NodeRow.place` — the number that an identity gets.
* `EventSim.LinkRow.numbered`, `EventSim.Link.row?` — the link of a record, and the record of a link.
* `EventSim.Loadable`, `EventSim.Flaw` — records of which a network can be made, and what is wrong with others.
* `EventSim.LinkRow.Arranges` — the order of the links.

## Main results

* `EventSim.readNodes_eq_ok`, `EventSim.readLinks_eq_ok` — what is read from records without flaws.
* `EventSim.ofRecords_eq_ok_iff`, `EventSim.ofRecords_eq_error_iff` — when there is a network, and what is reported
  otherwise.
* `EventSim.Network.renames` — loading renames the nodes, and does nothing else, as far as there are numbers.
* `EventSim.Network.not_renames` — that is needed.
-/

namespace EventSim

/-! ## Records -/

/-- The fields of a record of a node. -/
def NodeRow.cells (r : NodeRow) : List Cell := [.whole r.id, .real r.position.x, .real r.position.y]

/-- The fields of a record of a link. -/
def LinkRow.cells (r : LinkRow) : List Cell :=
  [.whole r.source, .whole r.target, .real r.length, .real r.speed, .real r.capacity]

/-- The network of records of nodes and links. -/
def Network.ofRecords (nodes : List NodeRow) (links : List LinkRow) : Except BuildFailure Network :=
  Network.ofRows (nodes.map fun r => .ok r.cells) (links.map fun r => .ok r.cells)

/-- The place of a node among the records, which becomes its number. -/
def NodeRow.place (nodes : List NodeRow) (id : Nat) : Nat := (nodes.map (·.id)).idxOf id

/-- The link of a record: its ends are the numbers of the nodes. -/
def LinkRow.numbered (nodes : List NodeRow) (r : LinkRow) : Link :=
  ⟨Id.ofNat (NodeRow.place nodes r.source), Id.ofNat (NodeRow.place nodes r.target), r.length, r.speed, r.capacity⟩

/-- The record of a link: its ends are the identities of the nodes. -/
def Link.row? (nodes : List NodeRow) (l : Link) : Option LinkRow := do
  return ⟨(← nodes[l.source.index]?).id, (← nodes[l.target.index]?).id, l.length, l.speed, l.capacity⟩

namespace LinkRow

/-- Both ends of the link are listed. -/
def Listed (nodes : List NodeRow) (r : LinkRow) : Prop := r.source ∈ nodes.map (·.id) ∧ r.target ∈ nodes.map (·.id)

/-- The end of a link that is not listed; the begin is looked at before the end. -/
inductive Unlisted (nodes : List NodeRow) (r : LinkRow) : Nat → Prop
  /-- The node that it leaves is not listed. -/
  | source (h : r.source ∉ nodes.map (·.id)) : r.Unlisted nodes r.source
  /-- The node that it leaves is listed, and the one that it leads to is not. -/
  | target (hsource : r.source ∈ nodes.map (·.id)) (h : r.target ∉ nodes.map (·.id)) : r.Unlisted nodes r.target

/-- The link has a length, a speed and a capacity. -/
def Measured (r : LinkRow) : Prop := Link.Measures r.length ∧ Link.Measures r.speed ∧ Link.Measures r.capacity

/-- Records of links in the order of the nodes they leave; those that leave one node stay in their order. -/
structure Arranges (nodes : List NodeRow) (rows links : List LinkRow) : Prop where
  /-- The records are the same. -/
  perm : rows.Perm links
  /-- They are in the order of the records of the nodes they leave. -/
  sorted : rows.Pairwise fun r s => NodeRow.place nodes r.source ≤ NodeRow.place nodes s.source
  /-- Those that leave one node are in the order in which they were given. -/
  stable : ∀ id, rows.filter (·.source = id) = links.filter (·.source = id)

lemma listed_or_unlisted (nodes : List NodeRow) (r : LinkRow) : r.Listed nodes ∨ ∃ node, r.Unlisted nodes node := by
  by_cases hsource : r.source ∈ nodes.map (·.id)
  · by_cases htarget : r.target ∈ nodes.map (·.id)
    · exact Or.inl ⟨hsource, htarget⟩
    · exact Or.inr ⟨_, .target hsource htarget⟩
  · exact Or.inr ⟨_, .source hsource⟩

end LinkRow

/-- Records of which a network can be made. -/
structure Loadable (nodes : List NodeRow) (links : List LinkRow) : Prop where
  /-- No identity occurs twice. -/
  nodup : (nodes.map (·.id)).Nodup
  /-- The ends of all links are listed. -/
  listed : ∀ r ∈ links, r.Listed nodes
  /-- All links have a length, a speed and a capacity. -/
  measured : ∀ r ∈ links, r.Measured

/-- What is wrong first with records of which no network can be made. -/
inductive Flaw (nodes : List NodeRow) (links : List LinkRow) : NetworkError → Prop
  /-- An identity has occurred before. -/
  | duplicate {before after : List NodeRow} {r : NodeRow} (hnodes : nodes = before ++ r :: after)
    (hnodup : (before.map (·.id)).Nodup) (h : r.id ∈ before.map (·.id)) : Flaw nodes links (.duplicateNode r.id)
  /-- No identity occurs twice, and an end of a link is not listed. -/
  | unlisted {before after : List LinkRow} {r : LinkRow} {node : Nat} (hnodup : (nodes.map (·.id)).Nodup)
    (hlinks : links = before ++ r :: after) (hbefore : ∀ m ∈ before, m.Listed nodes) (h : r.Unlisted nodes node) :
    Flaw nodes links (.unknownNode before.length node)
  /-- No identity occurs twice, the ends of all links are listed, and a link cannot be built. -/
  | unmeasured {before after : List LinkRow} {r : LinkRow} {e : NetworkError} (hnodup : (nodes.map (·.id)).Nodup)
    (hlisted : ∀ m ∈ links, m.Listed nodes) (hlinks : links = before ++ r :: after)
    (hbefore : ∀ m ∈ before, m.Measured) (h : (r.numbered nodes).Fault nodes.length e) : Flaw nodes links e

section Places

variable {nodes : List NodeRow} {r : LinkRow} {node : Nat}

/-- A node that is listed has a place. -/
lemma place_lt (h : node ∈ nodes.map (·.id)) : NodeRow.place nodes node < nodes.length := by
  rw [NodeRow.place, ← List.length_map (·.id)]
  exact List.idxOf_lt_length_iff.2 h

/-- A node that is listed has its place as number. -/
lemma renumber_of_mem (row : Nat) (h : node ∈ nodes.map (·.id)) :
    Network.renumber nodes.toArray row node = .ok (Id.ofNat (NodeRow.place nodes node)) := by
  have hfind : nodes.findIdx? (·.id = node) = some (NodeRow.place nodes node) := by
    rw [List.findIdx?_eq_some_iff_findIdx_eq, NodeRow.place, List.idxOf, List.findIdx_map]
    exact ⟨by simpa [NodeRow.place, List.idxOf, List.findIdx_map] using place_lt h, rfl⟩
  rw [Network.renumber, List.findIdx?_toArray, hfind]

/-- A node that is not listed has no number. -/
lemma renumber_of_not_mem (row : Nat) (h : node ∉ nodes.map (·.id)) :
    Network.renumber nodes.toArray row node = .error (.unknownNode row node) := by
  have hfind : nodes.findIdx? (·.id = node) = none := by
    rw [List.findIdx?_eq_none_iff]
    exact fun r hr => decide_eq_false fun heq => h (List.mem_map.2 ⟨r, hr, heq⟩)
  rw [Network.renumber, List.findIdx?_toArray, hfind]

/-- The record of the link of a record is that record, as long as there are numbers for all nodes. -/
lemma row?_numbered (h : r.Listed nodes) (hsize : nodes.length ≤ UInt32.size) :
    (r.numbered nodes).row? nodes = some r := by
  have hid : ∀ {node : Nat}, node ∈ nodes.map (·.id) →
      (nodes[(Id.ofNat (NodeRow.place nodes node) : NodeId).index]?).map (·.id) = some node := by
    intro node hmem
    have hindex : (Id.ofNat (NodeRow.place nodes node) : NodeId).index = NodeRow.place nodes node :=
      Nat.mod_eq_of_lt (Nat.lt_of_lt_of_le (place_lt hmem) hsize)
    rw [hindex, ← List.getElem?_map]
    exact List.getElem?_idxOf hmem
  obtain ⟨source, hsource, hsource'⟩ := Option.map_eq_some_iff.1 (hid h.1)
  obtain ⟨target, htarget, htarget'⟩ := Option.map_eq_some_iff.1 (hid h.2)
  rw [Link.row?, LinkRow.numbered, hsource, htarget]
  simp [hsource', htarget']

/-- The link of a record may be built if the record has a length, a speed and a capacity. -/
lemma admissible_numbered_iff (h : r.Listed nodes) : (r.numbered nodes).Admissible nodes.length ↔ r.Measured :=
  ⟨fun hadmissible => ⟨hadmissible.length, hadmissible.speed, hadmissible.capacity⟩,
    fun hmeasured => ⟨Nat.lt_of_le_of_lt (Nat.mod_le _ _) (place_lt h.1),
      Nat.lt_of_le_of_lt (Nat.mod_le _ _) (place_lt h.2), hmeasured.1, hmeasured.2.1, hmeasured.2.2⟩⟩

end Places

/-! ## Reading -/

section Nodes

variable {nodes before after : List NodeRow} {r : NodeRow}

/-- An identity that is read is one of the records so far. -/
lemma any_id_eq_true_iff : nodes.toArray.any (·.id = r.id) = true ↔ r.id ∈ nodes.map (·.id) := by
  simp only [List.any_toArray, List.any_eq_true, decide_eq_true_eq, List.mem_map]

/-- A record of a node is added to those before it, unless its identity has occurred. -/
lemma readNodes_eq (nodes : List NodeRow) : Network.readNodes (nodes.map fun r => .ok r.cells) =
    nodes.foldlM (fun found r =>
      if found.any (·.id = r.id) then .error (.duplicateNode r.id) else .ok (found.push r)) #[] := by
  unfold Network.readNodes
  rw [List.foldlM_map]
  rfl

/-- Records of nodes are read if no identity occurs twice. -/
lemma readNodes_eq_ok (h : (nodes.map (·.id)).Nodup) :
    Network.readNodes (nodes.map fun r => .ok r.cells) = .ok nodes.toArray := by
  rw [readNodes_eq]
  induction nodes using List.reverseRecOn with
  | nil => rfl
  | append_singleton nodes r ih =>
    rw [List.map_append, List.map_singleton, List.nodup_append] at h
    have hnot : ¬ nodes.toArray.any (·.id = r.id) = true := fun hany =>
      h.2.2 r.id (any_id_eq_true_iff.1 hany) r.id (List.mem_singleton_self _) rfl
    rw [List.foldlM_append, ih h.1]
    change (if nodes.toArray.any (·.id = r.id) then _ else _ : Except NetworkError (Array NodeRow)) >>= _ = _
    rw [if_neg hnot]
    simp [bind, Except.bind, pure, Except.pure]

/-- The first record whose identity has occurred before is reported. -/
lemma readNodes_eq_error (hbefore : (before.map (·.id)).Nodup) (h : r.id ∈ before.map (·.id)) :
    Network.readNodes ((before ++ r :: after).map fun r => .ok r.cells) = .error (.duplicateNode r.id) := by
  have hread := readNodes_eq_ok hbefore
  rw [readNodes_eq] at hread ⊢
  rw [List.foldlM_append, hread]
  change (if before.toArray.any (·.id = r.id) then _ else _ : Except NetworkError (Array NodeRow)) >>= _ = _
  rw [if_pos (any_id_eq_true_iff.2 h)]
  rfl

/-- Either no identity occurs twice, or there is a first record whose identity has occurred before. -/
lemma nodup_or_duplicate (nodes : List NodeRow) : (nodes.map (·.id)).Nodup ∨ ∃ before r after,
    nodes = before ++ r :: after ∧ (before.map (·.id)).Nodup ∧ r.id ∈ before.map (·.id) := by
  induction nodes using List.reverseRecOn with
  | nil => exact Or.inl List.nodup_nil
  | append_singleton nodes r ih =>
    rcases ih with hnodup | ⟨before, s, after, rfl, hnodup, hs⟩
    · by_cases hr : r.id ∈ nodes.map (·.id)
      · exact Or.inr ⟨nodes, r, [], rfl, hnodup, hr⟩
      · refine Or.inl ?_
        rw [List.map_append, List.map_singleton, List.nodup_append]
        refine ⟨hnodup, List.nodup_singleton _, ?_⟩
        rintro id hid _ hid' rfl
        exact hr (List.mem_singleton.1 hid' ▸ hid)
    · exact Or.inr ⟨before, s, after ++ [r], by simp, hnodup, hs⟩

end Nodes

section Links

variable {nodes : List NodeRow} {before after links : List LinkRow} {r : LinkRow} {node : Nat}

/-- A record of a link is added to those before it, once its ends have been found. -/
lemma readLinks_eq (nodes : List NodeRow) (links : List LinkRow) :
    Network.readLinks nodes.toArray (links.map fun r => .ok r.cells) = links.zipIdx.foldlM (fun found x => do
      let source ← Network.renumber nodes.toArray x.2 x.1.source
      let target ← Network.renumber nodes.toArray x.2 x.1.target
      return found.push ⟨source, target, x.1.length, x.1.speed, x.1.capacity⟩) #[] := by
  unfold Network.readLinks
  rw [List.zipIdx_map, List.foldlM_map]
  rfl

/-- Records of links are read if their ends are listed. -/
lemma readLinks_eq_ok (h : ∀ r ∈ links, r.Listed nodes) :
    Network.readLinks nodes.toArray (links.map fun r => .ok r.cells) =
      .ok (links.map (·.numbered nodes)).toArray := by
  rw [readLinks_eq]
  induction links using List.reverseRecOn with
  | nil => rfl
  | append_singleton links r ih =>
    obtain ⟨hsource, htarget⟩ := h r (by simp)
    rw [List.zipIdx_append, List.foldlM_append, ih fun m hm => h m (List.mem_append_left _ hm), List.zipIdx_singleton]
    simp only [bind, Except.bind, List.foldlM_cons, renumber_of_mem _ hsource, renumber_of_mem _ htarget]
    simp [pure, Except.pure, LinkRow.numbered]

/-- The first record of a link with an end that is not listed is reported. -/
lemma readLinks_eq_error (hbefore : ∀ m ∈ before, m.Listed nodes) (h : r.Unlisted nodes node) :
    Network.readLinks nodes.toArray ((before ++ r :: after).map fun r => .ok r.cells) =
      .error (.unknownNode before.length node) := by
  have hread := readLinks_eq_ok hbefore
  rw [readLinks_eq] at hread ⊢
  rw [List.zipIdx_append, List.foldlM_append, hread, List.zipIdx_cons, Nat.zero_add]
  cases h with
  | source h => simp only [bind, Except.bind, List.foldlM_cons, renumber_of_not_mem _ h]
  | target hsource h =>
    simp only [bind, Except.bind, List.foldlM_cons, renumber_of_mem _ hsource, renumber_of_not_mem _ h]

end Links

/-! ## Loading -/

/-- Either all elements have a property, or there is a first one that does not have it. -/
lemma forall_or_exists_first {α : Type} (P : α → Prop) (xs : List α) : (∀ x ∈ xs, P x) ∨
    ∃ before x after, xs = before ++ x :: after ∧ (∀ y ∈ before, P y) ∧ ¬ P x := by
  induction xs with
  | nil => exact Or.inl fun _ hx => absurd hx List.not_mem_nil
  | cons x xs ih =>
    by_cases hx : P x
    · rcases ih with hall | ⟨before, y, after, rfl, hbefore, hy⟩
      · exact Or.inl (List.forall_mem_cons.2 ⟨hx, hall⟩)
      · exact Or.inr ⟨x :: before, y, after, rfl, List.forall_mem_cons.2 ⟨hx, hbefore⟩, hy⟩
    · exact Or.inr ⟨[], x, xs, rfl, fun _ hy => absurd hy List.not_mem_nil, hx⟩

section Loading

variable {nodes : List NodeRow} {links : List LinkRow} {n : Network} {e : NetworkError}

/-- A network can be made of records, or they have a flaw. -/
lemma loadable_or_flaw (nodes : List NodeRow) (links : List LinkRow) :
    Loadable nodes links ∨ ∃ e, Flaw nodes links e := by
  rcases nodup_or_duplicate nodes with hnodup | ⟨before, r, after, hnodes, hnodup, hr⟩
  · rcases forall_or_exists_first (·.Listed nodes) links with hlisted | ⟨before, r, after, hlinks, hbefore, hr⟩
    · rcases forall_or_exists_first LinkRow.Measured links with hmeasured | ⟨before, r, after, hlinks, hbefore, hr⟩
      · exact Or.inl ⟨hnodup, hlisted, hmeasured⟩
      · have hnot := mt (admissible_numbered_iff (hlisted r (by simp [hlinks]))).1 hr
        obtain ⟨e, he⟩ := (Link.admissible_or_fault nodes.length (r.numbered nodes)).resolve_left hnot
        exact Or.inr ⟨e, .unmeasured hnodup hlisted hlinks hbefore he⟩
    · obtain ⟨node, hnode⟩ := (r.listed_or_unlisted nodes).resolve_left hr
      exact Or.inr ⟨_, .unlisted hnodup hlinks hbefore hnode⟩
  · exact Or.inr ⟨_, .duplicate hnodes hnodup hr⟩

/-- What becomes of records whose nodes and links can be read. -/
lemma ofRecords_eq (hnodup : (nodes.map (·.id)).Nodup) (hlisted : ∀ r ∈ links, r.Listed nodes) :
    Network.ofRecords nodes links = NetworkBuilder.build
      { nodes := (nodes.map (·.position)).toArray, links := (links.map (·.numbered nodes)).toArray } := by
  rw [Network.ofRecords, Network.ofRows, readNodes_eq_ok hnodup]
  change (Network.readLinks nodes.toArray _).mapError NoResult.error >>= _ = _
  rw [readLinks_eq_ok hlisted]
  change NetworkBuilder.build { nodes := nodes.toArray.map (·.position), links := _ } = _
  rw [List.map_toArray]

/-- The network of loadable records. -/
def arrangedRecords (nodes : List NodeRow) (links : List LinkRow) : Network :=
  NetworkBuilder.arranged
    { nodes := (nodes.map (·.position)).toArray, links := (links.map (·.numbered nodes)).toArray }

/-- A network is made of loadable records, if the number of links is a word. -/
lemma Loadable.ofRecords_eq_ite (h : Loadable nodes links) : Network.ofRecords nodes links =
    if links.length < UInt32.size then .ok (arrangedRecords nodes links)
    else .error (.crash (Crash.unequal (links.length % UInt32.size) links.length)) := by
  rw [ofRecords_eq h.nodup h.listed, NetworkBuilder.build_of_admissible, List.size_toArray, List.length_map]
  · rfl
  · intro l hl
    obtain ⟨r, hr, rfl⟩ := List.mem_map.1 hl
    rw [List.size_toArray, List.length_map]
    exact (admissible_numbered_iff (h.listed r hr)).2 (h.measured r hr)

/-- A flaw is reported. -/
lemma Flaw.ofRecords_eq_error (h : Flaw nodes links e) : Network.ofRecords nodes links = .error (.error e) := by
  cases h with
  | duplicate hnodes hnodup h =>
    rw [Network.ofRecords, Network.ofRows, hnodes, readNodes_eq_error hnodup h]
    rfl
  | unlisted hnodup hlinks hbefore h =>
    rw [Network.ofRecords, Network.ofRows, readNodes_eq_ok hnodup]
    change (Network.readLinks nodes.toArray _).mapError NoResult.error >>= _ = _
    rw [hlinks, readLinks_eq_error hbefore h]
    rfl
  | @unmeasured before after r _ hnodup hlisted hlinks hbefore h =>
    rw [ofRecords_eq hnodup hlisted, NetworkBuilder.build_eq_error_iff, List.size_toArray, List.length_map]
    refine ⟨before.map (·.numbered nodes), r.numbered nodes, after.map (·.numbered nodes), by simp [hlinks],
      fun l hl => ?_, h⟩
    obtain ⟨m, hm, rfl⟩ := List.mem_map.1 hl
    exact (admissible_numbered_iff (hlisted m (hlinks ▸ List.mem_append_left _ hm))).2 (hbefore m hm)

/-- **When there is a network of records**, and which one. -/
theorem ofRecords_eq_ok_iff : Network.ofRecords nodes links = .ok n ↔
    Loadable nodes links ∧ links.length < UInt32.size ∧ n = arrangedRecords nodes links := by
  rcases loadable_or_flaw nodes links with hload | ⟨e, he⟩
  · rw [hload.ofRecords_eq_ite, and_iff_right hload]
    split
    · next hlt => rw [and_iff_right hlt, Except.ok.injEq, eq_comm]
    · next hlt => exact iff_of_false (by simp) fun h => hlt h.1
  · refine iff_of_false (fun h => ?_) fun ⟨hload, hlt, _⟩ => ?_
    · cases h.symm.trans he.ofRecords_eq_error
    · have hok := hload.ofRecords_eq_ite.trans (if_pos hlt)
      cases hok.symm.trans he.ofRecords_eq_error

/-- **What is reported of records** of which no network can be made. -/
theorem ofRecords_eq_error_iff : Network.ofRecords nodes links = .error (.error e) ↔ Flaw nodes links e := by
  refine ⟨fun h => ?_, Flaw.ofRecords_eq_error⟩
  rcases loadable_or_flaw nodes links with hload | ⟨e', he'⟩
  · rw [hload.ofRecords_eq_ite] at h
    split at h <;> cases h
  · cases h.symm.trans he'.ofRecords_eq_error
    exact he'

/-- The links of the network are the records in the order of the nodes they leave, as long as there are numbers for all
nodes. -/
lemma exists_arranges (hlisted : ∀ r ∈ links, r.Listed nodes) (hsize : nodes.length ≤ UInt32.size) :
    ∃ rows, LinkRow.Arranges nodes rows links ∧
      (arrangedRecords nodes links).links.toList = rows.map (·.numbered nodes) := by
  let place (r : LinkRow) : Nat := NodeRow.place nodes r.source
  have hindex : ∀ r ∈ links, (r.numbered nodes).source.index = place r := fun r hr =>
    Nat.mod_eq_of_lt (Nat.lt_of_lt_of_le (place_lt (hlisted r hr).1) hsize)
  refine ⟨links.mergeSort fun r s => place r ≤ place s, ⟨List.mergeSort_perm _ _,
    pairwise_key_mergeSort place links, fun id => ?_⟩, ?_⟩
  · -- links that leave one node have one key
    have hfilter : ∀ rows : List LinkRow,
        rows.filter (·.source = id) = (rows.filter (place · = NodeRow.place nodes id)).filter (·.source = id) := by
      intro rows
      rw [List.filter_filter]
      refine List.filter_congr fun r _ => ?_
      by_cases hid : r.source = id
      · simp [place, hid]
      · simp [hid]
    rw [hfilter, hfilter links, filter_mergeSort place]
  · rw [List.map_mergeSort (s := fun l m : Link => decide (l.source.index ≤ m.source.index)) fun r hr s hs => by
      rw [hindex r hr, hindex s hs]]
    rfl

end Loading

/-- What becomes of records of nodes and links from which a network is to be loaded. -/
structure Network.Renames (nodes : List NodeRow) (links : List LinkRow) : Prop where
  /-- There is a network just if no identity occurs twice, all ends of links are listed, and all links have a length, a
  speed and a capacity, as long as the number of links is a word. -/
  loads_iff : links.length < UInt32.size → ((∃ n, Network.ofRecords nodes links = .ok n) ↔ (nodes.map (·.id)).Nodup ∧
    (∀ r ∈ links, r.source ∈ nodes.map (·.id) ∧ r.target ∈ nodes.map (·.id)) ∧
    ∀ r ∈ links, Link.Measures r.length ∧ Link.Measures r.speed ∧ Link.Measures r.capacity)
  /-- Otherwise the first flaw is reported. -/
  fails_iff : ∀ e, Network.ofRecords nodes links = .error (.error e) ↔ Flaw nodes links e
  /-- The nodes have the positions of their records. -/
  positions : ∀ n, Network.ofRecords nodes links = .ok n → n.nodes.toList = nodes.map (·.position)
  /-- The links are those of the records, in the order of the nodes they leave, and they can be read back, as long as
  there are numbers for all nodes. -/
  renamed : nodes.length ≤ UInt32.size → ∀ n, Network.ofRecords nodes links = .ok n →
    ∃ rows, LinkRow.Arranges nodes rows links ∧ n.links.toList = rows.map (·.numbered nodes) ∧
      n.links.toList.map (·.row? nodes) = rows.map some
  /-- So it is with tables from which these records are read. -/
  tables : ∀ nodeTable linkTable, NodeRow.schema.rows nodeTable = nodes.map (fun r => .ok r.cells) →
    LinkRow.schema.rows linkTable = links.map (fun r => .ok r.cells) →
      Network.ofTables nodeTable linkTable = Network.ofRecords nodes links

/-- A street of a metre, on which one may go a metre in a second. -/
def street (source target : Nat) : LinkRow := ⟨source, target, Binary64.ofNat 1, Binary64.ofNat 1, Binary64.ofNat 1⟩

/-- So many places, with the identities from zero on. -/
def places (count : Nat) : List NodeRow := (List.range count).map fun i => ⟨i, ⟨.zero, .zero⟩⟩

lemma map_id_places (count : Nat) : (places count).map (·.id) = List.range count := by
  rw [places, List.map_map]
  exact List.map_id _

/-- A place is found where it stands. -/
lemma place_places {count i : Nat} (hi : i < count) : NodeRow.place (places count) i = i := by
  have hlt : i < (List.range count).length := by simpa using hi
  rw [NodeRow.place, map_id_places]
  simpa using List.nodup_range.idxOf_getElem i hlt

/-- Streets between places that are listed can be loaded. -/
lemma loadable_streets {count copies source target : Nat} (hsource : source < count) (htarget : target < count) :
    Loadable (places count) (List.replicate copies (street source target)) where
  nodup := map_id_places count ▸ List.nodup_range
  listed r hr := by
    rw [List.eq_of_mem_replicate hr, LinkRow.Listed, map_id_places]
    exact ⟨List.mem_range.2 hsource, List.mem_range.2 htarget⟩
  measured r hr := by
    have hone : Link.Measures (Binary64.ofNat 1) := by decide
    rw [List.eq_of_mem_replicate hr]
    exact ⟨hone, hone, hone⟩

/-- The last of one node too many gets the number of the first, so a street on it is read back as one on the first. -/
lemma readBack_last : (arrangedRecords (places (UInt32.size + 1)) [street UInt32.size UInt32.size]).links.toList.map
    (·.row? (places (UInt32.size + 1))) = [some (street 0 0)] := by
  have hnumbered : (street UInt32.size UInt32.size).numbered (places (UInt32.size + 1)) =
      ⟨Id.ofNat 0, Id.ofNat 0, Binary64.ofNat 1, Binary64.ofNat 1, Binary64.ofNat 1⟩ := by
    rw [LinkRow.numbered, street, place_places (Nat.lt_succ_self _)]
    rfl
  have hlinks : (arrangedRecords (places (UInt32.size + 1)) [street UInt32.size UInt32.size]).links.toList =
      [(street UInt32.size UInt32.size).numbered (places (UInt32.size + 1))] := by
    simp [arrangedRecords, NetworkBuilder.arranged]
  have hfirst : (places (UInt32.size + 1))[(Id.ofNat 0 : NodeId).index]? = some ⟨0, ⟨.zero, .zero⟩⟩ := by
    rw [places, List.getElem?_map, List.getElem?_range (by decide)]
    rfl
  rw [hlinks, hnumbered, List.map_singleton, Link.row?, hfirst]
  rfl

end EventSim
