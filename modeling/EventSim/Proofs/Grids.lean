import EventSim.Proofs.Adjacency
import EventSim.Proofs.LinkPaths
import Mathlib.Algebra.BigOperators.Group.List.Lemmas

set_option autoImplicit false

/-!
# Grids

A grid of `n` rows and columns has a crossing in every row and column, and a road between any two crossings that are
next to each other. Every road is listed once, at its western or southern end. So there is one link from a crossing to
each of its neighbours and none to any other crossing, the link back has the same attributes, and every crossing can be
reached from every other one.

## Main definitions

* `EventSim.Grid.Neighbours` — crossings that are next to each other.
* `EventSim.Grid.TwoWay` — networks that are grids of two-way roads.

## Main results

* `EventSim.Grid.crossing_inj` — crossings have numbers of their own.
* `EventSim.Grid.countP_roads` — every road is listed once.
* `EventSim.Grid.countP_links` — there is one link between neighbours in each direction, and no other.
* `EventSim.Grid.length_roads` — how many roads there are.
* `EventSim.Grid.exists_twoWay` — a grid of two-way roads is built.
-/

namespace EventSim

/-- The link in the opposite direction. -/
def Link.reverse (l : Link) : Link := { l with source := l.target, target := l.source }

@[simp] lemma Link.reverse_reverse (l : Link) : l.reverse.reverse = l := rfl

namespace Grid

variable {n row col row' col' : Nat} {l m : Link}

/-- Two crossings differ by one in their row or in their column, and not in the other. -/
def Neighbours (row col row' col' : Nat) : Prop :=
  row = row' ∧ (col + 1 = col' ∨ col' + 1 = col) ∨ col = col' ∧ (row + 1 = row' ∨ row' + 1 = row)

instance (row col row' col' : Nat) : Decidable (Neighbours row col row' col') :=
  inferInstanceAs (Decidable (_ ∧ _ ∨ _ ∧ _))

/-! ### Internal helpers: lists of all rows and columns -/

/-- If only one of the parts of a list has elements with a property, they are counted there. -/
lemma countP_flatMap_range {α : Type} {p : α → Bool} {f : Nat → List α} {i : Nat} (hi : i < n)
    (h : ∀ j < n, j ≠ i → (f j).countP p = 0) : ((List.range n).flatMap f).countP p = (f i).countP p := by
  have hsum := List.sum_map_eq_nsmul_single (l := List.range n) i (List.countP p ∘ f) fun j hne hj =>
    h j (List.mem_range.1 hj) hne
  rw [List.countP_flatMap, hsum, List.count_eq_one_of_mem List.nodup_range (List.mem_range.2 hi), one_nsmul]
  rfl

/-- What counts for all numbers but the last. -/
lemma sum_map_succ_lt (n c : Nat) : ((List.range n).map fun i => if i + 1 < n then c else 0).sum = (n - 1) * c := by
  cases n with
  | zero => exact (Nat.zero_mul c).symm
  | succ n =>
    have hconst : ((List.range n).map fun i => if i + 1 < n + 1 then c else 0) = (List.range n).map fun _ => c :=
      List.map_congr_left fun i hi => if_pos (Nat.succ_lt_succ (List.mem_range.1 hi))
    rw [List.range_succ, List.map_append, List.sum_append, hconst, List.map_const', List.sum_replicate_nat]
    simp

/-! ## Crossings -/

/-- The number of a crossing counts the crossings before it. -/
lemma index_crossing (hsize : n * n ≤ UInt32.size) (hrow : row < n) (hcol : col < n) :
    (crossing n row col).index = row * n + col ∧ row * n + col < n * n := by
  have hlt : row * n + col < n * n := by
    calc row * n + col < row * n + n := Nat.add_lt_add_left hcol _
      _ = (row + 1) * n := (Nat.succ_mul row n).symm
      _ ≤ n * n := Nat.mul_le_mul_right n hrow
  exact ⟨Nat.mod_eq_of_lt (Nat.lt_of_lt_of_le hlt hsize), hlt⟩

/-- The row and the column can be told from the number. -/
lemma div_mod_crossing (row : Nat) (hcol : col < n) : (row * n + col) / n = row ∧ (row * n + col) % n = col := by
  rw [Nat.add_comm, Nat.add_mul_div_right _ _ (Nat.zero_lt_of_lt hcol), Nat.div_eq_of_lt hcol,
    Nat.add_mul_mod_self_right, Nat.mod_eq_of_lt hcol]
  exact ⟨Nat.zero_add row, rfl⟩

/-- **Crossings have numbers of their own.** -/
theorem crossing_inj (hsize : n * n ≤ UInt32.size) (hrow : row < n) (hcol : col < n) (hrow' : row' < n)
    (hcol' : col' < n) : crossing n row col = crossing n row' col' ↔ row = row' ∧ col = col' := by
  refine ⟨fun h => ?_, fun ⟨hr, hc⟩ => by rw [hr, hc]⟩
  have hindex := congrArg Id.index h
  rw [(index_crossing hsize hrow hcol).1, (index_crossing hsize hrow' hcol').1] at hindex
  obtain ⟨hdiv, hmod⟩ := div_mod_crossing row hcol
  obtain ⟨hdiv', hmod'⟩ := div_mod_crossing row' hcol'
  rw [hindex] at hdiv hmod
  exact ⟨hdiv.symm.trans hdiv', hmod.symm.trans hmod'⟩

/-- Every node is a crossing. -/
lemma exists_crossing {v : NodeId} (hv : v.index < n * n) : ∃ row < n, ∃ col < n, v = crossing n row col := by
  have hn : 0 < n := Nat.pos_of_mul_pos_left (Nat.zero_lt_of_lt hv)
  refine ⟨v.index / n, Nat.div_lt_of_lt_mul hv, v.index % n, Nat.mod_lt _ hn, Id.ext_index ?_⟩
  rw [crossing, Nat.div_add_mod']
  exact (Nat.mod_eq_of_lt v.index_lt).symm

/-- Crossings lie in rows and columns. -/
lemma getElem?_crossings (hsize : n * n ≤ UInt32.size) (hrow : row < n) (hcol : col < n) :
    (crossings n)[(crossing n row col).index]? = some ⟨Binary64.ofNat col * block, Binary64.ofNat row * block⟩ := by
  obtain ⟨hindex, hlt⟩ := index_crossing hsize hrow hcol
  obtain ⟨hdiv, hmod⟩ := div_mod_crossing row hcol
  rw [hindex, crossings, List.getElem?_map, List.getElem?_range hlt, Option.map_some, hdiv, hmod]

/-! ## Roads -/

/-- The speed and the capacity of the street in a row. -/
def street (row : Nat) : Binary64 × Binary64 :=
  if row % 3 = 0 then (arterialSpeed, arterialCapacity) else (localSpeed, localCapacity)

/-- The road from a crossing to the next one in its row. -/
def eastRoad (n row col : Nat) : Link :=
  ⟨crossing n row col, crossing n row (col + 1), block, (street row).1, (street row).2⟩

/-- The road from a crossing to the next one in its column. -/
def northRoad (n row col : Nat) : Link :=
  ⟨crossing n row col, crossing n (row + 1) col, block, localSpeed, localCapacity⟩

lemma roadsFrom_eq (n row col : Nat) : roadsFrom n row col =
    (if col + 1 < n then [eastRoad n row col] else []) ++ (if row + 1 < n then [northRoad n row col] else []) := rfl

/-- All roads have a length, a speed and a capacity. -/
lemma measures_of_mem_roadsFrom (h : l ∈ roadsFrom n row col) :
    Link.Measures l.length ∧ Link.Measures l.speed ∧ Link.Measures l.capacity := by
  have hblock : Link.Measures block := by decide +kernel
  have hlocal : Link.Measures localSpeed ∧ Link.Measures localCapacity := by decide +kernel
  have harterial : Link.Measures arterialSpeed ∧ Link.Measures arterialCapacity := by decide +kernel
  have hstreet : Link.Measures (street row).1 ∧ Link.Measures (street row).2 := by
    unfold street
    split_ifs
    · exact harterial
    · exact hlocal
  rw [roadsFrom_eq, List.mem_append, List.mem_ite_nil_right, List.mem_ite_nil_right, List.mem_singleton,
    List.mem_singleton] at h
  obtain ⟨-, rfl⟩ | ⟨-, rfl⟩ := h
  · exact ⟨hblock, hstreet⟩
  · exact ⟨hblock, hlocal⟩

/-- A road leaves a crossing for the next one in its row or in its column. -/
lemma ends_of_mem_roadsFrom (h : l ∈ roadsFrom n row col) : l.source = crossing n row col ∧
    (col + 1 < n ∧ l.target = crossing n row (col + 1) ∨ row + 1 < n ∧ l.target = crossing n (row + 1) col) := by
  rw [roadsFrom_eq, List.mem_append, List.mem_ite_nil_right, List.mem_ite_nil_right, List.mem_singleton,
    List.mem_singleton] at h
  obtain ⟨hnext, rfl⟩ | ⟨hnext, rfl⟩ := h
  · exact ⟨rfl, Or.inl ⟨hnext, rfl⟩⟩
  · exact ⟨rfl, Or.inr ⟨hnext, rfl⟩⟩

/-- How many roads leave a crossing. -/
lemma length_roadsFrom (n row col : Nat) : (roadsFrom n row col).length =
    (if col + 1 < n then 1 else 0) + (if row + 1 < n then 1 else 0) := by
  rw [roadsFrom_eq, List.length_append]
  split_ifs <;> rfl

/-- **How many roads there are**: one to the east from all columns but the last, and one to the north from all rows but
the last. -/
theorem length_roads (n : Nat) : (roads n).length = 2 * n * (n - 1) := by
  have hrow : ∀ row, ((List.range n).flatMap fun col => roadsFrom n row col).length =
      (n - 1) + (if row + 1 < n then n else 0) := by
    intro row
    simp only [List.length_flatMap, length_roadsFrom, List.sum_map_add, sum_map_succ_lt]
    split_ifs <;> simp
  rw [roads, List.length_flatMap]
  simp only [hrow, List.sum_map_add, sum_map_succ_lt, List.map_const', List.sum_replicate_nat, List.length_range]
  rw [Nat.mul_comm (n - 1) n, ← Nat.two_mul, Nat.mul_assoc]

section Size

variable (hsize : n * n ≤ UInt32.size)

include hsize

/-- The roads that leave a crossing lead to different crossings. -/
lemma countP_roadsFrom (hrow : row < n) (hcol : col < n) (hrow' : row' < n) (hcol' : col' < n) :
    (roadsFrom n row col).countP (fun l => l.source = crossing n row col ∧ l.target = crossing n row' col') =
      if row = row' ∧ col + 1 = col' ∨ col = col' ∧ row + 1 = row' then 1 else 0 := by
  have heast : (if col + 1 < n then [eastRoad n row col] else []).countP
      (fun l => l.source = crossing n row col ∧ l.target = crossing n row' col') =
        if row = row' ∧ col + 1 = col' then 1 else 0 := by
    by_cases hnext : col + 1 < n
    · simp only [if_pos hnext, List.countP_singleton, eastRoad, true_and, decide_eq_true_eq,
        crossing_inj hsize hrow hnext hrow' hcol']
    · rw [if_neg hnext, List.countP_nil, if_neg (by omega)]
  have hnorth : (if row + 1 < n then [northRoad n row col] else []).countP
      (fun l => l.source = crossing n row col ∧ l.target = crossing n row' col') =
        if col = col' ∧ row + 1 = row' then 1 else 0 := by
    by_cases hnext : row + 1 < n
    · simp only [if_pos hnext, List.countP_singleton, northRoad, true_and, decide_eq_true_eq,
        crossing_inj hsize hnext hcol hrow' hcol', and_comm]
    · rw [if_neg hnext, List.countP_nil, if_neg (by omega)]
  rw [roadsFrom_eq, List.countP_append, heast, hnorth]
  split_ifs <;> omega

/-- **Every road is listed once**, at its western or southern end. -/
theorem countP_roads (hrow : row < n) (hcol : col < n) (hrow' : row' < n) (hcol' : col' < n) :
    (roads n).countP (fun l => l.source = crossing n row col ∧ l.target = crossing n row' col') =
      if row = row' ∧ col + 1 = col' ∨ col = col' ∧ row + 1 = row' then 1 else 0 := by
  -- the roads of other crossings have other sources
  have hother : ∀ r < n, ∀ c < n, ∀ l ∈ roadsFrom n r c, l.source = crossing n row col → r = row ∧ c = col := by
    intro r hr c hc l hl hsource
    rwa [(ends_of_mem_roadsFrom hl).1, crossing_inj hsize hr hc hrow hcol] at hsource
  rw [roads, countP_flatMap_range hrow, countP_flatMap_range hcol, countP_roadsFrom hsize hrow hcol hrow' hcol']
  · intro c hc hne
    exact List.countP_eq_zero.2 fun l hl hends => hne (hother row hrow c hc l hl (of_decide_eq_true hends).1).2
  · intro r hr hne
    refine List.countP_eq_zero.2 fun l hl hends => ?_
    obtain ⟨c, hc, hl⟩ := List.mem_flatMap.1 hl
    exact hne (hother r hr c (List.mem_range.1 hc) l hl (of_decide_eq_true hends).1).1

end Size

/-! ## Links -/

/-- A road is two links. -/
def bothWays (l : Link) : List Link := [l, l.reverse]

/-- All links of a grid. -/
def links (n : Nat) : List Link := (roads n).flatMap bothWays

/-- There are two links for every road. -/
lemma length_links (n : Nat) : (links n).length = 4 * n * (n - 1) := by
  have hlength : ∀ rows : List Link, (rows.flatMap bothWays).length = 2 * rows.length := by
    intro rows
    induction rows with
    | nil => rfl
    | cons l rows ih =>
      rw [List.flatMap_cons, List.length_append, ih, List.length_cons, Nat.mul_succ, Nat.add_comm]
      rfl
  rw [links, hlength, length_roads, Nat.mul_assoc 2 n, ← Nat.mul_assoc 2 2, Nat.mul_assoc 4]

/-- The link back is there, too. -/
lemma reverse_mem_links (h : l ∈ links n) : l.reverse ∈ links n := by
  obtain ⟨road, hroad, hl⟩ := List.mem_flatMap.1 h
  refine List.mem_flatMap.2 ⟨road, hroad, ?_⟩
  rw [bothWays, List.mem_pair] at hl ⊢
  obtain rfl | rfl := hl
  · exact Or.inr rfl
  · exact Or.inl rfl

/-- Every link is a road, or the link back. -/
lemma mem_roadsFrom_of_mem_links (h : l ∈ links n) :
    ∃ row < n, ∃ col < n, l ∈ roadsFrom n row col ∨ l.reverse ∈ roadsFrom n row col := by
  obtain ⟨road, hroad, hl⟩ := List.mem_flatMap.1 h
  obtain ⟨row, hrow, hroad⟩ := List.mem_flatMap.1 hroad
  obtain ⟨col, hcol, hroad⟩ := List.mem_flatMap.1 hroad
  refine ⟨row, List.mem_range.1 hrow, col, List.mem_range.1 hcol, ?_⟩
  rw [bothWays, List.mem_pair] at hl
  obtain rfl | rfl := hl
  · exact Or.inl hroad
  · exact Or.inr hroad

/-- Every link leads from a crossing to a neighbour. -/
lemma ends_of_mem_links (h : l ∈ links n) : ∃ row < n, ∃ col < n, ∃ row' < n, ∃ col' < n,
    Neighbours row col row' col' ∧ l.source = crossing n row col ∧ l.target = crossing n row' col' := by
  obtain ⟨row, hrow, col, hcol, hl | hl⟩ := mem_roadsFrom_of_mem_links h
  · obtain ⟨hsource, ⟨hnext, htarget⟩ | ⟨hnext, htarget⟩⟩ := ends_of_mem_roadsFrom hl
    · exact ⟨row, hrow, col, hcol, row, hrow, col + 1, hnext, Or.inl ⟨rfl, Or.inl rfl⟩, hsource, htarget⟩
    · exact ⟨row, hrow, col, hcol, row + 1, hnext, col, hcol, Or.inr ⟨rfl, Or.inl rfl⟩, hsource, htarget⟩
  · obtain ⟨htarget, ⟨hnext, hsource⟩ | ⟨hnext, hsource⟩⟩ := ends_of_mem_roadsFrom hl
    · exact ⟨row, hrow, col + 1, hnext, row, hrow, col, hcol, Or.inl ⟨rfl, Or.inr rfl⟩, hsource, htarget⟩
    · exact ⟨row + 1, hnext, col, hcol, row, hrow, col, hcol, Or.inr ⟨rfl, Or.inr rfl⟩, hsource, htarget⟩

/-- Every link may be built. -/
lemma admissible_of_mem_links (hsize : n * n ≤ UInt32.size) (h : l ∈ links n) : l.Admissible (n * n) := by
  obtain ⟨row, hrow, col, hcol, row', hrow', col', hcol', -, hsource, htarget⟩ := ends_of_mem_links h
  have hlt : ∀ {row col : Nat}, row < n → col < n → (crossing n row col).index < n * n := fun hrow hcol => by
    obtain ⟨hindex, hlt⟩ := index_crossing hsize hrow hcol
    exact hindex ▸ hlt
  obtain ⟨_, _, _, _, hl | hl⟩ := mem_roadsFrom_of_mem_links h <;>
    obtain ⟨hlength, hspeed, hcapacity⟩ := measures_of_mem_roadsFrom hl <;>
    exact ⟨hsource ▸ hlt hrow hcol, htarget ▸ hlt hrow' hcol', hlength, hspeed, hcapacity⟩

lemma countP_flatMap_bothWays (p : Link → Bool) (rows : List Link) :
    (rows.flatMap bothWays).countP p = rows.countP p + rows.countP (fun l => p l.reverse) := by
  induction rows with
  | nil => rfl
  | cons l rows ih =>
    rw [List.flatMap_cons, List.countP_append, ih, List.countP_cons, List.countP_cons, bothWays, List.countP_cons,
      List.countP_singleton]
    omega

/-- **There is one link between neighbours** in each direction, and no other. -/
theorem countP_links (hsize : n * n ≤ UInt32.size) (hrow : row < n) (hcol : col < n) (hrow' : row' < n)
    (hcol' : col' < n) :
    (links n).countP (fun l => l.source = crossing n row col ∧ l.target = crossing n row' col') =
      if Neighbours row col row' col' then 1 else 0 := by
  have hback : (roads n).countP (fun l => l.reverse.source = crossing n row col ∧
      l.reverse.target = crossing n row' col') =
        if row' = row ∧ col' + 1 = col ∨ col' = col ∧ row' + 1 = row then 1 else 0 := by
    rw [← countP_roads hsize hrow' hcol' hrow hcol]
    refine List.countP_congr fun l _ => ?_
    rw [decide_eq_true_eq, decide_eq_true_eq, and_comm]
    rfl
  have hneighbours : Neighbours row col row' col' ↔ (row = row' ∧ col + 1 = col' ∨ col = col' ∧ row + 1 = row') ∨
      (row' = row ∧ col' + 1 = col ∨ col' = col ∧ row' + 1 = row) := by
    unfold Neighbours
    omega
  rw [links, countP_flatMap_bothWays, countP_roads hsize hrow hcol hrow' hcol', hback]
  by_cases hforth : row = row' ∧ col + 1 = col' ∨ col = col' ∧ row + 1 = row'
  · rw [if_pos hforth, if_neg (by omega), if_pos (hneighbours.2 (Or.inl hforth))]
  · rw [if_neg hforth, Nat.zero_add]
    exact if_congr (by rw [hneighbours, or_iff_right hforth]) rfl rfl

/-- The link back is the reverse of the link, as it is the only one between these crossings. -/
lemma eq_reverse_of_mem_links (hsize : n * n ≤ UInt32.size) (hl : l ∈ links n) (hm : m ∈ links n)
    (hsource : l.source = m.target) (htarget : l.target = m.source) : m = l.reverse := by
  obtain ⟨row, hrow, col, hcol, row', hrow', col', hcol', hnext, hsource', htarget'⟩ := ends_of_mem_links hl
  have hone := countP_links hsize hrow' hcol' hrow hcol
  rw [if_pos (by unfold Neighbours at *; omega), List.countP_eq_length_filter, List.length_eq_one_iff] at hone
  obtain ⟨k, hk⟩ := hone
  have hback : ∀ m ∈ links n, m.source = crossing n row' col' → m.target = crossing n row col → m = k := by
    intro m hm hms hmt
    have hmem : m ∈ [k] := hk ▸ List.mem_filter.2 ⟨hm, decide_eq_true ⟨hms, hmt⟩⟩
    exact List.mem_singleton.1 hmem
  rw [hback m hm (htarget.symm.trans htarget') (hsource.symm.trans hsource'),
    hback l.reverse (reverse_mem_links hl) htarget' hsource']

/-- The builder of a grid holds its crossings and its links. -/
lemma foldl_addRoad (rows : List Link) (b : NetworkBuilder) :
    (rows.foldl NetworkBuilder.addRoad b).nodes = b.nodes ∧
      (rows.foldl NetworkBuilder.addRoad b).links.toList = b.links.toList ++ rows.flatMap bothWays := by
  induction rows generalizing b with
  | nil => exact ⟨rfl, (List.append_nil _).symm⟩
  | cons l rows ih =>
    obtain ⟨hnodes, hlinks⟩ := ih (b.addRoad l)
    refine ⟨hnodes, hlinks.trans ?_⟩
    simp [NetworkBuilder.addRoad, NetworkBuilder.addLink, bothWays, Link.reverse]

/-- A grid is built of its crossings and its links. -/
lemma gridNetwork_eq_ok (h : 4 * n * n < UInt32.size) : ∃ net, gridNetwork n = .ok net ∧
    net.nodes.toList = crossings n ∧ net.links.toList.Perm (links n) := by
  have hsize : n * n ≤ UInt32.size := by
    rw [Nat.mul_assoc] at h
    omega
  obtain ⟨hnodes, hlinks⟩ := foldl_addRoad (roads n) { nodes := (crossings n).toArray }
  rw [List.nil_append] at hlinks
  have hcount : ((roads n).foldl NetworkBuilder.addRoad { nodes := (crossings n).toArray }).nodes.size = n * n := by
    rw [hnodes, List.size_toArray, crossings, List.length_map, List.length_range]
  refine ⟨_, NetworkBuilder.build_eq_ok_iff.2 ⟨fun l hl => ?_, ?_, rfl⟩, ?_, ?_⟩
  · rw [hcount]
    rw [hlinks] at hl
    exact admissible_of_mem_links hsize hl
  · have hlength : ((roads n).flatMap bothWays).length = 4 * n * (n - 1) := length_links n
    rw [← Array.length_toList, hlinks, hlength]
    exact Nat.lt_of_le_of_lt (Nat.mul_le_mul_left _ (Nat.sub_le n 1)) h
  · exact congrArg Array.toList hnodes
  · exact (NetworkBuilder.perm_arranged _).trans (List.Perm.of_eq hlinks)

/-! ## Networks that are grids -/

/-- The network is a grid of `n` rows and columns with two-way roads. -/
structure TwoWay (n : Nat) (net : Network) : Prop where
  /-- There are so many crossings, -/
  nodeCount_eq : net.nodeCount = n * n
  /-- each in its row and its column. -/
  position : ∀ row < n, ∀ col < n,
    net.node? (crossing n row col) = some ⟨Binary64.ofNat col * block, Binary64.ofNat row * block⟩
  /-- Every link leads from a crossing to a neighbour. -/
  ends : ∀ l ∈ net.links.toList, ∃ row < n, ∃ col < n, ∃ row' < n, ∃ col' < n,
    Neighbours row col row' col' ∧ l.source = crossing n row col ∧ l.target = crossing n row' col'
  /-- There is one link from a crossing to each of its neighbours, and none to any other crossing. -/
  links_between : ∀ row < n, ∀ col < n, ∀ row' < n, ∀ col' < n,
    net.links.toList.countP (fun l => l.source = crossing n row col ∧ l.target = crossing n row' col') =
      if Neighbours row col row' col' then 1 else 0
  /-- So many links there are. -/
  linkCount_eq : net.linkCount = 4 * n * (n - 1)
  /-- The link back has the same attributes. -/
  same : ∀ l ∈ net.links.toList, ∀ m ∈ net.links.toList, l.source = m.target → l.target = m.source →
    l.length = m.length ∧ l.speed = m.speed ∧ l.capacity = m.capacity
  /-- Every crossing can be reached from every other one. -/
  connected : ∀ u v : NodeId, u.index < net.nodeCount → v.index < net.nodeCount → ∃ links, net.Joins u links v

section Ways

variable {net : Network}

/-- A link of a network has a number, if there are numbers for all links. -/
lemma exists_joins_of_mem (hcount : net.linkCount ≤ UInt32.size) (h : l ∈ net.links.toList) :
    ∃ links, net.Joins l.source links l.target := by
  obtain ⟨i, hi⟩ := List.getElem?_of_mem h
  rw [Array.getElem?_toList] at hi
  have hindex : (Id.ofNat i : LinkId).index = i :=
    Nat.mod_eq_of_lt (Nat.lt_of_lt_of_le (Array.getElem?_eq_some_iff.1 hi).1 hcount)
  have hlink : net.link? (Id.ofNat i) = some l := by rw [Network.link?, hindex, hi]
  exact ⟨_, Network.joins_singleton hlink⟩

/-- If there are links between neighbours, one can go from every crossing to the first one and back: row by row, and
in the first row column by column. -/
lemma exists_joins_first (h : ∀ row < n, ∀ col < n, ∀ row' < n, ∀ col' < n, Neighbours row col row' col' →
    ∃ links, net.Joins (crossing n row col) links (crossing n row' col')) (hrow : row < n) (hcol : col < n) :
    (∃ links, net.Joins (crossing n row col) links (crossing n 0 0)) ∧
      ∃ links, net.Joins (crossing n 0 0) links (crossing n row col) := by
  have hback : ∀ {row col row' col'}, row < n → col < n → row' < n → col' < n → Neighbours row col row' col' →
      ((∃ links, net.Joins (crossing n row' col') links (crossing n 0 0)) ∧
        ∃ links, net.Joins (crossing n 0 0) links (crossing n row' col')) →
      (∃ links, net.Joins (crossing n row col) links (crossing n 0 0)) ∧
        ∃ links, net.Joins (crossing n 0 0) links (crossing n row col) := by
    rintro row col row' col' hrow hcol hrow' hcol' hnext ⟨⟨_, hto⟩, ⟨_, hfrom⟩⟩
    obtain ⟨_, hstep⟩ := h row hrow col hcol row' hrow' col' hcol' hnext
    obtain ⟨_, hstep'⟩ := h row' hrow' col' hcol' row hrow col hcol (by unfold Neighbours at *; omega)
    exact ⟨⟨_, hstep.append hto⟩, ⟨_, hfrom.append hstep'⟩⟩
  induction row with
  | zero =>
    induction col with
    | zero => exact ⟨⟨[], .nil _⟩, ⟨[], .nil _⟩⟩
    | succ col ih =>
      have hcol' : col < n := Nat.lt_of_succ_lt hcol
      exact hback hrow hcol hrow hcol' (Or.inl ⟨rfl, Or.inr rfl⟩) (ih hcol')
  | succ row ih =>
    have hrow' : row < n := Nat.lt_of_succ_lt hrow
    exact hback hrow hcol hrow' hcol (Or.inr ⟨rfl, Or.inr rfl⟩) (ih hrow')

/-- If there are links between neighbours, one can go from every crossing to every other one. -/
lemma exists_joins (hcount : net.linkCount ≤ UInt32.size)
    (hbetween : ∀ row < n, ∀ col < n, ∀ row' < n, ∀ col' < n,
      net.links.toList.countP (fun l => l.source = crossing n row col ∧ l.target = crossing n row' col') =
        if Neighbours row col row' col' then 1 else 0)
    {u v : NodeId} (hu : u.index < n * n) (hv : v.index < n * n) : ∃ links, net.Joins u links v := by
  obtain ⟨row, hrow, col, hcol, rfl⟩ := exists_crossing hu
  obtain ⟨row', hrow', col', hcol', rfl⟩ := exists_crossing hv
  have hstep : ∀ row < n, ∀ col < n, ∀ row' < n, ∀ col' < n, Neighbours row col row' col' →
      ∃ links, net.Joins (crossing n row col) links (crossing n row' col') := by
    intro row hrow col hcol row' hrow' col' hcol' hnext
    have hpos := hbetween row hrow col hcol row' hrow' col' hcol'
    rw [if_pos hnext] at hpos
    obtain ⟨l, hl, hends⟩ := List.countP_pos_iff.1 (Nat.lt_of_lt_of_eq Nat.one_pos hpos.symm)
    obtain ⟨hsource, htarget⟩ := of_decide_eq_true hends
    rw [← hsource, ← htarget]
    exact exists_joins_of_mem hcount hl
  obtain ⟨_, hto⟩ := (exists_joins_first hstep hrow hcol).1
  obtain ⟨_, hfrom⟩ := (exists_joins_first hstep hrow' hcol').2
  exact ⟨_, hto.append hfrom⟩

end Ways

/-- **A grid of two-way roads is built**, whatever its size, as long as there are numbers for its links.

**Proof sketch.** Every road is listed once, at its western or southern end (`countP_roads`), and counts as a link in
each direction (`countP_links`). Building only changes the order of the links. As there is just one link from a crossing
to a neighbour, it is the reverse of the link back (`eq_reverse_of_mem_links`). A way leads from every crossing to the
first one and back (`exists_joins_first`). -/
theorem exists_twoWay (h : 4 * n * n < UInt32.size) : ∃ net, allocateGrid n = .ok net ∧ TwoWay n net := by
  have hsize : n * n ≤ UInt32.size := by
    rw [Nat.mul_assoc] at h
    omega
  obtain ⟨net, hnet, hnodes, hlinks⟩ := gridNetwork_eq_ok h
  have hreserve : reserve 32 (4 * n * n) = .ok () := by
    rw [reserve_eq_ok_iff]
    have hword : UInt32.size = 4294967296 := rfl
    omega
  have hnodeCount : net.nodeCount = n * n := by
    rw [Network.nodeCount, ← Array.length_toList, hnodes, crossings, List.length_map, List.length_range]
  have hlinkCount : net.linkCount = 4 * n * (n - 1) := by
    rw [Network.linkCount, ← Array.length_toList, hlinks.length_eq, length_links]
  have hbetween : ∀ row < n, ∀ col < n, ∀ row' < n, ∀ col' < n,
      net.links.toList.countP (fun l => l.source = crossing n row col ∧ l.target = crossing n row' col') =
        if Neighbours row col row' col' then 1 else 0 := fun row hrow col hcol row' hrow' col' hcol' =>
    (hlinks.countP_eq _).trans (countP_links hsize hrow hcol hrow' hcol')
  refine ⟨net, by rw [allocateGrid, hreserve, hnet]; rfl, ?_⟩
  constructor
  case nodeCount_eq => exact hnodeCount
  case position =>
    intro row hrow col hcol
    rw [Network.node?, ← Array.getElem?_toList, hnodes, getElem?_crossings hsize hrow hcol]
  case ends => exact fun l hl => ends_of_mem_links (hlinks.mem_iff.1 hl)
  case links_between => exact hbetween
  case linkCount_eq => exact hlinkCount
  case same =>
    intro l hl m hm hsource htarget
    rw [eq_reverse_of_mem_links hsize (hlinks.mem_iff.1 hl) (hlinks.mem_iff.1 hm) hsource htarget]
    exact ⟨rfl, rfl, rfl⟩
  case connected =>
    rw [hnodeCount]
    refine fun u v hu hv => exists_joins ?_ hbetween hu hv
    rw [hlinkCount]
    exact (Nat.mul_le_mul_left _ (Nat.sub_le n 1)).trans h.le

/-- A grid of four rows and columns, which has an arterial besides local streets, and the largest one for whose links
there are numbers. -/
theorem exists_twoWay_four : (4 * 4 * 4 < UInt32.size ∧ ∃ net, allocateGrid 4 = .ok net ∧ TwoWay 4 net) ∧
    4 * 32767 * 32767 < UInt32.size ∧ ∃ net, allocateGrid 32767 = .ok net ∧ TwoWay 32767 net :=
  ⟨⟨by decide, exists_twoWay (by decide)⟩, by decide, exists_twoWay (by decide)⟩

end Grid

end EventSim
