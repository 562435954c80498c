import EventSim.Proofs.Strips

set_option autoImplicit false

/-!
# Longer strips

If the number of links is no multiple of the number of workers, some strips are longer than the others by one link, as
many as links are left over. One may expect them to be the first ones. But the longer strips are spread among the others,
for a rest is divided like the whole: the first `v` workers together have `⌈v * count / workers⌉` links. So the longer
strips are the first ones only if there is at most one of them, or only one other strip.

## Main definitions

* `EventSim.Network.FirstStripsLonger` — the longer strips are the first ones.
* `EventSim.Network.SpreadsRest` — the longer strips lie among all strips.

## Main results

* `EventSim.forall_mem_recipients_iff` — when the links that are left over go to the first workers.
* `EventSim.Network.spreadsRest` — how long the strips of any network are.
* `EventSim.NetworkBuilder.not_firstStripsLonger_promenade` — the longer strips need not be the first ones.
-/

namespace EventSim

variable {workers rest : Nat}

/-! ## Who gets the rest -/

/-- The links that are left over go to workers that exist. -/
lemma lt_of_mem_recipients {v : Nat} (hpos : 0 < workers) (hv : v ∈ recipients workers rest) : v < workers := by
  obtain ⟨r, hr, rfl⟩ := List.mem_map.1 hv
  have hr := List.mem_range.1 hr
  rw [Nat.div_lt_iff_lt_mul (Nat.zero_lt_of_lt hr), Nat.mul_comm workers]
  exact Nat.mul_lt_mul_of_pos_right hr hpos

/-- There are as many of these workers as links are left over. -/
lemma countP_mem_recipients (hlt : rest < workers) :
    (List.range workers).countP (· ∈ recipients workers rest) = rest := by
  have hperm : ((List.range workers).filter (· ∈ recipients workers rest)).Perm (recipients workers rest) := by
    refine (List.perm_ext_iff_of_nodup (List.nodup_range.filter _) (nodup_recipients hlt.le)).2 fun v => ?_
    rw [List.mem_filter, decide_eq_true_eq, List.mem_range]
    exact and_iff_right_of_imp (lt_of_mem_recipients (Nat.zero_lt_of_lt hlt))
  rw [List.countP_eq_length_filter, hperm.length_eq, recipients, List.length_map, List.length_range]

/-- If there is a link for every worker but the last one, it goes to the worker of the same number. -/
lemma recipients_succ : recipients (rest + 1) rest = List.range rest := by
  conv_rhs => rw [← List.map_id (List.range rest)]
  refine List.map_congr_left fun r hr => ?_
  have hr := List.mem_range.1 hr
  rw [Nat.mul_succ, Nat.mul_comm, Nat.mul_add_div (Nat.zero_lt_of_lt hr), Nat.div_eq_of_lt hr]
  rfl

/-- If there are several links, and several workers to whom none of them goes, the last link goes to a worker behind the
first ones. -/
lemma le_last_recipient (hmany : 2 ≤ rest) (hfew : rest + 2 ≤ workers) : rest ≤ (rest - 1) * workers / rest := by
  obtain ⟨k, rfl⟩ := Nat.exists_eq_add_of_le' hmany
  rw [Nat.le_div_iff_mul_le (Nat.succ_pos _)]
  calc (k + 2) * (k + 2) = (k + 1) * (k + 3) + 1 := by ring
    _ ≤ (k + 1) * (k + 4) := by rw [Nat.mul_succ (k + 1) (k + 3)]; omega
    _ ≤ (k + 1) * workers := Nat.mul_le_mul_left _ hfew

/-- **The links that are left over go to the first workers** just if there is at most one such link, or one for every
worker but the last. -/
theorem forall_mem_recipients_iff (hlt : rest < workers) :
    (∀ v < workers, v ∈ recipients workers rest ↔ v < rest) ↔ rest ≤ 1 ∨ rest + 1 = workers := by
  constructor
  · intro h
    by_contra hnot
    have hlast : (rest - 1) * workers / rest ∈ recipients workers rest :=
      List.mem_map_of_mem (List.mem_range.2 (by omega))
    have hfirst := (h _ (lt_of_mem_recipients (Nat.zero_lt_of_lt hlt) hlast)).1 hlast
    exact absurd (le_last_recipient (by omega) (by omega)) (Nat.not_le.2 hfirst)
  · intro h v _
    have hfirst : recipients workers rest = List.range rest := by
      rcases h with hone | rfl
      · rcases Nat.le_one_iff_eq_zero_or_eq_one.1 hone with rfl | rfl
        · rfl
        · simp [recipients]
      · exact recipients_succ
    rw [hfirst, List.mem_range]

/-! ## How long strips are -/

/-- There is a worker for every number up to the largest one. -/
lemma WorkerId.index_ofNat {v : Nat} (hv : v < 65535) : (Id.ofNat v : WorkerId).index = v :=
  Nat.mod_eq_of_lt (Nat.lt_succ_of_lt hv)

namespace Network

variable {n : Network} {assignment : List WorkerId}

/-- The longer strips are the first ones: as many of the first workers as links are left over get one link more than the
whole part that everybody gets. -/
def FirstStripsLonger (n : Network) (workers : Nat) (assignment : List WorkerId) : Prop :=
  ∀ w : WorkerId, w.index < workers →
    assignment.count w = n.linkCount / workers + if w.index < n.linkCount % workers then 1 else 0

/-- The longer strips are spread among all strips. -/
structure SpreadsRest (n : Network) (workers : Nat) (assignment : List WorkerId) : Prop where
  /-- A worker gets a whole part, and one link more if one of those that are left over goes to it. -/
  count_eq : ∀ w : WorkerId, w.index < workers → assignment.count w = n.linkCount / workers +
    if w.index ∈ recipients workers (n.linkCount % workers) then 1 else 0
  /-- There are as many longer strips as links are left over. -/
  longer : (List.range workers).countP (fun v => assignment.count (Id.ofNat v) = n.linkCount / workers + 1) =
    n.linkCount % workers
  /-- The first workers together get their part of all links, rounded up. -/
  first : ∀ v ≤ workers,
    assignment.countP (fun w => w.index < v) = (v * n.linkCount + (workers - 1)) / workers
  /-- The longer strips are the first ones just if there is at most one of them, or only one other. -/
  firstStripsLonger_iff : n.FirstStripsLonger workers assignment ↔
    n.linkCount % workers ≤ 1 ∨ n.linkCount % workers + 1 = workers

namespace Ranked

variable (h : n.Ranked workers assignment) (hpos : 1 ≤ workers) (hle : workers ≤ 65535)

include h hpos hle

/-- How many links the first workers get together. -/
lemma countP_index_lt {v : Nat} (hv : v ≤ workers) :
    assignment.countP (fun w => w.index < v) = (v * n.linkCount + (workers - 1)) / workers := by
  rw [← countP_quotient_lt n.linkCount hv hpos, h.perm.countP_eq, List.countP_map]
  refine List.countP_congr fun r hr => ?_
  rw [Function.comp_apply, (index_stripOf hpos hle (List.mem_range.1 hr)).1]

/-- How many links a worker gets, by its number. -/
lemma count_ofNat {v : Nat} (hv : v < workers) : assignment.count (Id.ofNat v) = n.linkCount / workers +
    if v ∈ recipients workers (n.linkCount % workers) then 1 else 0 := by
  have hindex := WorkerId.index_ofNat (Nat.lt_of_lt_of_le hv hle)
  rw [h.count_eq hpos hle (hindex.symm ▸ hv), hindex]

end Ranked

/-- **The longer strips of any network are spread among all strips**, for any number of workers that has numbers for them.

**Proof sketch.** Every link has the worker for its rank (`Ranked`), and of the ranks every worker gets a whole part and
what it would get if there were only those that are left over (`countP_quotient_eq_add`). These go to different workers,
one behind the other (`pairwise_recipients`). Of several links the last one goes too far for all of them to go to the
first workers, unless there is but one worker to whom none goes (`le_last_recipient`). -/
theorem spreadsRest (n : Network) (hpos : 1 ≤ workers) (hle : workers ≤ 65535) :
    ∃ assignment, n.strips workers = .ok assignment ∧ n.SpreadsRest workers assignment := by
  obtain ⟨assignment, hstrips, hranked⟩ := n.strips_eq_ok hpos hle
  have hlt : n.linkCount % workers < workers := Nat.mod_lt _ hpos
  refine ⟨assignment, hstrips, ?_⟩
  constructor
  case count_eq => exact fun w => hranked.count_eq hpos hle
  case longer =>
    refine (List.countP_congr fun v hv => ?_).trans (countP_mem_recipients hlt)
    rw [hranked.count_ofNat hpos hle (List.mem_range.1 hv), decide_eq_true_eq, decide_eq_true_eq, Nat.add_left_cancel_iff]
    split_ifs with hmem <;> simp [hmem]
  case first => exact fun v => hranked.countP_index_lt hpos hle
  case firstStripsLonger_iff =>
    rw [← forall_mem_recipients_iff hlt]
    constructor
    · intro hfirst v hv
      have hindex := WorkerId.index_ofNat (Nat.lt_of_lt_of_le hv hle)
      have hcount := hfirst (Id.ofNat v) (hindex.symm ▸ hv)
      rw [hranked.count_ofNat hpos hle hv, hindex, Nat.add_left_cancel_iff] at hcount
      split_ifs at hcount with hmem hfirst hfirst <;> simp [hmem, hfirst]
    · intro hmem w hw
      simp only [hranked.count_eq hpos hle hw, hmem _ hw]

end Network

/-! ## A promenade -/

namespace NetworkBuilder

/-- A promenade: four places in a row, joined by roads. -/
def promenade : NetworkBuilder where
  nodes := #[⟨Binary64.zero, Binary64.zero⟩, ⟨Binary64.ofNat 1, Binary64.zero⟩, ⟨Binary64.ofNat 2, Binary64.zero⟩,
    ⟨Binary64.ofNat 3, Binary64.zero⟩]
  links := #[alley 0 1 (Binary64.ofNat 1) (Binary64.ofNat 1), alley 1 0 (Binary64.ofNat 1) (Binary64.ofNat 1),
    alley 1 2 (Binary64.ofNat 1) (Binary64.ofNat 1), alley 2 1 (Binary64.ofNat 1) (Binary64.ofNat 1),
    alley 2 3 (Binary64.ofNat 1) (Binary64.ofNat 1), alley 3 2 (Binary64.ofNat 1) (Binary64.ofNat 1)]

/-- Its network. -/
def promenadeNetwork : Network where
  nodes := promenade.nodes
  links := promenade.links
  outStart := #[0, 1, 3, 5, 6]

lemma build_promenade : promenade.build = .ok promenadeNetwork :=
  build_of_pairwise (by decide +kernel) (by decide +kernel) (by decide +kernel) (by decide +kernel)

/-- Its links are in order from west to east. -/
lemma byX_promenade : promenadeNetwork.byX = List.range 6 := List.mergeSort_of_pairwise (by decide +kernel)

/-- **The longer strips need not be the first ones**: if the six links of the promenade are divided among four workers,
the second worker gets one link and the third one two. -/
theorem not_firstStripsLonger_promenade :
    let assignment := [Id.ofNat 0, Id.ofNat 0, Id.ofNat 1, Id.ofNat 2, Id.ofNat 2, Id.ofNat 3]
    promenade.build = .ok promenadeNetwork ∧ promenadeNetwork.strips 4 = .ok assignment ∧
      ¬ promenadeNetwork.FirstStripsLonger 4 assignment := by
  refine ⟨build_promenade, ?_, fun h => ?_⟩
  · rw [Network.strips, byX_promenade]
    rfl
  · have hsecond := h (Id.ofNat 1) (by decide)
    revert hsecond
    decide

/-- The strips of the promenade are as long as those of any network, whether four workers have them or five. -/
theorem spreadsRest_promenade :
    (1 ≤ 4 ∧ 4 ≤ 65535 ∧ ∃ assignment, promenadeNetwork.strips 4 = .ok assignment ∧
      promenadeNetwork.SpreadsRest 4 assignment) ∧
    (1 ≤ 5 ∧ 5 ≤ 65535 ∧ ∃ assignment, promenadeNetwork.strips 5 = .ok assignment ∧
      promenadeNetwork.SpreadsRest 5 assignment) :=
  ⟨⟨by decide, by decide, promenadeNetwork.spreadsRest (by decide) (by decide)⟩, by decide, by decide,
    promenadeNetwork.spreadsRest (by decide) (by decide)⟩

end NetworkBuilder

end EventSim
