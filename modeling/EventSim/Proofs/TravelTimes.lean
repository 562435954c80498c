import EventSim.Proofs.Adjacency
import EventSim.Proofs.RoundedQuotient
import EventSim.Proofs.Scenarios

set_option autoImplicit false

/-!
# The times of links

A network is built of links whose length, speed and capacity are finite and positive. The times that belong to a link
are rounded quotients of these, and they need not be so: a link that is too short for the speed on it takes no time,
one that is too long takes for ever, and a capacity may be so small that the time between two vehicles is infinite. The
free travel time is the lookahead of the road of the link. So the roads of a network can be registered just if none of
its links is too short or too long, and otherwise the first that is so is refused.

## Main definitions

* `EventSim.Link.Passable`, `EventSim.Link.Drains` — links that are passed in a positive finite time, and links that
  vehicles leave at finite intervals.
* `EventSim.Network.Timed` — what the times of a network are like, and what becomes of its roads.

## Main results

* `EventSim.Link.Admissible.isPositiveFinite_freeTravel_iff`, `EventSim.Link.Admissible.isFinite_headway_iff` — when
  the times of a link are finite and positive.
* `EventSim.Scheduler.registerRoads_eq_ok`, `EventSim.Scheduler.registerRoads_eq_invalidLookahead` — which roads a new
  scheduler accepts, and which it refuses.
* `EventSim.NetworkBuilder.timed` — what holds of every network that is built.
* `EventSim.NetworkBuilder.exists_invalidLookahead` — a network that is built and cannot be used.
-/

namespace EventSim

/-! ## Free travel times and headways -/

namespace Link

open Binary64 (zero infinity)

variable {l : Link} {nodeCount : Nat}

/-- The length is neither so small nor so large, against the speed, that their ratio is rounded to zero or to infinity:
it is above `2 ^ (-1075)` and below `2 ^ 1024 - 2 ^ 970`. -/
def Passable (l : Link) : Prop :=
  l.speed.size < l.length.size * 2 ^ 1075 ∧ l.length.size < (2 ^ 54 - 1) * 2 ^ 970 * l.speed.size

instance (l : Link) : Decidable l.Passable := inferInstanceAs (Decidable (_ ∧ _))

/-- The capacity is not so small that the time from one vehicle to the next is rounded to infinity. -/
def Drains (l : Link) : Prop := 3600 * 2 ^ 104 < (2 ^ 54 - 1) * l.capacity.size

instance (l : Link) : Decidable l.Drains := inferInstanceAs (Decidable (_ < _))

namespace Admissible

lemma isPositiveFinite_length (h : l.Admissible nodeCount) : l.length.isPositiveFinite = true :=
  Binary64.isPositiveFinite_iff_numericLt.2 h.length

lemma isPositiveFinite_speed (h : l.Admissible nodeCount) : l.speed.isPositiveFinite = true :=
  Binary64.isPositiveFinite_iff_numericLt.2 h.speed

lemma isPositiveFinite_capacity (h : l.Admissible nodeCount) : l.capacity.isPositiveFinite = true :=
  Binary64.isPositiveFinite_iff_numericLt.2 h.capacity

/-- **The free travel time is finite and positive** just if the link is passable. -/
theorem isPositiveFinite_freeTravel_iff (h : l.Admissible nodeCount) :
    l.freeTravel.isPositiveFinite = true ↔ l.Passable := by
  rw [Binary64.isPositiveFinite_iff_ordinal, freeTravel,
    Binary64.isFinite_div_iff h.isPositiveFinite_length h.isPositiveFinite_speed,
    Binary64.ordinal_div_pos_iff h.isPositiveFinite_length h.isPositiveFinite_speed, and_comm, Passable]

/-- A link that is not passable takes no time, or it takes for ever. -/
lemma freeTravel_eq (h : l.Admissible nodeCount) (hl : ¬ l.Passable) :
    l.freeTravel = zero ∨ l.freeTravel = infinity := by
  obtain ⟨-, hordinal⟩ := Binary64.ordinal_div h.isPositiveFinite_length h.isPositiveFinite_speed
  rw [← h.isPositiveFinite_freeTravel_iff, Binary64.isPositiveFinite_iff_ordinal, Binary64.isFinite_iff_ordinal,
    freeTravel, hordinal] at hl
  have hzero : zero.ordinal = 0 := rfl
  have hinf : infinity.ordinal = infinity.magnitude.toNat := rfl
  rcases Nat.eq_zero_or_pos
    (min (Binary64.nearestRatio (l.length.size * 2 ^ 1074) l.speed.size) infinity.magnitude.toNat) with hmin | hmin
  · exact Or.inl (Binary64.ordinal_inj (hordinal.trans (by rw [hmin, hzero]; rfl)))
  · exact Or.inr (Binary64.ordinal_inj (hordinal.trans (by rw [hinf]; omega)))

/-- **The headway is positive**, and finite just if the link drains. -/
theorem headway_spec (h : l.Admissible nodeCount) :
    zero.numericLt l.headway = true ∧ (l.headway.isFinite = true ↔ l.Drains) := by
  have hhour : (Binary64.ofNat 3600).isPositiveFinite = true := by decide +kernel
  have hsize : (Binary64.ofNat 3600).size = 3600 * 2 ^ 1074 := by decide +kernel
  have hcapacity := h.isPositiveFinite_capacity
  have hlt := Binary64.size_lt (Binary64.isPositiveFinite_iff.1 hcapacity).1
  have hpow : ∀ {i j k : Nat}, 53 + i ≤ j + k → 2 ^ 53 * 2 ^ i ≤ 3600 * 2 ^ j * 2 ^ k := fun h => by
    rw [Nat.mul_assoc, ← Nat.pow_add, ← Nat.pow_add]
    exact (Nat.pow_le_pow_right Nat.two_pos h).trans (Nat.le_mul_of_pos_left _ (by decide))
  constructor
  · rw [Binary64.zero_numericLt_iff, headway, Binary64.ordinal_div_pos_iff hhour hcapacity, hsize]
    exact ⟨(Binary64.ordinal_div hhour hcapacity).1, hlt.trans_le (hpow (by decide))⟩
  · have hshift : 3600 * 2 ^ 1074 = 3600 * 2 ^ 104 * 2 ^ 970 := by rw [Nat.mul_assoc, ← Nat.pow_add]
    rw [headway, Binary64.isFinite_div_iff hhour hcapacity, hsize, hshift, Nat.mul_right_comm (2 ^ 54 - 1), Drains,
      Nat.mul_lt_mul_right (Nat.pow_pos (by decide))]

end Admissible

end Link

/-! ## Registration -/

namespace Scheduler

section Units

variable {U P : Type} [SimUnit U P] {s : Scheduler U P} {unit : U} {worker : WorkerId}

/-- A lookahead that is refused is that of the unit, and it is not finite and positive. -/
lemma of_register_eq_invalidLookahead {id : UnitId} {x : Binary64}
    (h : (s.register unit worker).1 = .error (.invalidLookahead id x)) :
    x = (SimUnit.lookahead unit).secs ∧ x.isPositiveFinite = false := by
  unfold Scheduler.register at h
  split at h
  · cases h
  split at h
  · cases h
  split at h
  · cases h
  dsimp only at h
  split at h
  · cases h
  split at h
  · rename_i hinvalid
    cases h
    exact ⟨rfl, by simpa using hinvalid⟩
  · cases h

/-- If there is a number for a unit and the worker exists, the lookahead decides. -/
lemma register_eq (hstate : s.state = .setup) (hworker : worker.index < s.config.workers)
    (hsize : s.units.size + 1 < UInt32.size) : s.register unit worker =
      if (SimUnit.lookahead unit).secs.isPositiveFinite = true then
        (.ok (Id.ofNat s.units.size), { s with units := s.units.push (some ⟨unit, worker, 0⟩) })
      else (.error (.invalidLookahead (Id.ofNat s.units.size) (SimUnit.lookahead unit).secs), s) := by
  have hlt : s.units.size < IdKind.unit.capacity := by
    change s.units.size < UInt32.size
    omega
  have hindex : (Id.ofNat s.units.size : UnitId).index = s.units.size := Nat.mod_eq_of_lt hlt
  have hid : (Id.ofNat? s.units.size : Option UnitId) = some (Id.ofNat s.units.size) := by
    rw [Id.ofNat?, dif_pos hlt]
    exact congrArg some (Id.ext_index hindex.symm)
  have hvalid : (Id.ofNat s.units.size : UnitId) ≠ Id.invalid := by
    intro h
    have hlast : (Id.ofNat s.units.size : UnitId).index = UInt32.size - 1 := congrArg Id.index h
    omega
  unfold Scheduler.register
  rw [if_neg (not_not.2 hstate), if_neg (Nat.not_le.2 hworker), hid]
  dsimp only
  rw [if_neg hvalid]
  cases (SimUnit.lookahead unit).secs.isPositiveFinite <;> rfl

end Units

variable {s : Scheduler Road TrafficEvent} {p : Population} {n : Network} {assignment : List WorkerId}

/-- The free travel time of a link decides about its road. -/
lemma registerRoad_eq {id : LinkId} (link : Link) {worker : WorkerId} (hstate : s.state = .setup)
    (hworker : worker.index < s.config.workers) (hid : id.index = s.units.size)
    (hsize : s.units.size + 1 < UInt32.size) : s.registerRoad p id link (p.departingFrom id) worker =
      if link.freeTravel.isPositiveFinite = true then
        (.ok (), { s with units := s.units.push (roadEntry p ((id, link), worker)) })
      else (.error (.run (.invalidLookahead (Id.ofNat s.units.size) link.freeTravel)), s) := by
  have hindex : (Id.ofNat s.units.size : UnitId).index = id.index :=
    (Nat.mod_eq_of_lt (show s.units.size < UInt32.size by omega)).trans hid.symm
  have hregister : s.register (Road.ofLink id link p (p.departingFrom id)) worker =
      if link.freeTravel.isPositiveFinite = true then
        (.ok (Id.ofNat s.units.size), { s with units := s.units.push (roadEntry p ((id, link), worker)) })
      else (.error (.invalidLookahead (Id.ofNat s.units.size) link.freeTravel), s) :=
    register_eq hstate hworker hsize
  rw [registerRoad, hregister]
  split_ifs
  · exact if_pos hindex
  · rfl

/-- Roads with positive finite free travel times are registered one after another. -/
lemma registerListed_append {before rows : List ((LinkId × Link) × WorkerId)} (hstate : s.state = .setup)
    (hrows : ∀ k row, before[k]? = some row → row.1.1.index = s.units.size + k ∧ row.2.index < s.config.workers ∧
      row.1.2.freeTravel.isPositiveFinite = true) (hsize : s.units.size + before.length < UInt32.size) :
    registerListed p s (before ++ rows) =
      registerListed p { s with units := s.units ++ (before.map (roadEntry p)).toArray } rows := by
  induction before generalizing s with
  | nil => simp
  | cons row before ih =>
    obtain ⟨hid, hworker, hpositive⟩ := hrows 0 row rfl
    obtain ⟨⟨id, link⟩, worker⟩ := row
    rw [List.length_cons] at hsize
    have hroad := registerRoad_eq (p := p) link hstate hworker hid (by omega)
    rw [if_pos hpositive] at hroad
    rw [List.cons_append, registerListed, hroad]
    refine (ih (s := { s with units := s.units.push (roadEntry p ((id, link), worker)) }) hstate
      (fun k row hk => ?_) ?_).trans ?_
    · have hnext := hrows (k + 1) row hk
      rw [Array.size_push]
      exact ⟨by omega, hnext.2⟩
    · rw [Array.size_push]
      omega
    · simp

/-- The links of a network are taken with their numbers, each with a worker. -/
lemma of_getElem?_zip {k : Nat} {row : (LinkId × Link) × WorkerId}
    (h : ((n.linkIds.zip n.links.toList).zip assignment)[k]? = some row) :
    row.1.1 = Id.ofNat k ∧ n.links.toList[k]? = some row.1.2 ∧ row.2 ∈ assignment := by
  obtain ⟨hpair, hworker⟩ := List.getElem?_zip_eq_some.1 h
  obtain ⟨hid, hlink⟩ := List.getElem?_zip_eq_some.1 hpair
  obtain ⟨hk, -⟩ := List.getElem?_eq_some_iff.1 hid
  rw [Network.linkIds, List.getElem?_map, List.getElem?_range (by simpa [Network.linkIds] using hk)] at hid
  exact ⟨(Option.some.inj hid).symm, hlink, List.mem_of_getElem? hworker⟩

section New

variable {config : RunConfig} (hnew : Scheduler.new config = .ok s) (hcheck : checkScenario n p assignment = .ok ())
  (hworkers : ∀ w ∈ assignment, w.index < config.workers)

include hnew hcheck hworkers

/-- As long as links take positive finite times, their roads are registered. -/
lemma registerRoads_take (hsize : n.linkCount < UInt32.size) {k : Nat}
    (hlinks : ∀ link ∈ n.links.toList.take k, link.freeTravel.isPositiveFinite = true) :
    ∃ s', s'.state = .setup ∧ s'.config = config ∧ s'.units.size = min k n.linkCount ∧ s.registerRoads n p assignment =
      registerListed p s' (((n.linkIds.zip n.links.toList).zip assignment).drop k) := by
  obtain rfl := eq_of_new hnew
  obtain ⟨hlength, -⟩ := of_checkScenario hcheck
  have hcount := length_zip_assignment hlength
  rw [Network.numberedLinks, Nat.mod_eq_of_lt hsize] at hcount
  generalize hrows : (n.linkIds.zip n.links.toList).zip assignment = rows at *
  have htake : (rows.take k).length = min k n.linkCount := by rw [List.length_take, hcount]
  refine ⟨{ config, units := #[] ++ ((rows.take k).map (roadEntry p)).toArray }, rfl, rfl, ?_, ?_⟩
  · rw [Array.empty_append, List.size_toArray, List.length_map, htake]
  rw [registerRoads_eq, hcheck, hrows]
  conv_lhs => rw [← List.take_append_drop k rows]
  refine registerListed_append rfl (fun j row hj => ?_) ?_
  · obtain ⟨hjk, -⟩ := List.getElem?_eq_some_iff.1 hj
    have hlt : j < k := by omega
    have hlt' : j < UInt32.size := by omega
    rw [List.getElem?_take_of_lt hlt, ← hrows] at hj
    obtain ⟨hid, hlink, hworker⟩ := of_getElem?_zip hj
    refine ⟨?_, hworkers _ hworker, hlinks _ (List.mem_of_getElem? ((List.getElem?_take_of_lt hlt).trans hlink))⟩
    rw [hid]
    exact (Nat.mod_eq_of_lt hlt').trans (Nat.zero_add j).symm
  · change 0 + _ < _
    omega

/-- **Roads whose links take positive finite times are registered** with a new scheduler. -/
theorem registerRoads_eq_ok (hsize : n.linkCount < UInt32.size)
    (hlinks : ∀ link ∈ n.links.toList, link.freeTravel.isPositiveFinite = true) :
    (s.registerRoads n p assignment).1 = .ok () := by
  obtain ⟨s', -, -, -, hroads⟩ := registerRoads_take (k := n.linkCount) hnew hcheck hworkers hsize
    fun link hlink => hlinks link (List.mem_of_mem_take hlink)
  have hdrop : ((n.linkIds.zip n.links.toList).zip assignment).drop n.linkCount = [] :=
    List.drop_eq_nil_iff.2 ((length_zip_assignment (of_checkScenario hcheck).1).le.trans (Nat.mod_le ..))
  rw [hroads, hdrop]
  rfl

/-- **The first link that takes no time, or for ever, is refused** by a new scheduler. -/
theorem registerRoads_eq_invalidLookahead (hsize : n.linkCount < UInt32.size) {before after : List Link} {link : Link}
    (hlinks : n.links.toList = before ++ link :: after) (hlength : before.length + 1 < UInt32.size)
    (hbefore : ∀ m ∈ before, m.freeTravel.isPositiveFinite = true) (hlink : link.freeTravel.isPositiveFinite = false) :
    (s.registerRoads n p assignment).1 =
      .error (.run (.invalidLookahead (Id.ofNat before.length) link.freeTravel)) := by
  have hcount : n.linkCount = before.length + (after.length + 1) := by
    rw [Network.linkCount, ← Array.length_toList, hlinks, List.length_append, List.length_cons]
  obtain ⟨s', hstate, hconfig, hunits, hroads⟩ := registerRoads_take (k := before.length) hnew hcheck hworkers
    hsize (by rwa [hlinks, List.take_left])
  rw [Nat.min_eq_left (by omega)] at hunits
  -- the row of the link comes next
  have hk : before.length < ((n.linkIds.zip n.links.toList).zip assignment).length := by
    rw [length_zip_assignment (of_checkScenario hcheck).1, Network.numberedLinks, Nat.mod_eq_of_lt hsize]
    omega
  obtain ⟨hid, hlink', hworker⟩ := of_getElem?_zip (List.getElem?_eq_getElem hk)
  rw [List.drop_eq_getElem_cons hk] at hroads
  generalize ((n.linkIds.zip n.links.toList).zip assignment)[before.length] = row at *
  obtain ⟨⟨id, link'⟩, worker⟩ := row
  dsimp only at hid hlink' hworker
  rw [hlinks, List.getElem?_append_right (Nat.le_refl _), Nat.sub_self] at hlink'
  obtain rfl := Option.some.inj hlink'
  have hindex : id.index = s'.units.size := by
    rw [hid, hunits]
    exact Nat.mod_eq_of_lt (Nat.lt_of_succ_lt hlength)
  have hroad := registerRoad_eq (p := p) link hstate (hconfig ▸ hworkers worker hworker) hindex
    (hunits ▸ hlength)
  rw [hlink, if_neg Bool.false_ne_true, hunits] at hroad
  rw [hroads, registerListed, hroad]

end New

end Scheduler

/-! ## Networks that are built -/

/-- What the times of a network are like, and what becomes of its roads. -/
structure Network.Timed (n : Network) : Prop where
  /-- Vehicles leave a link one after another, and at finite intervals if it drains. -/
  headway : ∀ link ∈ n.links.toList,
    Binary64.zero.numericLt link.headway = true ∧ (link.headway.isFinite = true ↔ link.Drains)
  /-- A link takes a positive finite time just if it is passable. -/
  freeTravel : ∀ link ∈ n.links.toList, Link.Measures link.freeTravel ↔ link.Passable
  /-- Any other link takes no time, or it takes for ever. -/
  extreme : ∀ link ∈ n.links.toList, ¬ link.Passable →
    link.freeTravel = Binary64.zero ∨ link.freeTravel = Binary64.infinity
  /-- If all links are passable, no scheduler refuses a road for its lookahead, -/
  accepts : (∀ link ∈ n.links.toList, link.Passable) →
    ∀ (s : Scheduler Road TrafficEvent) (p : Population) (assignment : List WorkerId) (u : UnitId) (x : Binary64),
      (s.registerRoads n p assignment).1 ≠ .error (.run (.invalidLookahead u x))
  /-- and a new one that has the workers and numbers for them registers all roads. -/
  registers : (∀ link ∈ n.links.toList, link.Passable) → n.linkCount < UInt32.size →
    ∀ {config : RunConfig} {s : Scheduler Road TrafficEvent} {p : Population} {assignment : List WorkerId},
      Scheduler.new config = .ok s → Scheduler.checkScenario n p assignment = .ok () →
        (∀ w ∈ assignment, w.index < config.workers) → (s.registerRoads n p assignment).1 = .ok ()
  /-- Otherwise it refuses the first link that is not passable. -/
  refuses : ∀ {before after : List Link} {link : Link}, n.links.toList = before ++ link :: after →
    (∀ m ∈ before, m.Passable) → ¬ link.Passable → before.length + 1 < UInt32.size →
    ∀ {config : RunConfig} {s : Scheduler Road TrafficEvent} {p : Population} {assignment : List WorkerId},
      Scheduler.new config = .ok s → Scheduler.checkScenario n p assignment = .ok () →
        (∀ w ∈ assignment, w.index < config.workers) → (s.registerRoads n p assignment).1 =
          .error (.run (.invalidLookahead (Id.ofNat before.length) link.freeTravel))

namespace NetworkBuilder

variable {b : NetworkBuilder} {n : Network}

/-- **The times of every network that is built** are finite and positive just as far as its links are neither too short
nor too long for the speed on them, and its roads can be used just as far.

**Proof sketch.** The free travel time and the headway are the numbers nearest to the exact ratios
(`Binary64.ordinal_div`). Such a number is zero if the ratio is at most half a unit, and infinite if it is at least in
the middle between the largest finite number and the next power of two. The lookahead of a road is the free travel time
of its link, and registration refuses the first that is not finite and positive. -/
theorem timed (h : b.build = .ok n) : n.Timed := by
  have hcount := linkCount_lt_of_build h
  obtain ⟨hlinks, -, rfl⟩ := build_eq_ok_iff.1 h
  have hadmissible : ∀ link ∈ b.arranged.links.toList, link.Admissible b.nodes.size := fun link hlink =>
    hlinks link (b.perm_arranged.mem_iff.1 hlink)
  have hpassable : ∀ link ∈ b.arranged.links.toList, link.freeTravel.isPositiveFinite = true ↔ link.Passable :=
    fun link hlink => (hadmissible link hlink).isPositiveFinite_freeTravel_iff
  constructor
  case headway => exact fun link hlink => (hadmissible link hlink).headway_spec
  case freeTravel =>
    intro link hlink
    rw [← hpassable link hlink, Binary64.isPositiveFinite_iff_numericLt, Link.Measures]
  case extreme => exact fun link hlink => (hadmissible link hlink).freeTravel_eq
  case accepts =>
    intro hall s p assignment u x hrefused
    rw [Scheduler.registerRoads_eq] at hrefused
    split at hrefused
    · rename_i e hcheck
      cases hrefused
      rcases Scheduler.of_checkScenario_error hcheck with h | ⟨_, _, _, _, _, h⟩ <;> cases h
    · obtain ⟨l, h⟩ | ⟨row, hrow, s₁, e, he, hregister⟩ := Scheduler.of_registerListed_error hrefused
      · cases h
      cases he
      obtain ⟨rfl, hinvalid⟩ := Scheduler.of_register_eq_invalidLookahead hregister
      have hmem := (List.of_mem_zip (List.of_mem_zip hrow).1).2
      exact Bool.false_ne_true (hinvalid.symm.trans ((hpassable _ hmem).2 (hall _ hmem)))
  case registers =>
    intro hall hsize config s p assignment hnew hcheck hworkers
    exact Scheduler.registerRoads_eq_ok hnew hcheck hworkers hsize fun link hlink =>
      (hpassable link hlink).2 (hall link hlink)
  case refuses =>
    intro before after link hsplit hbefore hlink hsize config s p assignment hnew hcheck hworkers
    have hmem : ∀ m ∈ before, m ∈ b.arranged.links.toList := fun m hm => hsplit ▸ List.mem_append_left _ hm
    have hlinkmem : link ∈ b.arranged.links.toList := hsplit ▸ List.mem_append_right _ List.mem_cons_self
    exact Scheduler.registerRoads_eq_invalidLookahead hnew hcheck hworkers hcount hsplit hsize
      (fun m hm => (hpassable m (hmem m hm)).2 (hbefore m hm))
      (Bool.eq_false_of_not_eq_true (mt (hpassable link hlinkmem).1 hlink))

/-! ### A link that takes no time -/

/-- Two places that are joined by a link of the least positive length, with two metres to a second on it, and of the
least positive capacity. -/
def doorstep : NetworkBuilder where
  nodes := #[⟨Binary64.zero, Binary64.zero⟩, ⟨Binary64.ofNat 1, Binary64.zero⟩]
  links := #[⟨Id.ofNat 0, Id.ofNat 1, ⟨1⟩, Binary64.ofNat 2, ⟨1⟩⟩]

/-- Its network. -/
def doorstepNetwork : Network where
  nodes := doorstep.nodes
  links := doorstep.links
  outStart := #[0, 1, 1]

lemma build_doorstep : doorstep.build = .ok doorstepNetwork :=
  build_of_pairwise (by decide +kernel) (by decide +kernel) (by decide +kernel) (by decide +kernel)

/-- **A network that is built need not be of use**: its free travel times and headways may be zero and infinite, and
then its roads are refused. -/
theorem exists_invalidLookahead : ∃ (b : NetworkBuilder) (n : Network) (link : Link), b.build = .ok n ∧
    link ∈ n.links.toList ∧ link.freeTravel = Binary64.zero ∧ link.headway = Binary64.infinity ∧
    ∃ s : Scheduler Road TrafficEvent, Scheduler.new {} = .ok s ∧
      (s.registerRoads n {} [Id.ofNat 0]).1 = .error (.run (.invalidLookahead (Id.ofNat 0) Binary64.zero)) :=
  ⟨doorstep, doorstepNetwork, ⟨Id.ofNat 0, Id.ofNat 1, ⟨1⟩, Binary64.ofNat 2, ⟨1⟩⟩, build_doorstep, by decide +kernel,
    by decide +kernel, by decide +kernel, _, rfl, by decide +kernel⟩

/-- The network of the doorstep is refused for its one link, and the old town is registered. -/
theorem timed_doorstep :
    (doorstep.build = .ok doorstepNetwork ∧ ¬ (∀ link ∈ doorstepNetwork.links.toList, link.Passable) ∧
      doorstepNetwork.Timed) ∧
    ((ofAdditions oldTown).build = .ok oldTownNetwork ∧ (∀ link ∈ oldTownNetwork.links.toList, link.Passable) ∧
      oldTownNetwork.Timed) :=
  ⟨⟨build_doorstep, by decide +kernel, timed build_doorstep⟩, build_oldTown, by decide +kernel, timed build_oldTown⟩

end NetworkBuilder

end EventSim
