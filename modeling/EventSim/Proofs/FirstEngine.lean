import EventSim.Proofs.Launch

set_option autoImplicit false

/-!
# The engine before the first round

When all units have started, the engine holds each of them as it is after its start, nothing waits, and what
is staged are the seeds and what the units have sent. Every message that is staged has an identity of its
own.

## Main definitions

* `EventSim.Engine.Numbered` — the messages of each unit are numbered through.

## Main results

* `EventSim.Scheduler.Sound.coherent_firstEngine` — the engine is coherent before the first round.
* `EventSim.Scheduler.Sound.slot?_firstEngine` — each unit before the first round.
* `EventSim.Scheduler.Sound.perm_messages_firstEngine` — what is staged before the first round.
* `EventSim.Engine.Numbered.nodup` — messages that are numbered through have identities of their own.
-/

namespace EventSim

namespace Scheduler

variable {U P : Type} [Payload P] [SimUnit U P] {s : Scheduler U P} {u : UnitId} {x : Slot U}

namespace Sound

/-! ## What is where -/

omit [Payload P] [SimUnit U P] in
/-- Seeds and openings are posted together. -/
lemma postbox_engineOf (table : RoutingTable) (seeds : Array (Message P))
    (started : List (StartUp U P)) : (engineOf table seeds started).postbox =
      (Postbox.empty table started.length).postAll 0
        (seeds.toList.map .deliver ++ started.flatMap (·.sent)) := by
  rw [Postbox.postAll, List.foldl_append]
  rfl

lemma postbox_firstEngine (hs : s.Sound) : s.firstEngine.postbox =
    (Postbox.empty s.table s.config.workers).postAll 0 s.opening := by
  rw [firstEngine, postbox_engineOf, List.length_map, Array.length_toList, hs.describes.size_slots,
    opening, placed, List.flatMap_map, List.flatMap_assoc]

lemma table_firstEngine (hs : s.Sound) : s.firstEngine.postbox.table = s.table := by
  rw [hs.postbox_firstEngine, Postbox.table_postAll]
  rfl

/-- What is at a worker before the first round. -/
lemma getElem?_workers_firstEngine (i : Nat) : s.firstEngine.workers[i]? =
    s.placement.slots[i]?.map fun xs =>
      Worker.init (Id.ofNat i) (xs.toList.map (·.started s.table s.config.startTime)).toArray := by
  rw [firstEngine, engineOf]
  simp only [List.getElem?_toArray, List.getElem?_map, List.getElem?_zipIdx, Array.getElem?_toList]
  cases s.placement.slots[i]? <;> simp

/-- Everything that is staged is for a unit with an owner. -/
lemma opening_owned (hs : s.Sound) : ∀ y ∈ s.opening,
    ∃ i < s.config.workers, s.table.owner? y.target = some i := by
  have howner : ∀ u, (s.table.route? u).isSome → ∃ i < s.config.workers, s.table.owner? u = some i := by
    intro u hu
    obtain ⟨r, hr⟩ := Option.isSome_iff_exists.1 hu
    have ho : s.table.owner? u = some r.worker.index := by
      rw [RoutingTable.owner?, hr]
      rfl
    exact ⟨_, hs.owner_lt ho, ho⟩
  intro y hy
  rcases List.mem_append.1 hy with hy | hy
  · obtain ⟨m, hm, rfl⟩ := List.mem_map.1 hy
    exact howner _ ((hs.isSome_route? _).trans (hs.seed_target m hm))
  · obtain ⟨x, _, hy⟩ := List.mem_flatMap.1 hy
    exact howner _ ((Slot.startCall_sends s.table s.config.startTime x).routed y hy)

/-- A worker before the first round holds its units, started. -/
lemma exists_worker_firstEngine (hs : s.Sound) {i : Nat} {w : Worker U P}
    (hw : s.firstEngine.workers[i]? = some w) : ∃ xs, s.placement.slots[i]? = some xs ∧
      w = Worker.init (Id.ofNat i) (xs.toList.map (·.started s.table s.config.startTime)).toArray ∧
      (Id.ofNat i : WorkerId).index = i := by
  rw [getElem?_workers_firstEngine] at hw
  obtain ⟨xs, hxs, rfl⟩ := Option.map_eq_some_iff.1 hw
  have hi := (Array.getElem?_eq_some_iff.1 hxs).1
  rw [hs.describes.size_slots] at hi
  have hmax : maxWorkers ≤ IdKind.worker.capacity := by decide
  exact ⟨xs, hxs, rfl, Nat.mod_eq_of_lt (Nat.lt_of_lt_of_le hi (Nat.le_trans hs.workers_le hmax))⟩

/-- The units of a worker before the first round are in their places. -/
lemma placed_firstEngine (hs : s.Sound) {i : Nat} {w : Worker U P}
    (hw : s.firstEngine.workers[i]? = some w) : w.Placed s.table := by
  obtain ⟨xs, hxs, rfl, hi⟩ := hs.exists_worker_firstEngine hw
  refine ⟨fun k x' hx' => ?_, fun u r hr hworker => ?_⟩
  · simp only [Worker.init, List.getElem?_toArray, List.getElem?_map, Array.getElem?_toList] at hx'
    obtain ⟨x, hx, rfl⟩ := Option.map_eq_some_iff.1 hx'
    have hslot : s.placement.slot? i k = some x := by
      rw [Placement.slot?, hxs]
      exact hx
    obtain ⟨r, _, hri, _, hk⟩ := hs.of_slot hslot
    rw [Slot.started_id, hk]
    exact congrArg (fun w => some (Route.mk w k)) (Id.ext_index (hri.trans hi.symm))
  · obtain ⟨q, _, _, hx⟩ := hs.exists_of_route? hr
    rw [(congrArg Id.index hworker).trans hi, Placement.slot?, hxs, Option.bind_some] at hx
    refine ⟨Slot.started s.table s.config.startTime ⟨u, q.unit, q.nextSeq⟩, ?_, rfl⟩
    simp only [Worker.init, List.getElem?_toArray, List.getElem?_map, Array.getElem?_toList, hx]
    rfl

lemma size_workers_firstEngine (hs : s.Sound) : s.firstEngine.workers.size = s.config.workers := by
  rw [firstEngine, engineOf]
  simp [hs.describes.size_slots]

/-- **The engine is coherent before the first round.** -/
theorem coherent_firstEngine (hs : s.Sound) : s.firstEngine.Coherent 0 where
  index_eq hw := by
    obtain ⟨xs, _, rfl, hi⟩ := hs.exists_worker_firstEngine hw
    exact hi
  size_eq := by
    rw [hs.size_workers_firstEngine, hs.postbox_firstEngine, Postbox.size_postAll]
    exact Array.size_replicate
  placed hw := by
    rw [hs.table_firstEngine]
    exact hs.placed_firstEngine hw
  owner_lt ho := by
    rw [hs.table_firstEngine] at ho
    rw [hs.size_workers_firstEngine]
    exact hs.owner_lt ho
  waiting_owned hw m hm := by
    obtain ⟨xs, _, rfl, _⟩ := hs.exists_worker_firstEngine hw
    simp [Worker.init, MessageQueue.empty] at hm
  staged_owned {i y} hy := by
    rw [hs.postbox_firstEngine] at hy
    rw [hs.table_firstEngine]
    by_cases hi : i < s.config.workers
    · rw [Postbox.staged_postAll (by simpa [Postbox.empty] using hi) rfl, Postbox.staged_empty,
        List.nil_append, List.mem_filter] at hy
      exact of_decide_eq_true hy.2
    · rw [Postbox.staged_eq_nil_of_size_le] at hy
      · cases hy
      · rw [Postbox.size_postAll]
        simpa [Postbox.empty] using hi
  idle i := by
    rw [hs.postbox_firstEngine, Postbox.staged_postAll_of_ne (by omega), Postbox.staged_empty]

/-! ## What is found there -/

/-- **Each unit before the first round** is as it is after its start. -/
theorem slot?_firstEngine (hs : s.Sound) (u : UnitId) : s.firstEngine.slot? u =
    (s.slot? u).map (·.started s.table s.config.startTime) := by
  have hc := hs.coherent_firstEngine
  cases hx : s.slot? u with
  | none =>
    rw [Option.map_none, ← Option.not_isSome_iff_eq_none, hc.isSome_slot?, hs.table_firstEngine,
      hs.isSome_route?]
    intro h
    obtain ⟨r, hr⟩ := Option.isSome_iff_exists.1 h
    simp [slot?, hr] at hx
  | some x =>
    obtain ⟨r, hr, rfl⟩ := Option.map_eq_some_iff.1 hx
    obtain ⟨k, hk, hplace⟩ := hs.exists_route hr
    obtain ⟨xs, hxs, hget⟩ := Option.bind_eq_some_iff.1 hplace
    have hw : s.firstEngine.workers[r.worker.index]? = some (Worker.init (Id.ofNat r.worker.index)
        (xs.toList.map (·.started s.table s.config.startTime)).toArray) := by
      rw [getElem?_workers_firstEngine, hxs]
      rfl
    refine hc.slot?_eq_some_iff.2 ⟨_, _, hw, Worker.slot?_eq_some_iff.2 ⟨⟨r.worker, k⟩, ?_, ?_, ?_⟩⟩
    · rw [hs.table_firstEngine, hk]
    · exact Id.ext_index (hc.index_eq hw).symm
    · simp only [Worker.init, List.getElem?_toArray, List.getElem?_map, Array.getElem?_toList, hget]
      rfl

/-- Nothing waits before the first round. -/
lemma waiting_firstEngine (s : Scheduler U P) : s.firstEngine.waiting = [] := by
  apply List.flatMap_eq_nil_iff.2
  intro w hw
  obtain ⟨i, hi⟩ := List.getElem?_of_mem hw
  rw [Array.getElem?_toList, getElem?_workers_firstEngine] at hi
  obtain ⟨xs, _, rfl⟩ := Option.map_eq_some_iff.1 hi
  rfl

/-- Nothing has been counted before the first round. -/
lemma total_firstEngine (s : Scheduler U P) {f : WorkerStats → Nat}
    (hf : ∀ w, f { worker := w } = 0) : s.firstEngine.total f = 0 := by
  apply List.sum_eq_zero
  intro n hn
  obtain ⟨w, hw, rfl⟩ := List.mem_map.1 hn
  obtain ⟨i, hi⟩ := List.getElem?_of_mem hw
  rw [Array.getElem?_toList, getElem?_workers_firstEngine] at hi
  obtain ⟨xs, _, rfl⟩ := Option.map_eq_some_iff.1 hi
  exact hf _

/-- **What is staged before the first round** are the seeds and what the units have sent. -/
theorem perm_messages_firstEngine (hs : s.Sound) :
    (s.firstEngine.postbox.messages 0).Perm (Envelope.messages s.opening) := by
  have hempty : (Postbox.empty s.table s.config.workers : Postbox P).messages 0 = [] :=
    List.flatMap_eq_nil_iff.2 fun i _ => by rw [Postbox.staged_empty, Envelope.messages_nil]
  have howned : ∀ y ∈ s.opening,
      ∃ i < (Postbox.empty s.table s.config.workers : Postbox P).inboxes.size,
        (Postbox.empty s.table s.config.workers : Postbox P).table.owner? y.target = some i := by
    intro y hy
    obtain ⟨i, hi, ho⟩ := hs.opening_owned y hy
    exact ⟨i, by simpa [Postbox.empty] using hi, ho⟩
  rw [hs.postbox_firstEngine]
  have hpost := Postbox.messages_postAll (rfl : 0 % 2 = 0 % 2) howned
  rwa [hempty, List.nil_append] at hpost

/-- What is staged for a worker is its share of what is staged. -/
lemma staged_firstEngine (hs : s.Sound) {i : Nat} (hi : i < s.config.workers) :
    s.firstEngine.postbox.staged i 0 =
      s.opening.filter fun y => s.table.owner? y.target = some i := by
  rw [hs.postbox_firstEngine, Postbox.staged_postAll (by simpa [Postbox.empty] using hi) rfl,
    Postbox.staged_empty, List.nil_append]
  rfl

/-- All that is staged before the first round is what the setup has staged. -/
lemma mem_envelopes_firstEngine (hs : s.Sound) {y : Envelope P} :
    y ∈ s.firstEngine.postbox.envelopes 0 ↔ y ∈ s.opening := by
  rw [Postbox.mem_envelopes]
  constructor
  · rintro ⟨i, hy⟩
    by_cases hi : i < s.config.workers
    · rw [hs.staged_firstEngine hi] at hy
      exact (List.mem_filter.1 hy).1
    · rw [Postbox.staged_eq_nil_of_size_le] at hy
      · cases hy
      · rw [hs.postbox_firstEngine, Postbox.size_postAll]
        simpa [Postbox.empty] using hi
  · intro hy
    obtain ⟨i, hi, ho⟩ := hs.opening_owned y hy
    refine ⟨i, ?_⟩
    rw [hs.staged_firstEngine hi]
    exact List.mem_filter.2 ⟨hy, by simpa using ho⟩

end Sound

end Scheduler

/-! ## Messages that are numbered through -/

namespace Engine

variable {U P : Type} {e : Engine U P} {ms : List (Message P)}

/-- Among the messages, those of each unit of the engine carry its running numbers in order, and the others
have identities of their own. -/
structure Numbered (e : Engine U P) (ms : List (Message P)) : Prop where
  /-- A unit has used the running numbers up to its next one. -/
  own : ∀ {u x}, e.slot? u = some x →
    (ms.filter (·.id.origin = u)).map (·.id) = (List.range x.nextSeq).map (MessageId.mk u)
  /-- Messages from elsewhere have identities of their own. -/
  other : ∀ {u}, e.slot? u = none → ((ms.filter (·.id.origin = u)).map (·.id)).Nodup

/-- **Messages that are numbered through have identities of their own.** -/
theorem Numbered.nodup (h : e.Numbered ms) : (ms.map (·.id)).Nodup := by
  apply List.nodup_iff_count_le_one.2
  intro id
  have horigin : ((ms.filter (·.id.origin = id.origin)).map (·.id)).Nodup := by
    cases hx : e.slot? id.origin with
    | none => exact h.other hx
    | some x =>
      rw [h.own hx]
      exact List.nodup_range.map fun _ _ heq => congrArg MessageId.seq heq
  have hcount : (ms.map (·.id)).count id =
      ((ms.filter (·.id.origin = id.origin)).map (·.id)).count id := by
    unfold List.count
    rw [List.countP_map, List.countP_map, List.countP_filter]
    apply List.countP_congr
    intro m _
    simp only [Function.comp_apply, beq_iff_eq, Bool.and_eq_true, decide_eq_true_eq]
    exact ⟨fun heq => ⟨heq, congrArg _ heq⟩, And.left⟩
  rw [hcount]
  exact List.nodup_iff_count_le_one.1 horigin id

/-- Messages stay numbered through when a round adds what is scheduled in it. -/
theorem Numbered.runRound [Payload P] [SimUnit U P] {round : Nat} (h : e.Numbered ms)
    (hc : e.Coherent round) (config : RunConfig) (horizon : SimTime) :
    (e.runRound config (round + 1) horizon).1.Numbered
      (ms ++ (e.runRound config (round + 1) horizon).2.accepted) where
  own {u x'} hx' := by
    cases hx : e.slot? u with
    | none => cases (hc.slot?_runRound_eq_none config horizon hx).symm.trans hx'
    | some x =>
      obtain ⟨y, hy, hadv⟩ := hc.advances config horizon hx
      cases hy.symm.trans hx'
      rw [List.filter_append, List.map_append, h.own hx, hadv.ids, hadv.nextSeq, hc.id_of_slot? hx,
        List.range_eq_range', List.range_eq_range', ← List.map_append]
      have hsum := List.range'_append_1 (s := 0) (m := x.nextSeq) (n := List.length
        ((e.runRound config (round + 1) horizon).2.accepted.filter (·.id.origin = u)))
      rw [Nat.zero_add] at hsum
      rw [hsum]
  other {u} hu := by
    have hnone : e.slot? u = none := by
      rw [← Option.not_isSome_iff_eq_none, hc.isSome_slot?]
      rw [← Option.not_isSome_iff_eq_none, (hc.runRound config horizon).isSome_slot?,
        table_runRound] at hu
      exact hu
    have hnil : (e.runRound config (round + 1) horizon).2.handled.filter (·.message.target = u) = [] :=
      List.filter_eq_nil_iff.2 fun y hy htarget => by
        obtain ⟨x, hx⟩ := hc.exists_slot_of_handled hy
        rw [of_decide_eq_true htarget, hnone] at hx
        cases hx
    rw [List.filter_append, hc.filter_accepted, hnil]
    simpa using h.other hnone

end Engine

namespace Scheduler.Sound

variable {U P : Type} [Payload P] [SimUnit U P] {s : Scheduler U P}

omit [Payload P] [SimUnit U P] in
/-- No unit is placed twice. -/
lemma nodup_placed (hs : s.Sound) : s.placed.Nodup := by
  -- the route of a unit tells its worker and its place
  have hplace : ∀ {w k w' k' : Nat} {x : Slot U}, s.placement.slot? w k = some x →
      s.placement.slot? w' k' = some x → w = w' ∧ k = k' := by
    intro w k w' k' x h h'
    obtain ⟨r, _, hw, _, hr⟩ := hs.of_slot h
    obtain ⟨r', _, hw', _, hr'⟩ := hs.of_slot h'
    have hroute := Option.some.inj (hr.symm.trans hr')
    have hworker : r.worker = r'.worker := congrArg Route.worker hroute
    exact ⟨by rw [← hw, ← hw', hworker], congrArg Route.slot hroute⟩
  have hget : ∀ {w : Nat} {xs : Array (Slot U)}, s.placement.slots.toList[w]? = some xs →
      ∀ k, s.placement.slot? w k = xs.toList[k]? := by
    intro w xs h k
    rw [Array.getElem?_toList] at h
    rw [Placement.slot?, h, Array.getElem?_toList]
    rfl
  refine List.nodup_flatMap.2 ⟨fun xs hxs => ?_, List.pairwise_iff_getElem.2 fun i j hi hj hij => ?_⟩
  · obtain ⟨w, hw⟩ := List.getElem?_of_mem hxs
    refine List.nodup_iff_getElem?_ne_getElem?.2 fun i j hij hj heq => ?_
    have hjx := List.getElem?_eq_getElem hj
    have hplaces := hplace ((hget hw i).trans (heq.trans hjx)) ((hget hw j).trans hjx)
    omega
  · intro x hx hx'
    obtain ⟨k, hk⟩ := List.getElem?_of_mem hx
    obtain ⟨k', hk'⟩ := List.getElem?_of_mem hx'
    have hplaces := hplace ((hget (List.getElem?_eq_getElem hi) k).trans hk)
      ((hget (List.getElem?_eq_getElem hj) k').trans hk')
    omega

omit [Payload P] [SimUnit U P] in
/-- Under each number at most one unit is placed. -/
lemma filter_placed (hs : s.Sound) (u : UnitId) :
    s.placed.filter (·.id = u) = (s.slot? u).toList := by
  have hmem : ∀ y, y ∈ s.placed.filter (·.id = u) ↔ y ∈ (s.slot? u).toList := by
    intro y
    rw [List.mem_filter, hs.mem_placed, Option.mem_toList, decide_eq_true_eq]
    constructor
    · rintro ⟨hy, rfl⟩
      exact hy
    · intro hy
      have hid := id_of_slot? hy
      exact ⟨hid ▸ hy, hid⟩
  have hnodup : (s.slot? u).toList.Nodup := by cases s.slot? u <;> simp
  have hperm := (List.perm_ext_iff_of_nodup (hs.nodup_placed.filter _) hnodup).2 hmem
  cases hu : s.slot? u with
  | none => rw [hu] at hperm; exact List.perm_nil.1 hperm
  | some x => rw [hu] at hperm; exact List.perm_singleton.1 hperm

/-- What a unit sends when it starts is what has its origin there. -/
lemma filter_opening (hs : s.Sound) (u : UnitId) :
    (Envelope.messages s.opening).filter (·.id.origin = u) =
      s.seeds.toList.filter (·.id.origin = u) ++ (s.slot? u).toList.flatMap fun x =>
        Envelope.messages (x.opening s.table s.config.startTime) := by
  rw [opening, Envelope.messages_append, Envelope.messages_map_deliver, Envelope.messages_flatMap,
    List.filter_append, ← hs.filter_placed u]
  refine congrArg _ (filter_flatMap_of_forall fun x _ m hm => ?_)
  exact (Slot.started_advances s.table s.config.startTime x).origin_eq hm

/-- **What is staged before the first round is numbered through.** -/
theorem numbered_firstEngine (hs : s.Sound) : s.firstEngine.Numbered (Envelope.messages s.opening) where
  own {u x'} hx' := by
    rw [hs.slot?_firstEngine] at hx'
    obtain ⟨x, hx, rfl⟩ := Option.map_eq_some_iff.1 hx'
    obtain ⟨r, hr, hxr⟩ := Option.map_eq_some_iff.1 hx
    have hadv := Slot.started_advances s.table s.config.startTime x
    have hzero : x.nextSeq = 0 := by
      rw [← hxr]
      exact hs.nextSeq_eq u r hr
    have hseeds : s.seeds.toList.filter (·.id.origin = u) = [] := by
      apply List.filter_eq_nil_iff.2
      intro m hm horigin
      refine hs.ne_setup (u := u) (by rw [hr]; rfl) ?_
      rw [← of_decide_eq_true horigin, (hs.seed_origin m hm).1]
    rw [hs.filter_opening, hseeds, hx, List.nil_append, Option.toList_some, List.flatMap_singleton,
      hadv.ids, hadv.nextSeq, hzero, Nat.zero_add, id_of_slot? hx, List.range_eq_range']
  other {u} hu := by
    have hnone : s.slot? u = none := by
      rw [hs.slot?_firstEngine, Option.map_eq_none_iff] at hu
      exact hu
    rw [hs.filter_opening, hnone, Option.toList_none, List.flatMap_nil, List.append_nil]
    exact hs.seed_nodup.sublist (List.filter_sublist.map _)

end Scheduler.Sound

end EventSim
