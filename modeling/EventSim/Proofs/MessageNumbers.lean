import EventSim.Proofs.Conservation
import EventSim.Proofs.Transcript

set_option autoImplicit false

/-!
# The numbers of messages

Every origin numbers its messages through, from zero on and without gaps, whatever else it is refused: the
setup those that are scheduled before the run, and each unit those that it schedules when it starts and in all
of its calls. So no two messages have the same identity, and nothing is ever replaced in a queue.

## Main definitions

* `EventSim.Scheduler.HandedOut` — the handles that the operations of the setup have handed out.
* `EventSim.Exchange.handle?` — the handle that a unit is given in a call.
* `EventSim.Scheduler.calls` — the calls of a run, with the units that make them.
* `EventSim.Scheduler.accepted`, `EventSim.Scheduler.acceptedFrom` — the handles that all units, and one of them,
  are given in a run.
* `EventSim.Scheduler.NumbersThrough` — messages have the running numbers of their origins.

## Main results

* `EventSim.MessageQueue.contains_foldl_put` — a message with a key of its own replaces nothing.
* `EventSim.Scheduler.IsSetUp.exists_handedOut` — every setup has handed out certain handles.
* `EventSim.Scheduler.HandedOut.map_id` — the setup numbers its messages through.
* `EventSim.Scheduler.map_calls` — the calls of a run are those whose transcripts it has.
* `EventSim.Scheduler.Sound.map_id_acceptedFrom` — so does every unit.
* `EventSim.Scheduler.HandedOut.numbersThrough` — identities in every run.
-/

namespace EventSim

variable {U P : Type}

/-! ## Queues in which nothing is replaced -/

/-- If old and new messages have keys of their own, no new one finds its key in the queue when it is put
there. -/
lemma MessageQueue.contains_foldl_put {q : MessageQueue P} {ms before after : List (Message P)}
    {m : Message P} (hk : ((q.entries ++ ms).map Message.key).Nodup) (h : ms = before ++ m :: after) :
    (before.foldl put q).contains m.key = false := by
  rw [contains, List.any_eq_false]
  intro x hx hkey
  rw [← putAll_eq_foldl] at hx
  have hin : x ∈ q.entries ++ before := List.mem_append.2 (mem_of_mem_putAll hx)
  rw [h, ← List.append_assoc, List.map_append, List.nodup_append] at hk
  obtain ⟨_, _, hdisjoint⟩ := hk
  exact hdisjoint _ (List.mem_map_of_mem hin) _ (List.mem_map_of_mem List.mem_cons_self)
    (of_decide_eq_true hkey)

/-! ## Handles of the setup -/

namespace Scheduler

variable [Payload P] [SimUnit U P] {s s' : Scheduler U P} {hs : List Handle}

/-- The schedulers that arise from the operations of the setup, with all handles that have been handed out, in
order. -/
inductive HandedOut : List Handle → Scheduler U P → Prop
  /-- A new scheduler has handed out none. -/
  | new {config : RunConfig} {s : Scheduler U P} (h : Scheduler.new config = .ok s) : HandedOut [] s
  /-- A unit is registered, or refused. -/
  | register {hs : List Handle} {s : Scheduler U P} (h : HandedOut hs s) (unit : U) (worker : WorkerId) :
    HandedOut hs (s.register unit worker).2
  /-- A unit is taken away. -/
  | unregister {hs : List Handle} {s : Scheduler U P} (h : HandedOut hs s) (id : UnitId) :
    HandedOut hs (s.unregister id).2
  /-- A seed is scheduled, and a handle is handed out, or it is refused. -/
  | schedule {hs : List Handle} {s s' : Scheduler U P} (h : HandedOut hs s) {target : UnitId} {time : SimTime}
    {payload : P} {reply : Except RunError Handle}
    (hreply : s.schedule target time payload = .ok (reply, s')) : HandedOut (hs ++ reply.toOption.toList) s'
  /-- A seed is withdrawn. -/
  | unschedule {hs : List Handle} {s : Scheduler U P} (h : HandedOut hs s) (handle : Handle) :
    HandedOut hs (s.unschedule handle).2
  /-- The state of a unit is changed from outside. -/
  | updateUnit {hs : List Handle} {s : Scheduler U P} (h : HandedOut hs s) (id : UnitId) (f : U → U) :
    HandedOut hs (s.updateUnit id f)

/-- Whatever has been handed out, the scheduler is set up. -/
lemma HandedOut.isSetUp (h : HandedOut hs s) : s.IsSetUp := by
  induction h with
  | new h => exact .new h
  | register _ unit worker ih => exact ih.register unit worker
  | unregister _ id ih => exact ih.unregister id
  | schedule _ hreply ih => exact ih.schedule hreply
  | unschedule _ handle ih => exact ih.unschedule handle
  | updateUnit _ id f ih => exact ih.updateUnit id f

/-- Every scheduler that is set up has handed out certain handles. -/
lemma IsSetUp.exists_handedOut (h : s.IsSetUp) : ∃ hs, HandedOut hs s := by
  induction h with
  | new h => exact ⟨_, .new h⟩
  | register _ unit worker ih => exact ih.imp fun _ ih => ih.register unit worker
  | unregister _ id ih => exact ih.imp fun _ ih => ih.unregister id
  | schedule _ hreply ih =>
    obtain ⟨hs, ih⟩ := ih
    exact ⟨_, ih.schedule hreply⟩
  | unschedule _ handle ih => exact ih.imp fun _ ih => ih.unschedule handle
  | updateUnit _ id f ih => exact ih.imp fun _ ih => ih.updateUnit id f

omit [SimUnit U P] in
/-- What is scheduled before the run takes the next number of the setup, and what is refused takes none. -/
lemma schedule_cases {target : UnitId} {time : SimTime} {payload : P} {reply : Except RunError Handle}
    (h : s.schedule target time payload = .ok (reply, s')) :
    (∃ e, reply = .error e) ∧ s' = s ∨
      ∃ m : Message P, reply = .ok m.handle ∧ m.id = ⟨UnitId.setup, s.nextSetupSeq⟩ ∧
        s'.nextSetupSeq = s.nextSetupSeq + 1 ∧ s'.seeds = s.seeds.push m := by
  rcases schedule_reply h with hrefused | ⟨m, rfl, hreply, rfl, _⟩
  · exact Or.inl hrefused
  · exact Or.inr ⟨_, hreply, rfl, rfl, rfl⟩

omit [Payload P] in
lemma nextSetupSeq_register (s : Scheduler U P) (unit : U) (worker : WorkerId) :
    (s.register unit worker).2.nextSetupSeq = s.nextSetupSeq ∧ (s.register unit worker).2.seeds = s.seeds := by
  rcases s.register_cases unit worker with h | ⟨_, _, h⟩ <;> rw [h]
  · exact ⟨rfl, rfl⟩
  · exact ⟨rfl, rfl⟩

omit [Payload P] [SimUnit U P] in
lemma nextSetupSeq_unregister (s : Scheduler U P) (id : UnitId) :
    (s.unregister id).2.nextSetupSeq = s.nextSetupSeq ∧
      (s.unregister id).2.seeds.toList ⊆ s.seeds.toList := by
  unfold Scheduler.unregister
  split
  · exact ⟨rfl, fun _ hm => hm⟩
  split
  · exact ⟨rfl, fun _ hm => hm⟩
  · exact ⟨rfl, Array.toList_filter ▸ List.filter_subset_self _⟩

omit [Payload P] [SimUnit U P] in
lemma nextSetupSeq_unschedule (s : Scheduler U P) (handle : Handle) :
    (s.unschedule handle).2.nextSetupSeq = s.nextSetupSeq ∧
      (s.unschedule handle).2.seeds.toList ⊆ s.seeds.toList := by
  unfold Scheduler.unschedule
  split
  · exact ⟨rfl, fun _ hm => hm⟩
  · exact ⟨rfl, Array.toList_filter ▸ List.filter_subset_self _⟩

namespace HandedOut

/-- **The setup numbers its messages through**, and has used the numbers up to its next one. -/
theorem map_id (h : HandedOut hs s) :
    hs.map (·.id) = (List.range s.nextSetupSeq).map (MessageId.mk UnitId.setup) := by
  induction h with
  | new h =>
    obtain rfl := eq_of_new h
    rfl
  | @register hs s _ unit worker ih => rw [(s.nextSetupSeq_register unit worker).1, ih]
  | @unregister hs s _ id ih => rw [(s.nextSetupSeq_unregister id).1, ih]
  | schedule _ hreply ih =>
    rcases schedule_cases hreply with ⟨⟨e, rfl⟩, rfl⟩ | ⟨m, rfl, hid, hseq, _⟩
    · simpa [Except.toOption] using ih
    · rw [hseq, List.range_succ, List.map_append, List.map_append, ih]
      exact congrArg (_ ++ [·]) hid
  | @unschedule hs s _ handle ih => rw [(s.nextSetupSeq_unschedule handle).1, ih]
  | updateUnit _ id f ih => exact ih

/-- The seeds are among the messages whose handles have been handed out. -/
lemma handle_mem (h : HandedOut hs s) : ∀ m ∈ s.seeds.toList, m.handle ∈ hs := by
  induction h with
  | new h =>
    obtain rfl := eq_of_new h
    simp
  | @register hs s _ unit worker ih => rwa [(s.nextSetupSeq_register unit worker).2]
  | @unregister hs s _ id ih => exact fun m hm => ih m ((s.nextSetupSeq_unregister id).2 hm)
  | schedule _ hreply ih =>
    rcases schedule_cases hreply with ⟨⟨e, rfl⟩, rfl⟩ | ⟨m, rfl, _, _, hseeds⟩
    · simpa [Except.toOption] using ih
    · intro n hn
      rw [hseeds, Array.toList_push, List.mem_append, List.mem_singleton] at hn
      rcases hn with hn | rfl
      · exact List.mem_append_left _ (ih n hn)
      · exact List.mem_append_right _ (List.mem_singleton_self _)
  | @unschedule hs s _ handle ih => exact fun m hm => ih m ((s.nextSetupSeq_unschedule handle).2 hm)
  | updateUnit _ id f ih => exact ih

end HandedOut

end Scheduler

/-! ## Handles of units -/

namespace Exchange

/-- The handle that the unit is given, if it schedules a message and is not refused. -/
def handle? : Exchange P → Option Handle
  | .schedule _ _ _ (.ok (.ok h)) => some h
  | _ => none

/-- A unit is given the handles of the messages that it sends. -/
lemma map_id_messages (xs : List (Exchange P)) :
    (Envelope.messages (xs.filterMap envelope?)).map (·.id) = (xs.filterMap handle?).map (·.id) := by
  rw [Envelope.messages, List.filterMap_filterMap, List.map_filterMap, List.map_filterMap]
  apply List.filterMap_congr
  intro x _
  cases x with
  | schedule target time payload reply => rcases reply with c | e | h <;> rfl
  | unschedule handle reply => cases reply <;> rfl
  | takeFault reply => rfl
  | counts produced cancelled => rfl

end Exchange

namespace Scheduler

variable [Payload P] [SimUnit U P] {s : Scheduler U P} {u : UnitId} {hs : List Handle}

/-- The calls of a run in order, each with the unit that makes it: first the starts of all units, then those of
the rounds. -/
def calls (s : Scheduler U P) : List (UnitId × List (Exchange P)) :=
  s.placed.map (fun x => (x.id, x.startTranscript s.table s.config.startTime)) ++
    s.stages.flatMap fun t => (t.visits s.config).map fun v => (v.slot.id, v.transcript t.setting)

/-- The handles that units are given in a run. -/
def accepted (s : Scheduler U P) : List Handle := s.calls.flatMap (·.2.filterMap Exchange.handle?)

/-- The handles that one unit is given in a run, in order. -/
def acceptedFrom (s : Scheduler U P) (u : UnitId) : List Handle :=
  (s.calls.filter (·.1 = u)).flatMap (·.2.filterMap Exchange.handle?)

/-- The calls of a run are those whose transcripts it has. -/
lemma map_calls (s : Scheduler U P) : s.calls.map (·.2) = s.transcripts := by
  have hrounds := flatMap_range_getElem? s.stages fun t =>
    (t.visits s.config).map (·.transcript t.setting)
  rw [transcripts, List.range_succ_eq_map, List.flatMap_cons, List.flatMap_map,
    show ((List.range s.stages.length).flatMap fun r => s.transcriptsIn (r + 1)) = _ from hrounds, calls,
    List.map_append, List.map_map, List.map_flatMap]
  simp only [List.map_map]
  rfl

/-- The messages that are staged before the first round are the seeds and those whose handles units are given
when they start. -/
lemma map_id_opening (s : Scheduler U P) : (Envelope.messages s.opening).map (·.id) =
    s.seeds.toList.map (·.id) ++
      ((s.transcriptsIn 0).flatMap (·.filterMap Exchange.handle?)).map (·.id) := by
  rw [opening, Envelope.messages_append, Envelope.messages_map_deliver, Envelope.messages_flatMap,
    transcriptsIn, List.flatMap_map, List.map_append, List.map_flatMap, List.map_flatMap]
  congr 1
  apply List.flatMap_congr
  intro x _
  rw [Slot.opening_eq, Exchange.map_id_messages]

namespace Sound

/-- Whoever makes a call is registered, and is the origin of the messages whose handles it is given. -/
lemma of_mem_calls (hs : s.Sound) {c : UnitId × List (Exchange P)} (hc : c ∈ s.calls) :
    (s.registered? c.1).isSome ∧ ∀ h ∈ c.2.filterMap Exchange.handle?, h.id.origin = c.1 := by
  have horigin : ∀ (o : UnitId) (xs : List (Exchange P)),
      (∀ m ∈ Envelope.messages (xs.filterMap Exchange.envelope?), m.id.origin = o) →
        ∀ h ∈ xs.filterMap Exchange.handle?, h.id.origin = o := by
    intro o xs hall h hh
    have hid := List.mem_map_of_mem (f := fun h : Handle => h.id) hh
    rw [← Exchange.map_id_messages] at hid
    obtain ⟨m, hm, hmid⟩ := List.mem_map.1 hid
    rw [← hmid]
    exact hall m hm
  rcases List.mem_append.1 hc with hc | hc
  · obtain ⟨x, hx, rfl⟩ := List.mem_map.1 hc
    refine ⟨?_, horigin _ _ ?_⟩
    · have hslot := hs.mem_placed.1 hx
      obtain ⟨r, hr, _⟩ := Option.map_eq_some_iff.1 hslot
      rw [hr]
      rfl
    · rw [← Slot.opening_eq]
      intro m hm
      exact (Slot.started_advances s.table s.config.startTime x).origin_eq hm
  · obtain ⟨t, ht, hc⟩ := List.mem_flatMap.1 hc
    obtain ⟨v, hv, rfl⟩ := List.mem_map.1 hc
    obtain ⟨ts, rest, h⟩ := List.append_of_mem ht
    have hcoherent := hs.coherent_of_stages_eq h
    refine ⟨?_, horigin _ _ ?_⟩
    · obtain ⟨y, hy, houtline⟩ := Stage.exists_handled_of_mem_visits hcoherent hv
      obtain ⟨x, hx⟩ := hcoherent.exists_slot_of_handled hy
      have htarget : y.message = v.message := congrArg (·.1) houtline
      have hsome : (t.engine.slot? v.message.target).isSome := by rw [← htarget, hx]; rfl
      rw [hcoherent.isSome_slot?, hs.table_of_stages_eq h, hs.isSome_route?] at hsome
      rwa [(Stage.map_outline_handled hcoherent).2 v hv]
    · rw [Visit.transcript, ← Slot.sent_handle]
      intro m hm
      exact (Slot.handle_advances t.setting v.slot v.message).origin_eq hm

/-- The messages of a run are the seeds and those whose handles units are given. -/
lemma map_id_posted (hs : s.Sound) : (s.posted s.stages).map (·.id) =
    s.seeds.toList.map (·.id) ++ s.accepted.map (·.id) := by
  have hrounds : (s.stages.flatMap fun t => (t.record s.config).accepted).map (·.id) =
      (s.stages.flatMap fun t => (t.visits s.config).flatMap fun v =>
        (v.transcript t.setting).filterMap Exchange.handle?).map (·.id) := by
    rw [List.map_flatMap, List.map_flatMap]
    apply List.flatMap_congr
    intro t ht
    rw [RoundRecord.accepted, Stage.sent_eq (hs.coherent_of_mem ht), List.flatMap_map,
      Envelope.messages_flatMap, List.map_flatMap, List.map_flatMap]
    apply List.flatMap_congr
    intro v _
    exact Exchange.map_id_messages _
  have haccepted : s.accepted = ((s.transcriptsIn 0).flatMap (·.filterMap Exchange.handle?)) ++
      s.stages.flatMap fun t => (t.visits s.config).flatMap fun v =>
        (v.transcript t.setting).filterMap Exchange.handle? := by
    simp only [accepted, calls, transcriptsIn, List.flatMap_append, List.flatMap_map, List.flatMap_assoc]
  rw [posted, haccepted, List.map_append, map_id_opening, List.map_append, hrounds, List.append_assoc]

/-- The messages of a run that have their origin at a registered unit are numbered through. -/
lemma exists_filter_posted (hs : s.Sound) (hu : (s.registered? u).isSome) :
    ∃ n, ((s.posted s.stages).filter (·.id.origin = u)).map (·.id) = (List.range n).map (MessageId.mk u) := by
  rcases stages_eq_nil_or_append s with ⟨hnil, _⟩ | ⟨ts, t, h⟩
  · have hsome : (s.firstEngine.slot? u).isSome := by
      rw [hs.coherent_firstEngine.isSome_slot?, hs.table_firstEngine, hs.isSome_route?, hu]
    obtain ⟨x, hx⟩ := Option.isSome_iff_exists.1 hsome
    refine ⟨x.nextSeq, ?_⟩
    rw [hnil, posted, List.flatMap_nil, List.append_nil]
    exact hs.numbered_firstEngine.own hx
  · have hc := hs.coherent_of_stages_eq h
    have hsome : ((t.after s.config).slot? u).isSome := by
      rw [Stage.after, (hc.runRound s.config t.horizon.current).isSome_slot?, Engine.table_runRound,
        hs.table_of_stages_eq h, hs.isSome_route?, hu]
    obtain ⟨x, hx⟩ := Option.isSome_iff_exists.1 hsome
    refine ⟨x.nextSeq, ?_⟩
    rw [h, posted_append, List.flatMap_singleton]
    exact ((hs.numbered_of_stages_eq h).runRound hc s.config t.horizon.current).own hx

/-- The handles that a unit is given are those of the messages that have their origin there. -/
lemma acceptedFrom_eq (hs : s.Sound) (u : UnitId) :
    s.acceptedFrom u = s.accepted.filter (·.id.origin = u) :=
  (filter_flatMap_of_forall fun _ hc => (hs.of_mem_calls hc).2).symm

/-- **Every unit numbers its messages through**, from its start to its last call. -/
theorem map_id_acceptedFrom (hs : s.Sound) (u : UnitId) :
    ∃ n, (s.acceptedFrom u).map (·.id) = (List.range n).map (MessageId.mk u) := by
  by_cases hu : (s.registered? u).isSome
  · obtain ⟨n, hn⟩ := hs.exists_filter_posted hu
    refine ⟨n, ?_⟩
    have hseeds : (s.seeds.toList.map (·.id)).filter (·.origin = u) = [] := by
      apply List.filter_eq_nil_iff.2
      intro id hid horigin
      obtain ⟨m, hm, rfl⟩ := List.mem_map.1 hid
      rw [(hs.seed_origin m hm).1] at horigin
      exact hs.ne_setup hu (of_decide_eq_true horigin).symm
    have hposted := congrArg (List.filter (·.origin = u)) hs.map_id_posted
    rw [List.filter_append, hseeds, List.nil_append, List.filter_map, List.filter_map] at hposted
    rw [← hn, hs.acceptedFrom_eq]
    exact hposted.symm
  · -- a unit that is not registered makes no calls
    refine ⟨0, ?_⟩
    rw [hs.acceptedFrom_eq, List.filter_eq_nil_iff.2]
    · rfl
    · intro h hh horigin
      obtain ⟨c, hc, hh⟩ := List.mem_flatMap.1 hh
      obtain ⟨hregistered, hid⟩ := hs.of_mem_calls hc
      rw [hid h hh] at horigin
      exact hu (of_decide_eq_true horigin ▸ hregistered)

end Sound

/-! ## Identities in a run -/

/-- All messages of a setup and a run have the running numbers of their origins. -/
structure NumbersThrough (s : Scheduler U P) (hs : List Handle) : Prop where
  /-- The seeds are among the messages that were scheduled before the run. -/
  seeds : ∀ m ∈ s.seeds.toList, m.handle ∈ hs
  /-- The messages that were scheduled before the run have the running numbers of the setup. -/
  setup : ∀ (k : Nat) (h : Handle), hs[k]? = some h → h.id = ⟨UnitId.setup, k⟩
  /-- The messages that a unit schedules when it starts and in all its calls have its running numbers. -/
  unit : ∀ u (k : Nat) (h : Handle), (s.acceptedFrom u)[k]? = some h → h.id = ⟨u, k⟩
  /-- Every message has an identity of its own. -/
  nodup : ((hs ++ s.accepted).map (·.id)).Nodup
  /-- Nothing is replaced when what is staged for a worker is put into its queue. -/
  put : ∀ t ∈ s.stages, ∀ w ∈ t.engine.workers.toList, ∀ before m after,
    Envelope.messages (t.engine.stagedFor w.id t.past) = before ++ m :: after →
      (before.foldl MessageQueue.put w.queue).contains m.key = false

omit [Payload P] [SimUnit U P] in
/-- Handles that are numbered through have their places as numbers. -/
lemma id_eq_of_map_id {o : UnitId} {n : Nat} (h : hs.map (·.id) = (List.range n).map (MessageId.mk o)) :
    ∀ (k : Nat) (x : Handle), hs[k]? = some x → x.id = ⟨o, k⟩ := by
  intro k x hx
  have hk := congrArg (·[k]?) h
  simp only [List.getElem?_map, hx, Option.map_some] at hk
  obtain ⟨j, hj, hid⟩ := Option.map_eq_some_iff.1 hk.symm
  obtain ⟨hk, rfl⟩ := List.getElem?_eq_some_iff.1 hj
  rw [← hid, List.getElem_range]

/-- **Identities are unique and have no gaps.** In every setup and run, however it ends, the messages of each
origin have consecutive running numbers from zero on, whatever is refused in between. So no two messages have
the same identity, and nothing is replaced when it is put into a queue.

**Proof sketch.** The counter of the setup is its number of handles so far (`HandedOut.map_id`). The counter of
a unit goes with the unit into the engine and from call to call, and is as many as the messages that have
their origin there (`Sound.numbered_of_stages_eq`); these are the ones whose handles the unit was given
(`Sound.map_id_posted`). What is pending at a stage are different messages of the run, so their keys differ. -/
theorem HandedOut.numbersThrough (h : HandedOut hs s) : s.NumbersThrough hs := by
  have hsound := h.isSetUp.sound
  refine ⟨h.handle_mem, id_eq_of_map_id h.map_id, ?_, ?_, ?_⟩
  · intro u
    obtain ⟨n, hn⟩ := hsound.map_id_acceptedFrom u
    exact id_eq_of_map_id hn
  · have hposted := hsound.nodup_posted (List.append_nil s.stages).symm
    rw [hsound.map_id_posted] at hposted
    rw [List.map_append, List.nodup_append]
    refine ⟨?_, (List.nodup_append.1 hposted).2.1, ?_⟩
    · rw [h.map_id]
      exact List.nodup_range.map fun _ _ heq => congrArg MessageId.seq heq
    · -- the origin of a message tells whether the setup or a unit has scheduled it
      intro id hid id' hid' heq
      rw [h.map_id] at hid
      obtain ⟨k, _, rfl⟩ := List.mem_map.1 hid
      obtain ⟨x, hx, rfl⟩ := List.mem_map.1 hid'
      obtain ⟨c, hc, hx⟩ := List.mem_flatMap.1 hx
      obtain ⟨hregistered, horigin⟩ := hsound.of_mem_calls hc
      apply hsound.ne_setup hregistered
      rw [← horigin x hx, ← heq]
  · intro t ht w hw before m after heq
    obtain ⟨ts, rest, hstages⟩ := List.append_of_mem ht
    exact MessageQueue.contains_foldl_put
      ((hsound.coherent_of_stages_eq hstages).nodup_keys (hsound.nodup_pending hstages) hw) heq

/-! ### A setup and a run with refusals -/

/-- Schedules a seed. The handle that is handed out, if there is one, comes with the scheduler. -/
def seeded (s : Scheduler U P) (target : UnitId) (time : SimTime) (payload : P) :
    List Handle × Scheduler U P :=
  match s.schedule target time payload with
  | .ok (reply, s') => (reply.toOption.toList, s')
  | .error _ => ([], s)

lemma HandedOut.seeded (h : HandedOut hs s) (target : UnitId) (time : SimTime) (payload : P) :
    HandedOut (hs ++ (s.seeded target time payload).1) (s.seeded target time payload).2 := by
  unfold Scheduler.seeded
  split
  · rename_i reply s' hreply
    exact h.schedule hreply
  · rwa [List.append_nil]

end Scheduler

/-- A unit that sends itself two messages when it receives a two, and is refused one in between. -/
def bookkeeper : RuleTable where
  lookahead := ⟨Binary64.ofNat 1⟩
  opening := [.send (.fromNow (Binary64.ofNat 1)) .self (.exactly ⟨2⟩) none false]
  rules :=
    [⟨some 2, some 2, none,
      [.send (.fromNow (Binary64.ofNat 1)) .self (.exactly ⟨1⟩) none false,
        .send (.at SimTime.zero) .self (.exactly ⟨0⟩) none true, .takeFault,
        .send (.fromNow (Binary64.ofNat 2)) .self (.exactly ⟨1⟩) none false]⟩]

namespace Scheduler

/-- A bookkeeper with two seeds, of which the first is withdrawn, and a refused one in between. -/
def ledger : List Handle × Scheduler RuleTable Mark :=
  let s := (({ config := {} } : Scheduler RuleTable Mark).register bookkeeper (Id.ofNat 0)).2
  let first := s.seeded (Id.ofNat 0) ⟨Binary64.ofNat 3⟩ ⟨4⟩
  let refused := first.2.seeded (Id.ofNat 7) ⟨Binary64.ofNat 3⟩ ⟨4⟩
  let second := refused.2.seeded (Id.ofNat 0) ⟨Binary64.ofNat 5⟩ ⟨4⟩
  (first.1 ++ refused.1 ++ second.1,
    (second.2.unschedule ⟨⟨UnitId.setup, 0⟩, Id.ofNat 0, ⟨Binary64.ofNat 3⟩⟩).2)

lemma handedOut_ledger : HandedOut ledger.1 ledger.2 := by
  have hnew : Scheduler.new {} = .ok ({ config := {} } : Scheduler RuleTable Mark) := rfl
  have hunit := (HandedOut.new hnew).register bookkeeper (Id.ofNat 0)
  have hfirst := hunit.seeded (Id.ofNat 0) ⟨Binary64.ofNat 3⟩ ⟨4⟩
  have hrefused := hfirst.seeded (Id.ofNat 7) ⟨Binary64.ofNat 3⟩ ⟨4⟩
  have hsecond := hrefused.seeded (Id.ofNat 0) ⟨Binary64.ofNat 5⟩ ⟨4⟩
  exact hsecond.unschedule _

/-- Two seeds and three messages of the bookkeeper are scheduled. They are numbered through, although requests
are refused in between. -/
theorem numbersThrough_ledger :
    ledger.1.length = 2 ∧ ledger.2.seeds.size = 1 ∧ (ledger.2.acceptedFrom (Id.ofNat 0)).length = 3 ∧
      (∃ xs ∈ ledger.2.transcripts, ∃ x ∈ xs, x.refusal?.isSome) ∧ ledger.2.NumbersThrough ledger.1 :=
  ⟨by decide +kernel, by decide +kernel, by decide +kernel, by decide +kernel,
    handedOut_ledger.numbersThrough⟩

end Scheduler

end EventSim
