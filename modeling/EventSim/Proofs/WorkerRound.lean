import EventSim.Proofs.UnitHistory

set_option autoImplicit false

/-!
# The part of a round that one worker does

A worker merges what is staged for it, takes out what is due and hands it over. What it reports is what its
queue and its units show: the messages that are due are those of the merge within the limit, they are all
handed over unless one fails, and each unit handles its own ones.

## Main definitions

* `EventSim.Worker.due` — the messages that are due.
* `EventSim.Report.received` — the messages that one unit was handed.

## Main results

* `EventSim.Worker.runRound_frame` — what is left in the queue, and what is reported, in any case.
* `EventSim.Worker.isSome_fault_runRound_iff` — a fault is reported just if the handling of a message fails.
* `EventSim.Worker.runRound_of_success` — the counts of a round without fault.
* `EventSim.Worker.runRound_unit` — each unit of the worker in the round.
-/

namespace EventSim

variable {U P : Type}

/-- The messages that a unit was handed in a worker's part of a round. -/
def Report.received (r : Report P) (u : UnitId) : List (Message P) :=
  (r.handled.map (·.message)).filter (·.target = u)

namespace Worker

variable [Payload P] [SimUnit U P]

/-- The messages that are due in a round, given what is staged. -/
def due (config : RunConfig) (horizon : SimTime) (staged : List (Envelope P)) (w : Worker U P) :
    List (Message P) :=
  ((w.queue.merge staged).2.popUpTo (config.deliveryLimit horizon)).1

/-- The worker when it begins to hand over messages. -/
def primed (config : RunConfig) (horizon : SimTime) (staged : List (Envelope P)) (w : Worker U P) :
    Worker U P :=
  ((w.accept staged).1.takeDue (config.deliveryLimit horizon)).1

/-- The worker when it has handed over messages, and what came of them. -/
def handling (config : RunConfig) (table : RoutingTable) (round : Nat) (horizon : SimTime)
    (staged : List (Envelope P)) (w : Worker U P) : Worker U P × List (Handled P) :=
  (w.primed config horizon staged).deliverAll table round horizon (w.due config horizon staged)

variable {config : RunConfig} {table : RoutingTable} {round : Nat} {horizon : SimTime}
  {staged : List (Envelope P)} {w : Worker U P} {u : UnitId} {x : Slot U} {m : Message P}

/-! ## What is due -/

omit [Payload P] [SimUnit U P] in
/-- Whatever is due waited or was staged, and is within the limit. -/
lemma of_mem_due (hm : m ∈ w.due config horizon staged) :
    (m ∈ w.queue.entries ∨ .deliver m ∈ staged) ∧ m.time ≤ config.deliveryLimit horizon := by
  obtain ⟨hmem, hle⟩ := MessageQueue.mem_popUpTo.1.1 hm
  exact ⟨MessageQueue.mem_of_mem_merge hmem, hle⟩

omit [Payload P] [SimUnit U P] in
/-- What is due comes in order of keys. -/
lemma sorted_due : KeySorted (w.due config horizon staged) := MessageQueue.sorted_popUpTo _ _

/-! ## What is reported -/

omit [Payload P] [SimUnit U P] in
/-- What waited and what was staged is due, withdrawn or left in the queue. -/
lemma perm_due (config : RunConfig) (horizon : SimTime)
    (hk : ((w.queue.entries ++ Envelope.messages staged).map Message.key).Nodup) :
    (w.queue.entries ++ Envelope.messages staged).Perm
      (w.due config horizon staged ++ (w.queue.withdrawn staged ++
        ((w.queue.merge staged).2.popUpTo (config.deliveryLimit horizon)).2.entries)) := by
  refine (MessageQueue.perm_merge hk).trans ?_
  conv_lhs => rw [← MessageQueue.popUpTo_append (w.queue.merge staged).2
    (config.deliveryLimit horizon)]
  exact List.perm_append_comm_assoc ..

/-- **What a round leaves and reports**, whether or not it fails. -/
theorem runRound_frame (config : RunConfig) (table : RoutingTable) (round : Nat) (horizon : SimTime)
    (staged : List (Envelope P)) (w : Worker U P) :
    (w.runRound config table round horizon staged).1.id = w.id ∧
      (w.runRound config table round horizon staged).1.queue =
        ((w.queue.merge staged).2.popUpTo (config.deliveryLimit horizon)).2 ∧
      (w.runRound config table round horizon staged).1.slots =
        (w.handling config table round horizon staged).1.slots ∧
      (w.runRound config table round horizon staged).2.worker = w.id ∧
      (w.runRound config table round horizon staged).2.handled =
        (w.handling config table round horizon staged).2 ∧
      (w.runRound config table round horizon staged).2.removed = (w.queue.withdrawn staged).length := by
  obtain ⟨hid, hqueue, _⟩ := deliverAll_frame table round horizon (w.primed config horizon staged)
    (w.due config horizon staged)
  have hremoved := MessageQueue.merge_count (q := w.queue) staged
  unfold runRound
  dsimp only
  split
  · exact ⟨hid, hqueue, rfl, hid, rfl, hremoved⟩
  · exact ⟨hid, hqueue, rfl, hid, rfl, hremoved⟩

/-- **A fault is reported just if the handling of a message fails.** -/
theorem isSome_fault_runRound_iff : (w.runRound config table round horizon staged).2.fault.isSome ↔
    ∃ h ∈ (w.handling config table round horizon staged).2, h.failure.isSome := by
  rw [← List.findSome?_isSome_iff]
  unfold runRound
  dsimp only
  split
  · rename_i c h
    exact iff_of_true rfl (Option.isSome_iff_exists.2 ⟨_, h⟩)
  · rw [Option.isSome_map]
    exact Iff.rfl

/-- Without a fault, no handling has failed. -/
lemma failure_eq_none (hf : (w.runRound config table round horizon staged).2.fault = none) :
    ∀ h ∈ (w.handling config table round horizon staged).2, h.failure = none := by
  intro h hh
  by_contra hne
  have hsome := isSome_fault_runRound_iff.2 ⟨h, hh, Option.isSome_iff_ne_none.2 hne⟩
  simp [hf] at hsome

/-- The figures of a worker when everything that is due has been handed over. -/
lemma stats_handling : (w.handling config table round horizon staged).1.stats = { w.stats with
    cancelled := w.stats.cancelled + (w.queue.withdrawn staged).length
    produced := w.stats.produced + (Envelope.messages
      ((w.handling config table round horizon staged).2.flatMap (·.sent))).length } := by
  rw [← MessageQueue.merge_count]
  exact (deliverAll_frame table round horizon (w.primed config horizon staged)
    (w.due config horizon staged)).2.2

section Success

variable (hf : (w.runRound config table round horizon staged).2.fault = none)

include hf

/-- Without a fault, everything that is due is handed over. -/
lemma messages_handling : (w.handling config table round horizon staged).2.map (·.message) =
    w.due config horizon staged := messages_deliverAll (failure_eq_none hf)

/-- A round without fault, as a whole. -/
lemma runRound_eq_of_success : w.runRound config table round horizon staged =
    ((w.handling config table round horizon staged).1.tally (w.due config horizon staged).length,
      ⟨(w.handling config table round horizon staged).1.id,
        (w.handling config table round horizon staged).2, (w.queue.merge staged).1,
        (w.due config horizon staged).length,
        (w.handling config table round horizon staged).1.queue.size,
        (w.handling config table round horizon staged).1.queue.nextTime, none⟩) := by
  have hnone := failure_eq_none hf
  have hcount : (w.handling config table round horizon staged).2.countP (fun h => h.failure.isNone) =
      (w.due config horizon staged).length := by
    rw [← messages_handling hf, List.length_map, List.countP_eq_length]
    intro h hh
    simp [hnone h hh]
  have hfind : (w.handling config table round horizon staged).2.findSome? Handled.failure = none :=
    List.findSome?_eq_none_iff.2 hnone
  have hmap : ∀ f : Failure → RunError,
      ((w.handling config table round horizon staged).2.findSome? Handled.failure).map f = none :=
    fun f => by rw [hfind]; rfl
  rw [← hcount]
  unfold runRound
  dsimp only
  split
  · rename_i c h
    exact absurd (hfind.symm.trans h) (by simp)
  · exact congrArg (fun e => (_, Report.mk _ _ _ _ _ _ e)) (hmap _)

/-- **The counts of a round without fault.** Every message that is due is handed over and counted. -/
theorem runRound_of_success :
    (w.handling config table round horizon staged).2.map (·.message) = w.due config horizon staged ∧
      (w.runRound config table round horizon staged).2.delivered =
        (w.due config horizon staged).length ∧
      (w.runRound config table round horizon staged).2.queued =
        (w.runRound config table round horizon staged).1.queue.size ∧
      (w.runRound config table round horizon staged).2.nextTime =
        (w.runRound config table round horizon staged).1.queue.nextTime ∧
      (w.runRound config table round horizon staged).1.stats.delivered =
        w.stats.delivered + (w.due config horizon staged).length ∧
      (w.runRound config table round horizon staged).1.stats.cancelled =
        w.stats.cancelled + (w.queue.withdrawn staged).length ∧
      (w.runRound config table round horizon staged).1.stats.produced =
        w.stats.produced + (Envelope.messages
          ((w.handling config table round horizon staged).2.flatMap (·.sent))).length := by
  rw [runRound_eq_of_success hf]
  refine ⟨messages_handling hf, rfl, rfl, rfl, ?_, ?_, ?_⟩ <;> simp only [tally, stats_handling]

end Success

/-! ## Each unit of the worker -/

omit [Payload P] [SimUnit U P] in
/-- The worker keeps its units in their places. -/
lemma primed_placed (config : RunConfig) (horizon : SimTime) (staged : List (Envelope P))
    (hp : w.Placed table) : (w.primed config horizon staged).Placed table :=
  ⟨hp.route_of_slot, hp.slot_of_route⟩

/-- **Each unit of the worker in a round**: it handles the messages that it is handed, and is handed nothing
else than its messages that are due. -/
theorem runRound_unit (round : Nat) (hp : w.Placed table)
    (ho : ∀ m ∈ w.due config horizon staged, w.Owns table m.target) :
    (w.runRound config table round horizon staged).1.Placed table ∧
      ∀ u x, w.slot? table u = some x →
        (w.runRound config table round horizon staged).1.slot? table u =
            some (x.handleAll (w.setting table round horizon)
              ((w.runRound config table round horizon staged).2.received u)).1 ∧
          (w.runRound config table round horizon staged).2.handled.filter (·.message.target = u) =
            (x.handleAll (w.setting table round horizon)
              ((w.runRound config table round horizon staged).2.received u)).2 := by
  obtain ⟨hid, _, hslots, _, hhandled, _⟩ := runRound_frame config table round horizon staged w
  obtain ⟨hplaced, hunit⟩ := deliverAll_unit round horizon (primed_placed config horizon staged hp) ho
  have hid' : (w.handling config table round horizon staged).1.id = w.id :=
    (deliverAll_frame table round horizon _ _).1
  refine ⟨⟨fun k x hx => ?_, fun u r hr hw => ?_⟩, fun u x hx => ?_⟩
  · rw [hid, ← hid']
    exact hplaced.route_of_slot k x (hslots ▸ hx)
  · obtain ⟨x, hx, hxu⟩ := hplaced.slot_of_route u r hr (hw.trans (hid.trans hid'.symm))
    exact ⟨x, hslots ▸ hx, hxu⟩
  · obtain ⟨hslot, hfilter⟩ := hunit u x hx
    rw [Report.received, hhandled]
    refine ⟨?_, hfilter⟩
    rw [slot?, hid, hslots, ← hid']
    exact hslot

/-- A fault is reported just if one of the worker's units fails, given its due messages alone. -/
theorem isSome_fault_runRound_iff_unit (hp : w.Placed table)
    (ho : ∀ m ∈ w.due config horizon staged, w.Owns table m.target) :
    (w.runRound config table round horizon staged).2.fault.isSome ↔
      ∃ u x, w.slot? table u = some x ∧ x.Fails (w.setting table round horizon)
        ((w.due config horizon staged).filter (·.target = u)) :=
  isSome_fault_runRound_iff.trans (exists_failure_iff (primed_placed config horizon staged hp) ho)

end Worker

end EventSim
