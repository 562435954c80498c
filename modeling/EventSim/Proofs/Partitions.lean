import EventSim.Proofs.EngineRound

set_option autoImplicit false

/-!
# Engines that differ in their partition

Two engines may hold the same units and the same messages and yet distribute them over different workers.
In a round each unit is then handed the same messages in the same order, because the messages for a unit are
always at one worker, in the order of their keys. So the engines still hold the same units and messages
after the round, and whatever decides how the run goes on is the same.

## Main definitions

* `EventSim.Engine.Orderly` — messages have keys of their own, and cancellations name whole messages.
* `EventSim.Engine.Alike` — two engines hold the same units and messages.

## Main results

* `EventSim.Engine.Orderly.mem_due_iff` — what is due, whatever the partition.
* `EventSim.Engine.Alike.fault_iff` — one engine has a fault in a round just if the other has.
* `EventSim.Engine.Alike.runRound` — engines that are alike stay so.
* `EventSim.Engine.Alike.figures` — the figures of a round are the same.
-/

namespace EventSim

namespace Engine

variable {U P : Type}

/-- The engine after the given round, with messages that can be told apart by their keys, and with
cancellations that name whole messages. -/
structure Orderly (e : Engine U P) (round : Nat) : Prop where
  /-- Everything is at the right worker. -/
  coherent : e.Coherent round
  /-- No two messages have the same key. -/
  nodup : ((e.waiting ++ e.postbox.messages round).map Message.key).Nodup
  /-- A cancellation with the key of a message is for the worker that has the message. -/
  genuine : ∀ h, .cancel h ∈ e.postbox.envelopes round → ∀ m ∈ e.waiting ++ e.postbox.messages round,
    h.key = m.key → h.target = m.target

/-- Two engines hold the same units, the same waiting messages and the same staged envelopes. -/
structure Alike (round : Nat) (e e' : Engine U P) : Prop where
  /-- The units are the same. -/
  slot : ∀ u, e.slot? u = e'.slot? u
  /-- The waiting messages are the same. -/
  waiting : ∀ m, m ∈ e.waiting ↔ m ∈ e'.waiting
  /-- The staged envelopes are the same. -/
  envelopes : ∀ y, y ∈ e.postbox.envelopes round ↔ y ∈ e'.postbox.envelopes round

/-- The message is to come, and is not cancelled. -/
def Stands (e : Engine U P) (round : Nat) (m : Message P) : Prop :=
  (m ∈ e.waiting ∨ m ∈ e.postbox.messages round) ∧
    ∀ h, .cancel h ∈ e.postbox.envelopes round → h.key ≠ m.key

lemma Alike.stands_iff {e e' : Engine U P} {round : Nat} (ha : Alike round e e') (m : Message P) :
    e.Stands round m ↔ e'.Stands round m := by
  simp only [Stands, Postbox.mem_messages, ha.waiting, ha.envelopes]

section Round

variable [Payload P] [SimUnit U P] {e e' : Engine U P} {round : Nat} {config config' : RunConfig}
  {horizon : SimTime} {m : Message P} {u : UnitId} {x : Slot U}

/-! ## What is due, whatever the partition -/

namespace Orderly

omit [Payload P] [SimUnit U P] in
/-- The messages that a worker has after its merge are those that stand. -/
lemma exists_mem_merge_iff (ho : e.Orderly round) :
    (∃ w ∈ e.workers.toList, m ∈ (w.queue.merge (e.stagedFor w.id round)).2.entries) ↔
      e.Stands round m := by
  have hc := ho.coherent
  have hgroup : (e.waiting ++ e.postbox.messages round).Perm (e.workers.toList.flatMap fun w =>
      w.queue.entries ++ Envelope.messages (e.stagedFor w.id round)) := by
    rw [hc.messages_eq, Engine.waiting]
    exact List.flatMap_append_perm ..
  have hkeys := (hgroup.map Message.key).nodup_iff.1 ho.nodup
  rw [List.map_flatMap, List.nodup_flatMap] at hkeys
  have hpending : (m ∈ e.waiting ∨ m ∈ e.postbox.messages round) ↔ ∃ w ∈ e.workers.toList,
      m ∈ w.queue.entries ∨ .deliver m ∈ e.stagedFor w.id round := by
    rw [← List.mem_append, hgroup.mem_iff, List.mem_flatMap]
    simp only [List.mem_append, Envelope.mem_messages]
  constructor
  · rintro ⟨w, hw, hm⟩
    rw [MessageQueue.mem_merge (hkeys.1 w hw)] at hm
    have hmem := hpending.2 ⟨w, hw, hm.1⟩
    refine ⟨hmem, fun h hh hkey => ?_⟩
    -- a cancellation of the message is staged for the worker that has the message
    obtain ⟨i, hi⟩ := List.getElem?_of_mem hw
    rw [Array.getElem?_toList] at hi
    obtain ⟨j, hj⟩ := Postbox.mem_envelopes.1 hh
    have htarget := ho.genuine h hh m (List.mem_append.2 hmem) hkey
    have howner : e.postbox.table.owner? m.target = some i := by
      rcases hm.1 with hm | hm
      · exact hc.waiting_owned hi m hm
      · rw [stagedFor_eq, hc.index_eq hi] at hm
        exact hc.staged_owned hm
    have hij : i = j := by
      have hother := hc.staged_owned hj
      rw [show (Envelope.cancel h : Envelope P).target = h.target from rfl, htarget, howner] at hother
      exact Option.some.inj hother
    subst hij
    refine hm.2 h ?_ hkey
    rw [stagedFor_eq, hc.index_eq hi]
    exact hj
  · rintro ⟨hmem, hstands⟩
    obtain ⟨w, hw, hm⟩ := hpending.1 hmem
    refine ⟨w, hw, (MessageQueue.mem_merge (hkeys.1 w hw)).2 ⟨hm, fun h hh => hstands h ?_⟩⟩
    rw [stagedFor_eq] at hh
    exact Postbox.mem_envelopes.2 ⟨_, hh⟩

omit [Payload P] [SimUnit U P] in
/-- **What is due** are the messages that stand and are within the limit. -/
theorem mem_due_iff (ho : e.Orderly round) : m ∈ e.due config horizon round ↔
    e.Stands round m ∧ m.time ≤ config.deliveryLimit horizon := by
  rw [← ho.exists_mem_merge_iff, due, List.mem_flatMap]
  simp only [Worker.due, MessageQueue.mem_popUpTo.1]
  constructor
  · rintro ⟨w, hw, hm, hle⟩
    exact ⟨⟨w, hw, hm⟩, hle⟩
  · rintro ⟨⟨w, hw, hm⟩, hle⟩
    exact ⟨w, hw, hm, hle⟩

/-- What waits after a round are the messages that stand and are beyond the limit. -/
lemma mem_waiting_runRound_iff (ho : e.Orderly round) :
    m ∈ (e.runRound config (round + 1) horizon).1.waiting ↔
      e.Stands round m ∧ ¬ m.time ≤ config.deliveryLimit horizon := by
  have hqueue : ∀ w, (e.part config round horizon w).1.queue =
      ((w.queue.merge (e.stagedFor w.id round)).2.popUpTo (config.deliveryLimit horizon)).2 := fun w =>
    (Worker.runRound_frame ..).2.1
  rw [← ho.exists_mem_merge_iff, Engine.waiting, (runRound_eq config round horizon e).1,
    Array.toList_map, List.flatMap_map, List.mem_flatMap]
  simp only [hqueue, MessageQueue.mem_popUpTo.2]
  constructor
  · rintro ⟨w, hw, hm, hle⟩
    exact ⟨⟨w, hw, hm⟩, hle⟩
  · rintro ⟨⟨w, hw, hm⟩, hle⟩
    exact ⟨w, hw, hm, hle⟩

/-- What is due is not due twice. -/
lemma nodup_due (ho : e.Orderly round) : (e.due config horizon round).Nodup := by
  have hperm := ho.coherent.perm_runRound config horizon ho.nodup
  exact (List.nodup_append.1 (hperm.nodup_iff.1 (ho.nodup.of_map _))).1

end Orderly

/-! ## Two partitions -/

namespace Alike

variable (ha : Alike round e e') (ho : e.Orderly round) (ho' : e'.Orderly round)
  (hlimit : config.deliveryLimit horizon = config'.deliveryLimit horizon)

include ha ho ho'

omit [Payload P] [SimUnit U P] in
/-- The same units exist, so units cannot tell the partitions apart. -/
lemma alike_setting (horizon : SimTime) :
    (e.setting round horizon).Alike (e'.setting round horizon) where
  table u := by
    change (e.postbox.table.route? u).isSome = (e'.postbox.table.route? u).isSome
    rw [← ho.coherent.isSome_slot?, ← ho'.coherent.isSome_slot?, ha.slot]
  round := rfl
  horizon := rfl

omit [Payload P] [SimUnit U P] in
/-- There are as many waiting and staged messages in both. -/
lemma length_eq : e.waiting.length = e'.waiting.length ∧
    (e.postbox.messages round).length = (e'.postbox.messages round).length := by
  have hn := List.nodup_append.1 (ho.nodup.of_map _)
  have hn' := List.nodup_append.1 (ho'.nodup.of_map _)
  refine ⟨((List.perm_ext_iff_of_nodup hn.1 hn'.1).2 ha.waiting).length_eq,
    ((List.perm_ext_iff_of_nodup hn.2.1 hn'.2.1).2 fun m => ?_).length_eq⟩
  rw [Postbox.mem_messages, Postbox.mem_messages, ha.envelopes]

include hlimit

omit [Payload P] [SimUnit U P] in
/-- **The same messages are due for each unit**, in the same order. -/
theorem filter_due_eq (u : UnitId) : (e.due config horizon round).filter (·.target = u) =
    (e'.due config' horizon round).filter (·.target = u) := by
  refine MessageQueue.eq_of_mem_iff (ho.coherent.sorted_filter_due config horizon u)
    (ho'.coherent.sorted_filter_due config' horizon u) fun m => ?_
  rw [List.mem_filter, List.mem_filter, ho.mem_due_iff, ho'.mem_due_iff, ha.stands_iff, hlimit]

/-- **One engine has a fault in a round just if the other has.** -/
theorem fault_iff : (e.runRound config (round + 1) horizon).2.fault.isSome ↔
    (e'.runRound config' (round + 1) horizon).2.fault.isSome := by
  rw [ho.coherent.isSome_fault_iff, ho'.coherent.isSome_fault_iff]
  refine exists_congr fun u => exists_congr fun x => ?_
  rw [ha.slot, ha.filter_due_eq ho ho' hlimit, Slot.fails_congr (ha.alike_setting ho ho' horizon)]

variable (hf : (e.runRound config (round + 1) horizon).2.fault = none)

include hf

omit ha ho ho' hlimit in
/-- Without a fault each unit is handed what is due for it. -/
lemma received_eq (u : UnitId) : (e.runRound config (round + 1) horizon).2.received u =
    (e.due config horizon round).filter (·.target = u) := by
  rw [RoundRecord.received, handed_of_success hf]

/-- There is no fault in the other engine either. -/
lemma fault_eq_none : (e'.runRound config' (round + 1) horizon).2.fault = none := by
  have hiff := ha.fault_iff ho ho' hlimit
  rw [hf] at hiff
  simpa using hiff

/-- **Each unit is handed the same messages**, in the same order. -/
theorem received_congr (u : UnitId) : (e.runRound config (round + 1) horizon).2.received u =
    (e'.runRound config' (round + 1) horizon).2.received u := by
  rw [received_eq hf, received_eq (ha.fault_eq_none ho ho' hlimit hf), ha.filter_due_eq ho ho' hlimit]

/-- **Engines that are alike stay so** in a round without fault. -/
theorem runRound : Alike (round + 1) (e.runRound config (round + 1) horizon).1
    (e'.runRound config' (round + 1) horizon).1 where
  slot u := by
    cases hx : e.slot? u with
    | none =>
      rw [ho.coherent.slot?_runRound_eq_none config horizon hx,
        ho'.coherent.slot?_runRound_eq_none config' horizon (ha.slot u ▸ hx)]
    | some x =>
      rw [(ho.coherent.slot?_runRound config horizon hx).1,
        (ho'.coherent.slot?_runRound config' horizon (ha.slot u ▸ hx)).1,
        ha.received_congr ho ho' hlimit hf,
        (Slot.handleAll_congr (ha.alike_setting ho ho' horizon) x _).1]
  waiting m := by
    rw [ho.mem_waiting_runRound_iff, ho'.mem_waiting_runRound_iff, ha.stands_iff, hlimit]
  envelopes y := by
    rw [ho.coherent.mem_envelopes_runRound, ho'.coherent.mem_envelopes_runRound,
      ho.coherent.mem_sent_iff, ho'.coherent.mem_sent_iff]
    refine exists_congr fun u => exists_congr fun x => ?_
    rw [ha.slot, ha.received_congr ho ho' hlimit hf, Slot.flatMap_sent, Slot.flatMap_sent,
      (Slot.handleAll_congr (ha.alike_setting ho ho' horizon) x _).2]

variable (hnext : (e.runRound config (round + 1) horizon).1.Orderly (round + 1))
  (hnext' : (e'.runRound config' (round + 1) horizon).1.Orderly (round + 1))

include hnext hnext'

/-- **The figures of a round are the same.** -/
theorem figures : (e.runRound config (round + 1) horizon).2.summary.delivered =
      (e'.runRound config' (round + 1) horizon).2.summary.delivered ∧
    (e.runRound config (round + 1) horizon).2.summary.pending =
      (e'.runRound config' (round + 1) horizon).2.summary.pending ∧
    (e.runRound config (round + 1) horizon).2.removed =
      (e'.runRound config' (round + 1) horizon).2.removed ∧
    (e.runRound config (round + 1) horizon).2.accepted.length =
      (e'.runRound config' (round + 1) horizon).2.accepted.length ∧
    (e.runRound config (round + 1) horizon).2.earliest =
      (e'.runRound config' (round + 1) horizon).2.earliest := by
  have hf' := ha.fault_eq_none ho ho' hlimit hf
  have ha' := ha.runRound ho ho' hlimit hf
  obtain ⟨hwaiting, hmessages⟩ := ha.length_eq ho ho'
  obtain ⟨hwaiting', hmessages'⟩ := ha'.length_eq hnext hnext'
  obtain ⟨hdelivered, hqueued, hearliest⟩ := summary_of_success hf
  obtain ⟨hdelivered', hqueued', hearliest'⟩ := summary_of_success hf'
  obtain ⟨hremoved, hstaged⟩ := counts_runRound config round horizon e
  obtain ⟨hremoved', hstaged'⟩ := counts_runRound config' round horizon e'
  have hdue : (e.due config horizon round).length = (e'.due config' horizon round).length :=
    ((List.perm_ext_iff_of_nodup ho.nodup_due ho'.nodup_due).2 fun m => by
      rw [ho.mem_due_iff, ho'.mem_due_iff, ha.stands_iff, hlimit]).length_eq
  have hsplit := (ho.coherent.perm_runRound config horizon ho.nodup).length_eq
  have hsplit' := (ho'.coherent.perm_runRound config' horizon ho'.nodup).length_eq
  simp only [List.length_append] at hsplit hsplit'
  refine ⟨?_, ?_, ?_, ?_, ?_⟩
  · rw [hdelivered, hdelivered', hdue]
  · rw [RoundSummary.pending, RoundSummary.pending, hqueued, hqueued', hwaiting']
    exact congrArg _ (hstaged.trans (hmessages'.trans hstaged'.symm))
  · rw [hremoved, hremoved']
    omega
  · rw [← (ho.coherent.perm_messages_runRound config horizon).length_eq,
      ← (ho'.coherent.perm_messages_runRound config' horizon).length_eq, hmessages']
  · rw [hearliest, hearliest']
    refine SimTime.earliest?_congr fun t => ?_
    simp only [List.mem_map, List.mem_append, Postbox.mem_messages, ha'.waiting, ha'.envelopes]

end Alike

end Round

end Engine

end EventSim
