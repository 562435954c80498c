import EventSim.Engine.Round
import EventSim.Proofs.Staging
import EventSim.Proofs.WorkerRound
import Mathlib.Algebra.BigOperators.Group.List.Basic
import Mathlib.Algebra.GroupWithZero.Nat
import Mathlib.Data.List.Flatten

set_option autoImplicit false

/-!
# One round of the engine

Between rounds every message is where its target is: it waits in the queue of the worker that owns the
target, or it is staged for that worker. A round keeps this. It neither loses nor doubles a message, and
each unit sees of it only the messages that the unit itself is handed.

## Main definitions

* `EventSim.Engine.Coherent` — the engine after a round, with every message at the right worker.
* `EventSim.Engine.slot?`, `EventSim.Engine.waiting` — the units and the waiting messages of all workers.
* `EventSim.Engine.due`, `EventSim.Engine.withdrawn` — what a round takes out of the queues.
* `EventSim.RoundRecord.handled`, `sent`, `accepted`, `received` — what happens in a round.

## Main results

* `EventSim.Engine.Coherent.runRound` — a round keeps the engine coherent.
* `EventSim.Engine.Coherent.perm_runRound` — a round loses no message.
* `EventSim.Engine.Coherent.sorted_received` — each unit is handed messages in the order of their keys.
* `EventSim.Engine.Coherent.slot?_runRound` — each unit in a round.
* `EventSim.Engine.Coherent.isSome_fault_iff` — a round fails just if a unit does.
* `EventSim.Engine.Coherent.of_success` — the counts of a round without fault.
-/

namespace EventSim

/-! ### Internal helpers: lists over workers -/

/-- If one element alone contributes, the sum is its contribution. -/
lemma flatMap_eq_of_getElem? {α β : Type} {xs : List α} {f : α → List β} {i : Nat} {x : α}
    (hx : xs[i]? = some x) (h : ∀ (j : Nat) y, xs[j]? = some y → j ≠ i → f y = []) :
    xs.flatMap f = f x := by
  have hnil : ∀ ys : List α, (∀ y ∈ ys, f y = []) → ys.flatMap f = [] := fun ys hys =>
    List.flatMap_eq_nil_iff.2 hys
  obtain ⟨hi, rfl⟩ := List.getElem?_eq_some_iff.1 hx
  have hsplit : xs = xs.take i ++ xs[i] :: xs.drop (i + 1) := by simp
  conv_lhs => rw [hsplit]
  rw [List.flatMap_append, List.flatMap_cons, hnil _ fun y hy => ?_, hnil _ fun y hy => ?_,
    List.nil_append, List.append_nil]
  · obtain ⟨j, hj⟩ := List.getElem?_of_mem hy
    rw [List.getElem?_drop] at hj
    exact h _ y hj (by omega)
  · obtain ⟨j, hj⟩ := List.getElem?_of_mem hy
    rw [List.getElem?_take] at hj
    split at hj
    · exact h j y hj (by omega)
    · cases hj

/-- If the elements of a sum tell which summand they come from, a part of the sum is the sum of some
summands. -/
lemma filter_flatMap_of_forall {α β γ : Type} [DecidableEq γ] {xs : List α} {f : α → List β}
    {source : α → γ} {origin : β → γ} {c : γ} (h : ∀ x ∈ xs, ∀ y ∈ f x, origin y = source x) :
    (xs.flatMap f).filter (origin · = c) = (xs.filter (source · = c)).flatMap f := by
  induction xs with
  | nil => rfl
  | cons x xs ih =>
    have hx := h x List.mem_cons_self
    rw [List.flatMap_cons, List.filter_append, ih fun y hy => h y (List.mem_cons_of_mem _ hy),
      List.filter_cons]
    by_cases hc : source x = c
    · rw [if_pos (by simpa using hc), List.flatMap_cons, List.filter_eq_self.2 fun y hy => ?_]
      simpa [hx y hy] using hc
    · rw [if_neg (by simpa using hc), List.filter_eq_nil_iff.2 fun y hy => ?_, List.nil_append]
      simpa [hx y hy] using hc

variable {U P : Type}

/-! ## What happens in a round -/

namespace RoundRecord

/-- The messages that were handed over in a round, with what came of them. -/
def handled (r : RoundRecord P) : List (Handled P) := r.reports.flatMap (·.handled)

/-- What all units sent in a round. -/
def sent (r : RoundRecord P) : List (Envelope P) := r.handled.flatMap (·.sent)

/-- The messages that were scheduled in a round. -/
def accepted (r : RoundRecord P) : List (Message P) := Envelope.messages r.sent

/-- The messages that one unit was handed in a round, in order. -/
def received (r : RoundRecord P) (u : UnitId) : List (Message P) :=
  (r.handled.map (·.message)).filter (·.target = u)

/-- The number of withdrawals that removed a message in a round. -/
def removed (r : RoundRecord P) : Nat := (r.reports.map (·.removed)).sum

end RoundRecord

namespace Engine

/-! ## The engine between rounds -/

/-- The unit with the given number, at the worker that owns it. -/
def slot? (e : Engine U P) (u : UnitId) : Option (Slot U) :=
  (e.postbox.table.owner? u).bind fun i => e.workers[i]?.bind (·.slot? e.postbox.table u)

/-- The messages that wait in the queues of all workers. -/
def waiting (e : Engine U P) : List (Message P) := e.workers.toList.flatMap (·.queue.entries)

/-- The messages that all workers take out of their queues to hand them over, with what is staged from the
given round. -/
def due (config : RunConfig) (horizon : SimTime) (e : Engine U P) (round : Nat) : List (Message P) :=
  e.workers.toList.flatMap fun w => w.due config horizon (e.stagedFor w.id round)

/-- The messages that the cancellations staged from the given round remove. -/
def withdrawn (e : Engine U P) (round : Nat) : List (Message P) :=
  e.workers.toList.flatMap fun w => w.queue.withdrawn (e.stagedFor w.id round)

/-- The engine after the given round: every unit, every waiting message and every staged envelope is at the
worker that the routing table names, and only the slot of the given round is filled. -/
structure Coherent (e : Engine U P) (round : Nat) : Prop where
  /-- The workers stand in the order of their numbers. -/
  index_eq : ∀ {i : Nat} {w}, e.workers[i]? = some w → w.id.index = i
  /-- Every worker has an inbox. -/
  size_eq : e.postbox.inboxes.size = e.workers.size
  /-- All units are in their places. -/
  placed : ∀ {i : Nat} {w}, e.workers[i]? = some w → w.Placed e.postbox.table
  /-- Every owner is there. -/
  owner_lt : ∀ {u i}, e.postbox.table.owner? u = some i → i < e.workers.size
  /-- Messages wait with their targets. -/
  waiting_owned : ∀ {i : Nat} {w}, e.workers[i]? = some w → ∀ m ∈ w.queue.entries,
    e.postbox.table.owner? m.target = some i
  /-- Envelopes are staged for the owners of their targets. -/
  staged_owned : ∀ {i x}, x ∈ e.postbox.staged i round → e.postbox.table.owner? x.target = some i
  /-- Nothing is staged in the slot of the next round. -/
  idle : ∀ i, e.postbox.staged i (round + 1) = []

section Coherent

variable {e : Engine U P} {round : Nat} {i : Nat} {w : Worker U P} {u : UnitId} {x : Slot U}

lemma stagedFor_eq (e : Engine U P) (w : WorkerId) (round : Nat) :
    e.stagedFor w round = e.postbox.staged w.index round := by
  unfold stagedFor Postbox.inbox? Postbox.staged
  cases e.postbox.inboxes[w.index]? <;> rfl

/-- A worker owns a unit if the routing table names the worker's number. -/
lemma owns_iff {t : RoutingTable} : w.Owns t u ↔ t.owner? u = some w.id.index := by
  unfold Worker.Owns RoutingTable.owner?
  rw [Option.map_eq_some_iff]
  exact exists_congr fun r => and_congr_right fun _ => ⟨fun h => h ▸ rfl, Id.ext_index⟩

namespace Coherent

/-- The workers are numbered through. -/
lemma map_index (hc : e.Coherent round) :
    e.workers.toList.map (·.id.index) = List.range e.workers.size := by
  ext1 i
  rw [List.getElem?_map, Array.getElem?_toList]
  by_cases hi : i < e.workers.size
  · rw [Array.getElem?_eq_getElem hi, List.getElem?_range hi, Option.map_some,
      hc.index_eq (Array.getElem?_eq_getElem hi)]
  · rw [Array.getElem?_eq_none (by omega), List.getElem?_eq_none (by simpa using hi)]
    rfl

/-- What is staged for all workers is what each of them finds. -/
lemma messages_eq (hc : e.Coherent round) (round' : Nat) :
    e.postbox.messages round' =
      e.workers.toList.flatMap fun w => Envelope.messages (e.stagedFor w.id round') := by
  rw [Postbox.messages, hc.size_eq, ← hc.map_index, List.flatMap_map]
  simp only [stagedFor_eq]

/-- What waits and what is staged, each worker finds its share of it. -/
lemma perm_pending (hc : e.Coherent round) :
    (e.waiting ++ e.postbox.messages round).Perm (e.workers.toList.flatMap fun w =>
      w.queue.entries ++ Envelope.messages (e.stagedFor w.id round)) := by
  rw [hc.messages_eq, waiting]
  exact List.flatMap_append_perm ..

/-- If all messages have keys of their own, so have those that one worker finds. -/
lemma nodup_keys (hc : e.Coherent round)
    (hk : ((e.waiting ++ e.postbox.messages round).map Message.key).Nodup) (hw : w ∈ e.workers.toList) :
    ((w.queue.entries ++ Envelope.messages (e.stagedFor w.id round)).map Message.key).Nodup := by
  have hkeys := (hc.perm_pending.map Message.key).nodup_iff.1 hk
  rw [List.map_flatMap, List.nodup_flatMap] at hkeys
  exact hkeys.1 w hw

/-- A worker that has a unit owns it. -/
lemma owner_of_slot? (hc : e.Coherent round) (hw : e.workers[i]? = some w)
    (hx : w.slot? e.postbox.table u = some x) : e.postbox.table.owner? u = some i := by
  obtain ⟨r, hr, hid, _⟩ := Worker.slot?_eq_some_iff.1 hx
  rw [owns_iff.1 ⟨r, hr, hid⟩, hc.index_eq hw]

/-- A unit is found at the worker that has it. -/
lemma slot?_eq_some_iff (hc : e.Coherent round) :
    e.slot? u = some x ↔ ∃ (i : Nat) (w : Worker U P),
      e.workers[i]? = some w ∧ w.slot? e.postbox.table u = some x := by
  unfold slot?
  simp only [Option.bind_eq_some_iff]
  constructor
  · rintro ⟨i, _, w, hw, hx⟩
    exact ⟨i, w, hw, hx⟩
  · rintro ⟨i, w, hw, hx⟩
    exact ⟨i, hc.owner_of_slot? hw hx, w, hw, hx⟩

/-- A unit that is found has the number that it is found under. -/
lemma id_of_slot? (hc : e.Coherent round) (hx : e.slot? u = some x) : x.id = u := by
  obtain ⟨i, w, hw, hx⟩ := hc.slot?_eq_some_iff.1 hx
  exact (hc.placed hw).id_of_slot? hx

/-- Every unit that has a route is found. -/
lemma isSome_slot? (hc : e.Coherent round) :
    (e.slot? u).isSome = (e.postbox.table.route? u).isSome := by
  rw [Bool.eq_iff_iff]
  constructor
  · intro h
    obtain ⟨x, hx⟩ := Option.isSome_iff_exists.1 h
    obtain ⟨i, w, _, hx⟩ := hc.slot?_eq_some_iff.1 hx
    obtain ⟨r, hr, _⟩ := Worker.slot?_eq_some_iff.1 hx
    exact Option.isSome_iff_exists.2 ⟨r, hr⟩
  · intro h
    obtain ⟨r, hr⟩ := Option.isSome_iff_exists.1 h
    have howner : e.postbox.table.owner? u = some r.worker.index := by
      rw [RoutingTable.owner?, hr]
      rfl
    obtain ⟨w, hget⟩ : ∃ w, e.workers[r.worker.index]? = some w :=
      ⟨_, Array.getElem?_eq_getElem (hc.owner_lt howner)⟩
    have hid : r.worker = w.id := Id.ext_index (hc.index_eq hget).symm
    obtain ⟨_, y, _, _, _, _, hy⟩ := (hc.placed hget).exists_slot ⟨r, hr, hid⟩
    exact Option.isSome_iff_exists.2 ⟨y, hc.slot?_eq_some_iff.2 ⟨_, _, hget, hy⟩⟩

/-- Every message is due at the worker that owns its target. -/
lemma due_owned (hc : e.Coherent round) (config : RunConfig) (horizon : SimTime)
    (hw : e.workers[i]? = some w) :
    ∀ m ∈ w.due config horizon (e.stagedFor w.id round), w.Owns e.postbox.table m.target := by
  intro m hm
  rw [owns_iff, hc.index_eq hw]
  rcases (Worker.of_mem_due hm).1 with h | h
  · exact hc.waiting_owned hw m h
  · rw [stagedFor_eq, hc.index_eq hw] at h
    exact hc.staged_owned h

/-- What is due waited or was staged, and is within the limit. -/
lemma of_mem_due (hc : e.Coherent round) {config : RunConfig} {horizon : SimTime} {m : Message P}
    (hm : m ∈ e.due config horizon round) :
    (m ∈ e.waiting ∨ m ∈ e.postbox.messages round) ∧ m.time ≤ config.deliveryLimit horizon := by
  obtain ⟨w, hw, hm⟩ := List.mem_flatMap.1 hm
  obtain ⟨hmem, hle⟩ := Worker.of_mem_due hm
  refine ⟨hmem.imp (fun h => List.mem_flatMap.2 ⟨w, hw, h⟩) fun h => ?_, hle⟩
  rw [hc.messages_eq]
  exact List.mem_flatMap.2 ⟨w, hw, Envelope.mem_messages.2 h⟩

end Coherent

end Coherent

/-! ## The round -/

section Round

variable [Payload P] [SimUnit U P] {config : RunConfig} {e : Engine U P} {round : Nat}
  {horizon : SimTime} {i : Nat} {w : Worker U P} {u : UnitId} {x : Slot U}

/-- What one worker does in the round after the given one. -/
def part (config : RunConfig) (round : Nat) (horizon : SimTime) (e : Engine U P) (w : Worker U P) :
    Worker U P × Report P :=
  w.runRound config e.postbox.table (round + 1) horizon (e.stagedFor w.id round)

/-- A round is the parts of all workers, and then the staging of what they sent. -/
lemma runRound_eq (config : RunConfig) (round : Nat) (horizon : SimTime) (e : Engine U P) :
    (e.runRound config (round + 1) horizon).1.workers =
        e.workers.map (fun w => (e.part config round horizon w).1) ∧
      (e.runRound config (round + 1) horizon).2.reports =
        e.workers.toList.map (fun w => (e.part config round horizon w).2) ∧
      (e.runRound config (round + 1) horizon).1.postbox =
        (e.postbox.clear round).postAll (round + 1)
          (e.runRound config (round + 1) horizon).2.sent := by
  refine ⟨?_, ?_, ?_⟩
  · simp only [runRound, Array.map_map]
    rfl
  · simp only [runRound, Array.toList_map, List.map_map]
    rfl
  · simp only [runRound, RoundRecord.sent, RoundRecord.handled, List.flatMap_assoc]
    rfl

lemma getElem?_workers_runRound (config : RunConfig) (round : Nat) (horizon : SimTime)
    (e : Engine U P) (i : Nat) : (e.runRound config (round + 1) horizon).1.workers[i]? =
      e.workers[i]?.map fun w => (e.part config round horizon w).1 := by
  rw [(runRound_eq config round horizon e).1, Array.getElem?_map]

@[simp] lemma table_runRound (config : RunConfig) (round : Nat) (horizon : SimTime)
    (e : Engine U P) : (e.runRound config (round + 1) horizon).1.postbox.table = e.postbox.table := by
  rw [(runRound_eq config round horizon e).2.2, Postbox.table_postAll, Postbox.table_clear]

/-- What was handed over in a round was handed over by the workers. -/
lemma handled_runRound (config : RunConfig) (round : Nat) (horizon : SimTime) (e : Engine U P) :
    (e.runRound config (round + 1) horizon).2.handled =
      e.workers.toList.flatMap fun w => (e.part config round horizon w).2.handled := by
  rw [RoundRecord.handled, (runRound_eq config round horizon e).2.1, List.flatMap_map]

/-- A worker hands over what is due at it, up to a failure. -/
lemma prefix_messages_part (config : RunConfig) (round : Nat) (horizon : SimTime) (e : Engine U P)
    (w : Worker U P) : (e.part config round horizon w).2.handled.map (·.message) <+:
      w.due config horizon (e.stagedFor w.id round) := by
  rw [part, (Worker.runRound_frame ..).2.2.2.2.1]
  exact Worker.prefix_messages_deliverAll ..

/-- What is handed over in a round is a part of what is due, in the same order. -/
lemma sublist_messages_runRound (config : RunConfig) (round : Nat) (horizon : SimTime) (e : Engine U P) :
    ((e.runRound config (round + 1) horizon).2.handled.map (·.message)).Sublist
      (e.due config horizon round) := by
  rw [handled_runRound, List.map_flatMap]
  exact List.Sublist.flatMap_right _ fun w _ => (prefix_messages_part config round horizon e w).sublist

/-- Nothing that is sent in a round is earlier than its horizon, and all targets exist. -/
lemma sent_runRound (config : RunConfig) (round : Nat) (horizon : SimTime) (e : Engine U P) :
    (∀ m ∈ (e.runRound config (round + 1) horizon).2.accepted, horizon ≤ m.time) ∧
      ∀ y ∈ (e.runRound config (round + 1) horizon).2.sent,
        (e.postbox.table.route? y.target).isSome := by
  have hone : ∀ h ∈ (e.runRound config (round + 1) horizon).2.handled,
      (∀ m ∈ Envelope.messages h.sent, horizon ≤ m.time) ∧
        ∀ y ∈ h.sent, (e.postbox.table.route? y.target).isSome := by
    intro h hh
    rw [handled_runRound] at hh
    obtain ⟨w, _, hh⟩ := List.mem_flatMap.1 hh
    rw [part, (Worker.runRound_frame ..).2.2.2.2.1] at hh
    exact Worker.sent_deliverAll _ _ _ _ _ h hh
  constructor
  · intro m hm
    rw [RoundRecord.accepted, RoundRecord.sent, Envelope.messages_flatMap] at hm
    obtain ⟨h, hh, hm⟩ := List.mem_flatMap.1 hm
    exact (hone h hh).1 m hm
  · intro y hy
    obtain ⟨h, hh, hy⟩ := List.mem_flatMap.1 hy
    exact (hone h hh).2 y hy

namespace Coherent

/-- The envelopes sent in a round are for units with owners. -/
lemma sent_owned (hc : e.Coherent round) : ∀ y ∈ (e.runRound config (round + 1) horizon).2.sent,
    ∃ i < e.workers.size, e.postbox.table.owner? y.target = some i := by
  intro y hy
  obtain ⟨r, hr⟩ := Option.isSome_iff_exists.1 ((sent_runRound config round horizon e).2 y hy)
  have howner : e.postbox.table.owner? y.target = some r.worker.index := by
    rw [RoutingTable.owner?, hr]
    rfl
  exact ⟨_, hc.owner_lt howner, howner⟩

/-- What is staged after a round is each worker's share of what was sent in it. -/
lemma staged_runRound (hc : e.Coherent round) (hi : i < e.workers.size) :
    (e.runRound config (round + 1) horizon).1.postbox.staged i (round + 1) =
      (e.runRound config (round + 1) horizon).2.sent.filter
        fun y => e.postbox.table.owner? y.target = some i := by
  have hparity : (round + 1) % 2 ≠ round % 2 := by omega
  rw [(runRound_eq config round horizon e).2.2,
    Postbox.staged_postAll (by simpa [hc.size_eq] using hi) rfl, Postbox.staged_clear_of_ne hparity,
    hc.idle, List.nil_append, Postbox.table_clear]

/-- Whatever is staged for a worker after a round was sent in it, to a unit of the worker. -/
lemma of_mem_staged_runRound (hc : e.Coherent round) {y : Envelope P}
    (hy : y ∈ (e.runRound config (round + 1) horizon).1.postbox.staged i (round + 1)) :
    y ∈ (e.runRound config (round + 1) horizon).2.sent ∧ e.postbox.table.owner? y.target = some i := by
  by_cases hi : i < e.workers.size
  · rw [hc.staged_runRound hi, List.mem_filter] at hy
    exact hy.imp_right of_decide_eq_true
  · rw [Postbox.staged_eq_nil_of_size_le] at hy
    · cases hy
    · rw [(runRound_eq config round horizon e).2.2, Postbox.size_postAll, Postbox.size_clear,
        hc.size_eq]
      omega

/-- **A round keeps the engine coherent.** -/
theorem runRound (hc : e.Coherent round) (config : RunConfig) (horizon : SimTime) :
    (e.runRound config (round + 1) horizon).1.Coherent (round + 1) where
  index_eq {i w'} hw' := by
    rw [getElem?_workers_runRound] at hw'
    obtain ⟨w, hw, rfl⟩ := Option.map_eq_some_iff.1 hw'
    rw [part, (Worker.runRound_frame ..).1]
    exact hc.index_eq hw
  size_eq := by
    rw [(runRound_eq config round horizon e).2.2, (runRound_eq config round horizon e).1]
    simpa using hc.size_eq
  placed {i w'} hw' := by
    rw [getElem?_workers_runRound] at hw'
    obtain ⟨w, hw, rfl⟩ := Option.map_eq_some_iff.1 hw'
    rw [table_runRound]
    exact (Worker.runRound_unit (round + 1) (hc.placed hw) (hc.due_owned config horizon hw)).1
  owner_lt {u i} ho := by
    rw [table_runRound] at ho
    rw [(runRound_eq config round horizon e).1, Array.size_map]
    exact hc.owner_lt ho
  waiting_owned {i w'} hw' m hm := by
    rw [getElem?_workers_runRound] at hw'
    obtain ⟨w, hw, rfl⟩ := Option.map_eq_some_iff.1 hw'
    rw [part, (Worker.runRound_frame ..).2.1, MessageQueue.mem_popUpTo.2] at hm
    rw [table_runRound]
    rcases MessageQueue.mem_of_mem_merge hm.1 with h | h
    · exact hc.waiting_owned hw m h
    · rw [stagedFor_eq, hc.index_eq hw] at h
      exact hc.staged_owned h
  staged_owned {i y} hy := by
    rw [table_runRound]
    exact (hc.of_mem_staged_runRound hy).2
  idle i := by
    have hparity : (round + 1 + 1) % 2 ≠ (round + 1) % 2 := by omega
    rw [(runRound_eq config round horizon e).2.2, Postbox.staged_postAll_of_ne hparity,
      Postbox.staged_clear (by omega)]

/-- What is staged after a round is what was scheduled in it. -/
lemma perm_messages_runRound (hc : e.Coherent round) (config : RunConfig) (horizon : SimTime) :
    ((e.runRound config (round + 1) horizon).1.postbox.messages (round + 1)).Perm
      (e.runRound config (round + 1) horizon).2.accepted := by
  have hparity : (round + 1) % 2 ≠ round % 2 := by omega
  have hidle : (e.postbox.clear round).messages (round + 1) = [] := by
    apply List.flatMap_eq_nil_iff.2
    intro i _
    rw [Postbox.staged_clear_of_ne hparity, hc.idle, Envelope.messages_nil]
  have howned : ∀ y ∈ (e.runRound config (round + 1) horizon).2.sent,
      ∃ i < (e.postbox.clear round).inboxes.size,
        (e.postbox.clear round).table.owner? y.target = some i := fun y hy => by
    obtain ⟨i, hi, ho⟩ := hc.sent_owned y hy
    exact ⟨i, by simpa [hc.size_eq] using hi, ho⟩
  have hpost := Postbox.messages_postAll (b := e.postbox.clear round)
    (rfl : (round + 1) % 2 = (round + 1) % 2) howned
  rwa [hidle, List.nil_append, ← (runRound_eq config round horizon e).2.2] at hpost

/-- **A round loses no message**: what waited and what was staged is due, withdrawn or left waiting. -/
theorem perm_runRound (hc : e.Coherent round) (config : RunConfig) (horizon : SimTime)
    (hk : ((e.waiting ++ e.postbox.messages round).map Message.key).Nodup) :
    (e.waiting ++ e.postbox.messages round).Perm
      (e.due config horizon round ++ (e.withdrawn round ++
        (e.runRound config (round + 1) horizon).1.waiting)) := by
  have hgroup := hc.perm_pending
  have hafter : (e.runRound config (round + 1) horizon).1.waiting = e.workers.toList.flatMap fun w =>
      ((w.queue.merge (e.stagedFor w.id round)).2.popUpTo
        (config.deliveryLimit horizon)).2.entries := by
    rw [waiting, (runRound_eq config round horizon e).1, Array.toList_map, List.flatMap_map]
    apply List.flatMap_congr
    intro w _
    rw [part, (Worker.runRound_frame ..).2.1]
  rw [hafter]
  refine hgroup.trans ((List.Perm.flatMap_left _ fun w hw =>
    Worker.perm_due config horizon (hc.nodup_keys hk hw)).trans ?_)
  refine (List.flatMap_append_perm ..).symm.trans (List.Perm.append_left _ ?_)
  exact (List.flatMap_append_perm ..).symm

/-! ### Each unit in a round -/

omit [Payload P] [SimUnit U P] in
/-- Of what belongs to the units of all workers, that of one unit is at its own worker. -/
lemma filter_flatMap_workers {β : Type} {f : Worker U P → List β} {unit : β → UnitId} (hc : e.Coherent round)
    (hw : e.workers[i]? = some w) (ho : e.postbox.table.owner? u = some i)
    (howned : ∀ (j : Nat) w', e.workers[j]? = some w' → ∀ y ∈ f w', w'.Owns e.postbox.table (unit y)) :
    (e.workers.toList.flatMap f).filter (unit · = u) = (f w).filter (unit · = u) := by
  rw [List.filter_flatMap]
  apply flatMap_eq_of_getElem? (x := w) (i := i) (by simpa using hw)
  intro j w' hj hne
  rw [Array.getElem?_toList] at hj
  apply List.filter_eq_nil_iff.2
  intro y hy hunit
  -- the units of another worker have another owner
  have howner := owns_iff.1 (howned j w' hj y hy)
  rw [of_decide_eq_true hunit, ho, hc.index_eq hj] at howner
  exact hne (Option.some.inj howner).symm

/-- What a unit was handed, its own worker handed it. -/
lemma filter_handled (hc : e.Coherent round) (config : RunConfig) (horizon : SimTime)
    (hw : e.workers[i]? = some w)
    (ho : e.postbox.table.owner? u = some i) :
    (e.runRound config (round + 1) horizon).2.handled.filter (·.message.target = u) =
      (e.part config round horizon w).2.handled.filter (·.message.target = u) := by
  rw [handled_runRound]
  refine hc.filter_flatMap_workers hw ho fun j w' hj h hh => ?_
  exact hc.due_owned config horizon hj _
    ((prefix_messages_part config round horizon e _).subset (List.mem_map_of_mem hh))

omit [Payload P] [SimUnit U P] in
/-- What is due for a unit is due at its own worker. -/
lemma filter_due (hc : e.Coherent round) (hw : e.workers[i]? = some w)
    (ho : e.postbox.table.owner? u = some i) :
    (e.due config horizon round).filter (·.target = u) =
      (w.due config horizon (e.stagedFor w.id round)).filter (·.target = u) :=
  hc.filter_flatMap_workers hw ho fun _ _ hj => hc.due_owned config horizon hj

omit [Payload P] [SimUnit U P] in
/-- What is due for a unit comes in order of keys. -/
lemma sorted_filter_due (hc : e.Coherent round) (config : RunConfig) (horizon : SimTime) (u : UnitId) :
    KeySorted ((e.due config horizon round).filter (·.target = u)) := by
  cases hu : e.postbox.table.owner? u with
  | none =>
    have hnil : (e.due config horizon round).filter (·.target = u) = [] := by
      apply List.filter_eq_nil_iff.2
      intro m hm htarget
      obtain ⟨w, hw, hm⟩ := List.mem_flatMap.1 hm
      obtain ⟨i, hi⟩ := List.getElem?_of_mem hw
      rw [Array.getElem?_toList] at hi
      have howner := owns_iff.1 (hc.due_owned config horizon hi m hm)
      rw [of_decide_eq_true htarget, hu] at howner
      cases howner
    rw [hnil]
    exact List.Pairwise.nil
  | some i =>
    obtain ⟨w, hw⟩ : ∃ w, e.workers[i]? = some w := ⟨_, Array.getElem?_eq_getElem (hc.owner_lt hu)⟩
    rw [hc.filter_due hw hu]
    exact Worker.sorted_due.filter _

/-- **A unit is handed messages in the order of their keys** in a round. -/
theorem sorted_received (hc : e.Coherent round) (config : RunConfig) (horizon : SimTime) (u : UnitId) :
    KeySorted ((e.runRound config (round + 1) horizon).2.received u) :=
  (hc.sorted_filter_due config horizon u).sublist
    ((sublist_messages_runRound config round horizon e).filter _)

end Coherent

/-- The setting of the round after the given one. Units cannot tell which worker hands messages over. -/
def setting (round : Nat) (horizon : SimTime) (e : Engine U P) : Setting :=
  ⟨Id.invalid, e.postbox.table, round + 1, horizon⟩

namespace Coherent

omit [Payload P] [SimUnit U P] in
lemma alike_setting (e : Engine U P) (round : Nat) (horizon : SimTime) (w : Worker U P) :
    (w.setting e.postbox.table (round + 1) horizon).Alike (e.setting round horizon) :=
  ⟨fun _ => rfl, rfl, rfl⟩

/-- **Each unit in a round**: it handles the messages that it is handed. -/
theorem slot?_runRound (hc : e.Coherent round) (config : RunConfig) (horizon : SimTime)
    (hx : e.slot? u = some x) :
    (e.runRound config (round + 1) horizon).1.slot? u = some (x.handleAll (e.setting round horizon)
        ((e.runRound config (round + 1) horizon).2.received u)).1 ∧
      ((e.runRound config (round + 1) horizon).2.handled.filter (·.message.target = u)).map
          Slot.outline =
        (x.handleAll (e.setting round horizon)
          ((e.runRound config (round + 1) horizon).2.received u)).2.map Slot.outline := by
  obtain ⟨i, w, hw, hx⟩ := hc.slot?_eq_some_iff.1 hx
  have howner := hc.owner_of_slot? hw hx
  have hhandled := hc.filter_handled config horizon hw howner
  have hreceived : (e.runRound config (round + 1) horizon).2.received u =
      (e.part config round horizon w).2.received u := by
    rw [RoundRecord.received, Report.received, List.filter_map, List.filter_map]
    exact congrArg _ hhandled
  obtain ⟨hslot, hout⟩ := (Worker.runRound_unit (round + 1) (hc.placed hw)
    (hc.due_owned config horizon hw)).2 u x hx
  obtain ⟨hslot', hout'⟩ := Slot.handleAll_congr (alike_setting e round horizon w) x
    ((e.part config round horizon w).2.received u)
  rw [hreceived, hhandled, ← hslot', ← hout']
  have hget : (e.runRound config (round + 1) horizon).1.workers[i]? =
      some (e.part config round horizon w).1 := by
    rw [getElem?_workers_runRound, hw, Option.map_some]
  refine ⟨(hc.runRound config horizon).slot?_eq_some_iff.2 ⟨i, _, hget, ?_⟩, congrArg _ hout⟩
  rw [table_runRound]
  exact hslot

/-- A unit that is not there does not appear in a round, and nothing is handed to it. -/
lemma slot?_runRound_eq_none (hc : e.Coherent round) (config : RunConfig) (horizon : SimTime)
    (hu : e.slot? u = none) : (e.runRound config (round + 1) horizon).1.slot? u = none := by
  rw [← Option.not_isSome_iff_eq_none, (hc.runRound config horizon).isSome_slot?, table_runRound,
    ← hc.isSome_slot?, hu]
  simp

/-- **A round fails just if a unit does**, given its due messages alone. -/
theorem isSome_fault_iff (hc : e.Coherent round) :
    (e.runRound config (round + 1) horizon).2.fault.isSome ↔ ∃ u x, e.slot? u = some x ∧
      x.Fails (e.setting round horizon) ((e.due config horizon round).filter (·.target = u)) := by
  have hworker : (e.runRound config (round + 1) horizon).2.fault.isSome ↔
      ∃ w ∈ e.workers.toList, (e.part config round horizon w).2.fault.isSome := by
    rw [RoundRecord.fault, List.findSome?_isSome_iff, (runRound_eq config round horizon e).2.1]
    simp
  rw [hworker]
  constructor
  · rintro ⟨w, hw, hf⟩
    obtain ⟨i, hi⟩ := List.getElem?_of_mem hw
    rw [Array.getElem?_toList] at hi
    obtain ⟨u, x, hx, hfail⟩ := (Worker.isSome_fault_runRound_iff_unit (hc.placed hi)
      (hc.due_owned config horizon hi)).1 hf
    refine ⟨u, x, hc.slot?_eq_some_iff.2 ⟨i, w, hi, hx⟩, ?_⟩
    rw [hc.filter_due hi (hc.owner_of_slot? hi hx)]
    exact (Slot.fails_congr (alike_setting e round horizon w)).1 hfail
  · rintro ⟨u, x, hx, hfail⟩
    obtain ⟨i, w, hi, hx⟩ := hc.slot?_eq_some_iff.1 hx
    rw [hc.filter_due hi (hc.owner_of_slot? hi hx)] at hfail
    refine ⟨w, List.mem_of_getElem? (by simpa using hi), ?_⟩
    exact (Worker.isSome_fault_runRound_iff_unit (hc.placed hi)
      (hc.due_owned config horizon hi)).2
        ⟨u, x, hx, (Slot.fails_congr (alike_setting e round horizon w)).2 hfail⟩

/-- Every message that is handed over is for a unit that is there. -/
lemma exists_slot_of_handled (hc : e.Coherent round) {h : Handled P}
    (hh : h ∈ (e.runRound config (round + 1) horizon).2.handled) :
    ∃ x, e.slot? h.message.target = some x := by
  rw [handled_runRound] at hh
  obtain ⟨w, hw, hh⟩ := List.mem_flatMap.1 hh
  obtain ⟨i, hi⟩ := List.getElem?_of_mem hw
  rw [Array.getElem?_toList] at hi
  have hdue := (prefix_messages_part config round horizon e _).subset (List.mem_map_of_mem hh)
  obtain ⟨_, x, _, _, _, _, hx⟩ := (hc.placed hi).exists_slot (hc.due_owned config horizon hi _ hdue)
  exact ⟨x, hc.slot?_eq_some_iff.2 ⟨i, w, hi, hx⟩⟩

/-- What a unit sends in a round, it sends in response to what it is handed. -/
lemma sent_filter_handled (hc : e.Coherent round) (config : RunConfig) (horizon : SimTime)
    (hx : e.slot? u = some x) :
    ((e.runRound config (round + 1) horizon).2.handled.filter
        (·.message.target = u)).flatMap (·.sent) =
      (x.handleAll (e.setting round horizon)
        ((e.runRound config (round + 1) horizon).2.received u)).2.flatMap (·.sent) := by
  rw [Slot.flatMap_sent, Slot.flatMap_sent, (hc.slot?_runRound config horizon hx).2]

/-- What is sent in a round, some unit sends. -/
lemma mem_sent_iff (hc : e.Coherent round) {y : Envelope P} :
    y ∈ (e.runRound config (round + 1) horizon).2.sent ↔ ∃ u x, e.slot? u = some x ∧
      y ∈ (x.handleAll (e.setting round horizon)
        ((e.runRound config (round + 1) horizon).2.received u)).2.flatMap (·.sent) := by
  constructor
  · intro hy
    obtain ⟨h, hh, hy⟩ := List.mem_flatMap.1 hy
    obtain ⟨x, hx⟩ := hc.exists_slot_of_handled hh
    refine ⟨_, x, hx, ?_⟩
    rw [← hc.sent_filter_handled config horizon hx]
    exact List.mem_flatMap.2 ⟨h, List.mem_filter.2 ⟨hh, by simp⟩, hy⟩
  · rintro ⟨u, x, hx, hy⟩
    rw [← hc.sent_filter_handled config horizon hx] at hy
    obtain ⟨h, hh, hy⟩ := List.mem_flatMap.1 hy
    exact List.mem_flatMap.2 ⟨h, (List.mem_filter.1 hh).1, hy⟩

/-- What is staged after a round is what was sent in it. -/
lemma mem_envelopes_runRound (hc : e.Coherent round) {y : Envelope P} :
    y ∈ (e.runRound config (round + 1) horizon).1.postbox.envelopes (round + 1) ↔
      y ∈ (e.runRound config (round + 1) horizon).2.sent := by
  rw [Postbox.mem_envelopes]
  constructor
  · rintro ⟨i, hy⟩
    exact (hc.of_mem_staged_runRound hy).1
  · intro hy
    obtain ⟨i, hi, ho⟩ := hc.sent_owned y hy
    refine ⟨i, ?_⟩
    rw [hc.staged_runRound hi]
    exact List.mem_filter.2 ⟨hy, by simpa using ho⟩

/-- The messages that have their origin at a unit are those that it sends. -/
lemma filter_accepted (hc : e.Coherent round) (config : RunConfig) (horizon : SimTime) (u : UnitId) :
    (e.runRound config (round + 1) horizon).2.accepted.filter (·.id.origin = u) =
      Envelope.messages (((e.runRound config (round + 1) horizon).2.handled.filter
        (·.message.target = u)).flatMap (·.sent)) := by
  rw [RoundRecord.accepted, RoundRecord.sent, Envelope.messages_flatMap, Envelope.messages_flatMap]
  apply filter_flatMap_of_forall
  intro h hh m hm
  obtain ⟨x, hx⟩ := hc.exists_slot_of_handled hh
  have hmem : m ∈ Envelope.messages ((x.handleAll (e.setting round horizon)
      ((e.runRound config (round + 1) horizon).2.received h.message.target)).2.flatMap
        (·.sent)) := by
    rw [← hc.sent_filter_handled config horizon hx, Envelope.messages_flatMap]
    exact List.mem_flatMap.2 ⟨h, List.mem_filter.2 ⟨hh, by simp⟩, hm⟩
  exact ((Slot.handleAll_advances ..).origin_eq hmem).trans (hc.id_of_slot? hx)

/-- What a unit sends in a round takes its next running numbers. -/
lemma advances (hc : e.Coherent round) (config : RunConfig) (horizon : SimTime)
    (hx : e.slot? u = some x) :
    ∃ x', (e.runRound config (round + 1) horizon).1.slot? u = some x' ∧ x.Advances x'
      ((e.runRound config (round + 1) horizon).2.accepted.filter (·.id.origin = u)) := by
  refine ⟨_, (hc.slot?_runRound config horizon hx).1, ?_⟩
  rw [hc.filter_accepted, (hc.sent_filter_handled config horizon hx)]
  exact Slot.handleAll_advances ..

end Coherent

/-! ### The counts of a round -/

/-- A counter of all workers. -/
def total (f : WorkerStats → Nat) (e : Engine U P) : Nat := (e.workers.toList.map (f ·.stats)).sum

/-- Withdrawals and staged messages are counted whether or not the round fails. -/
lemma counts_runRound (config : RunConfig) (round : Nat) (horizon : SimTime) (e : Engine U P) :
    (e.runRound config (round + 1) horizon).2.removed = (e.withdrawn round).length ∧
      (e.runRound config (round + 1) horizon).2.staged =
        ((e.runRound config (round + 1) horizon).1.postbox.messages (round + 1)).length := by
  refine ⟨?_, Postbox.pendingDeliveries_eq ..⟩
  rw [RoundRecord.removed, (runRound_eq config round horizon e).2.1, List.map_map, withdrawn,
    List.length_flatMap]
  refine congrArg _ (List.map_congr_left fun w _ => ?_)
  exact (Worker.runRound_frame ..).2.2.2.2.2

/-- Without a fault of the round there is no fault of a worker. -/
lemma fault_part_eq_none (hf : (e.runRound config (round + 1) horizon).2.fault = none)
    (hw : w ∈ e.workers.toList) : (e.part config round horizon w).2.fault = none := by
  rw [RoundRecord.fault, (runRound_eq config round horizon e).2.1, List.findSome?_eq_none_iff] at hf
  exact hf _ (List.mem_map_of_mem hw)

/-- Without a fault of the round, nothing that is handed over has failed. -/
lemma failure_eq_none_of_success (hf : (e.runRound config (round + 1) horizon).2.fault = none)
    {h : Handled P} (hh : h ∈ (e.runRound config (round + 1) horizon).2.handled) :
    h.failure = none := by
  rw [handled_runRound] at hh
  obtain ⟨w, hw, hh⟩ := List.mem_flatMap.1 hh
  rw [part, (Worker.runRound_frame ..).2.2.2.2.1] at hh
  exact Worker.failure_eq_none (fault_part_eq_none hf hw) h hh

/-- Without a fault, everything that is due is handed over, worker by worker. -/
lemma handed_of_success (hf : (e.runRound config (round + 1) horizon).2.fault = none) :
    (e.runRound config (round + 1) horizon).2.handled.map (·.message) =
      e.due config horizon round := by
  rw [handled_runRound, List.map_flatMap, due]
  apply List.flatMap_congr
  intro w hw
  have hw' := fault_part_eq_none hf hw
  rw [part, (Worker.runRound_frame ..).2.2.2.2.1]
  exact (Worker.runRound_of_success hw').1

/-- **The counts of a round without fault.** -/
theorem summary_of_success (hf : (e.runRound config (round + 1) horizon).2.fault = none) :
    (e.runRound config (round + 1) horizon).2.summary.delivered =
        (e.due config horizon round).length ∧
      (e.runRound config (round + 1) horizon).2.summary.queued =
        (e.runRound config (round + 1) horizon).1.waiting.length ∧
      (e.runRound config (round + 1) horizon).2.earliest = SimTime.earliest?
        (((e.runRound config (round + 1) horizon).1.waiting ++
          (e.runRound config (round + 1) horizon).1.postbox.messages (round + 1)).map (·.time)) := by
  have hreports := (runRound_eq config round horizon e).2.1
  have hworkers := (runRound_eq config round horizon e).1
  have hpart := fun w (hw : w ∈ e.workers.toList) =>
    Worker.runRound_of_success (fault_part_eq_none hf hw)
  refine ⟨?_, ?_, ?_⟩
  · simp only [RoundRecord.summary, hreports, List.map_map, due, List.length_flatMap]
    exact congrArg _ (List.map_congr_left fun w hw => (hpart w hw).2.1)
  · simp only [RoundRecord.summary, hreports, List.map_map, waiting, hworkers, Array.toList_map,
      List.flatMap_map, List.length_flatMap]
    exact congrArg _ (List.map_congr_left fun w hw => (hpart w hw).2.2.1)
  · have hqueues : SimTime.earliest? ((e.runRound config (round + 1) horizon).2.reports.filterMap
        (·.nextTime)) = SimTime.earliest?
          ((e.runRound config (round + 1) horizon).1.waiting.map (·.time)) := by
      rw [hreports, List.filterMap_map, waiting, hworkers, Array.toList_map, List.flatMap_map,
        List.map_flatMap, ← SimTime.earliest?_filterMap]
      refine congrArg _ (List.filterMap_congr fun w hw => ?_)
      exact (hpart w hw).2.2.2.1.trans (MessageQueue.nextTime_eq _)
    have hstaged : (e.runRound config (round + 1) horizon).2.stagedEarliest = SimTime.earliest?
        (((e.runRound config (round + 1) horizon).1.postbox.messages (round + 1)).map (·.time)) :=
      Postbox.earliest_eq ..
    rw [RoundRecord.earliest, SimTime.earliest?_append, SimTime.earliest?_toList, hqueues, hstaged,
      List.map_append, ← SimTime.earliest?_append]

/-- The counters of the workers after a round without fault. -/
theorem total_of_success (hf : (e.runRound config (round + 1) horizon).2.fault = none) :
    total (·.delivered) (e.runRound config (round + 1) horizon).1 =
        total (·.delivered) e + (e.due config horizon round).length ∧
      total (·.cancelled) (e.runRound config (round + 1) horizon).1 =
        total (·.cancelled) e + (e.withdrawn round).length ∧
      total (·.produced) (e.runRound config (round + 1) horizon).1 =
        total (·.produced) e + (e.runRound config (round + 1) horizon).2.accepted.length := by
  have hpart := fun w (hw : w ∈ e.workers.toList) =>
    Worker.runRound_of_success (fault_part_eq_none hf hw)
  have htotal : ∀ f : WorkerStats → Nat, total f (e.runRound config (round + 1) horizon).1 =
      (e.workers.toList.map fun w => f (e.part config round horizon w).1.stats).sum := fun f => by
    rw [total, (runRound_eq config round horizon e).1, Array.toList_map, List.map_map]
    rfl
  refine ⟨?_, ?_, ?_⟩
  · rw [htotal, total, due, List.length_flatMap, ← List.sum_map_add]
    exact congrArg _ (List.map_congr_left fun w hw => (hpart w hw).2.2.2.2.1)
  · rw [htotal, total, withdrawn, List.length_flatMap, ← List.sum_map_add]
    exact congrArg _ (List.map_congr_left fun w hw => (hpart w hw).2.2.2.2.2.1)
  · rw [htotal, total, RoundRecord.accepted, RoundRecord.sent, handled_runRound, List.flatMap_assoc,
      Envelope.messages_flatMap, List.length_flatMap, ← List.sum_map_add]
    refine congrArg _ (List.map_congr_left fun w hw => ?_)
    rw [part, (Worker.runRound_frame ..).2.2.2.2.1]
    exact (hpart w hw).2.2.2.2.2.2

end Round

end Engine

end EventSim
