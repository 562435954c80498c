import EventSim.Engine.Worker
import EventSim.Proofs.Requests

set_option autoImplicit false

/-!
# What units do with their messages

A worker hands over messages that are addressed to different units, one after another. For each unit by
itself this is the same as if it had been given its own messages only: other units of the worker neither
see them nor are seen. So the course of a unit depends on the unit and on its own messages, and not on who
shares its worker.

## Main definitions

* `EventSim.Slot.call`, `EventSim.Slot.handle`, `EventSim.Slot.handleAll` — a unit by itself.
* `EventSim.Slot.Fails` — the handling of a message fails.
* `EventSim.Slot.Advances` — a unit that has sent messages with its next running numbers.
* `EventSim.Worker.Placed`, `EventSim.Worker.Owns`, `EventSim.Worker.slot?` — where a worker keeps its units.

## Main results

* `EventSim.Slot.handleAll_advances` — running numbers have neither gaps nor repetitions.
* `EventSim.Slot.handleAll_congr` — a unit behaves alike wherever it is placed.
* `EventSim.Worker.deliverAll_unit` — every unit of a worker handles its own messages, and no others.
* `EventSim.Worker.exists_failure_iff` — a worker fails just if one of its units does.
-/

namespace EventSim

variable {U P : Type}

/-! ## Units by themselves -/

/-- Where and when messages are handled. -/
structure Setting where
  /-- The worker that hands them over. -/
  worker : WorkerId
  /-- The units that exist. -/
  table : RoutingTable
  /-- The round. -/
  round : Nat
  /-- Its horizon. -/
  horizon : SimTime

/-- Two settings that a unit cannot tell apart. -/
structure Setting.Alike (s s' : Setting) : Prop where
  /-- The same units exist. -/
  table : s.table.SameUnits s'.table
  /-- The round is the same. -/
  round : s.round = s'.round
  /-- The horizon is the same. -/
  horizon : s.horizon = s'.horizon

namespace Slot

/-- The second state arises from the first by sending messages, each with the next running number. -/
structure Advances (x x' : Slot U) (new : List (Message P)) : Prop where
  /-- The unit stays the same. -/
  id : x'.id = x.id
  /-- Every message takes a running number. -/
  nextSeq : x'.nextSeq = x.nextSeq + new.length
  /-- The running numbers are consecutive. -/
  ids : new.map (·.id) = (List.range' x.nextSeq new.length).map (MessageId.mk x.id)

namespace Advances

variable {x x' x'' : Slot U} {new new' : List (Message P)}

lemma refl (x : Slot U) : x.Advances x ([] : List (Message P)) := ⟨rfl, rfl, rfl⟩

lemma trans (h : x.Advances x' new) (h' : x'.Advances x'' new') : x.Advances x'' (new ++ new') where
  id := h'.id.trans h.id
  nextSeq := by rw [h'.nextSeq, h.nextSeq, List.length_append, Nat.add_assoc]
  ids := by
    rw [List.map_append, h.ids, h'.ids, h.id, h.nextSeq, List.length_append,
      ← List.range'_append_1, List.map_append]

/-- Whatever a unit sends has its origin there. -/
lemma origin_eq (h : x.Advances x' new) {m : Message P} (hm : m ∈ new) : m.id.origin = x.id := by
  have hid := List.mem_map_of_mem (f := fun m : Message P => m.id) hm
  rw [h.ids] at hid
  obtain ⟨n, _, hn⟩ := List.mem_map.1 hid
  exact congrArg MessageId.origin hn.symm

end Advances

variable [Payload P] [SimUnit U P]

/-- The call for a message. -/
def call (s : Setting) (x : Slot U) (m : Message P) : Call U P :=
  (SimUnit.process x.unit m ⟨x.id, m.time, s.horizon, s.round⟩).run
    { view := ⟨x.id, m.time, s.horizon, s.round⟩, table := s.table, nextSeq := x.nextSeq }

/-- The unit after a call, with what came of the message. -/
def handle (s : Setting) (x : Slot U) (m : Message P) : Slot U × Handled P :=
  ({ x with unit := (x.call s m).unit, nextSeq := (x.call s m).context.nextSeq },
    ⟨m, (x.call s m).context.sent.toList, Worker.failure s.worker m (x.call s m)⟩)

/-- The unit after its messages, up to and including the first whose handling fails. -/
def handleAll (s : Setting) : Slot U → List (Message P) → Slot U × List (Handled P)
  | x, [] => (x, [])
  | x, m :: ms =>
    if (x.handle s m).2.failure.isSome then ((x.handle s m).1, [(x.handle s m).2])
    else
      ((handleAll s (x.handle s m).1 ms).1, (x.handle s m).2 :: (handleAll s (x.handle s m).1 ms).2)

variable {s : Setting} {x : Slot U} {m : Message P} {ms : List (Message P)}

lemma handleAll_cons_of_failure (h : (x.handle s m).2.failure.isSome) :
    x.handleAll s (m :: ms) = ((x.handle s m).1, [(x.handle s m).2]) := if_pos h

lemma handleAll_cons_of_success (h : ¬ (x.handle s m).2.failure.isSome) :
    x.handleAll s (m :: ms) = ((handleAll s (x.handle s m).1 ms).1,
      (x.handle s m).2 :: (handleAll s (x.handle s m).1 ms).2) := if_neg h

@[simp] lemma handle_message : (x.handle s m).2.message = m := rfl

/-- A call only sends. -/
lemma handle_sends (s : Setting) (x : Slot U) (m : Message P) :
    Context.Sends { view := ⟨x.id, m.time, s.horizon, s.round⟩, table := s.table, nextSeq := x.nextSeq }
      (x.call s m).context (x.handle s m).2.sent := by
  obtain ⟨new, hnew⟩ := Script.run_sends (SimUnit.process x.unit m ⟨x.id, m.time, s.horizon, s.round⟩)
    { view := ⟨x.id, m.time, s.horizon, s.round⟩, table := s.table, nextSeq := x.nextSeq }
  have hsent : (x.handle s m).2.sent = new := hnew.sent
  rw [hsent]
  exact hnew

lemma handle_advances (s : Setting) (x : Slot U) (m : Message P) :
    x.Advances (x.handle s m).1 (Envelope.messages (x.handle s m).2.sent) :=
  ⟨rfl, (handle_sends s x m).nextSeq, (handle_sends s x m).ids⟩

/-- **Running numbers have neither gaps nor repetitions.** -/
theorem handleAll_advances (s : Setting) (x : Slot U) (ms : List (Message P)) :
    x.Advances (x.handleAll s ms).1 (Envelope.messages ((x.handleAll s ms).2.flatMap (·.sent))) := by
  induction ms generalizing x with
  | nil => exact .refl x
  | cons m ms ih =>
    by_cases hf : (x.handle s m).2.failure.isSome
    · rw [handleAll_cons_of_failure hf, List.flatMap_singleton]
      exact handle_advances s x m
    · rw [handleAll_cons_of_success hf, List.flatMap_cons, Envelope.messages_append]
      exact (handle_advances s x m).trans (ih _)

/-- One of the messages fails. -/
def Fails (s : Setting) (x : Slot U) (ms : List (Message P)) : Prop :=
  ∃ h ∈ (x.handleAll s ms).2, h.failure.isSome

/-- After a failure further messages change nothing. -/
lemma handleAll_append_of_failure {ns : List (Message P)} (h : x.Fails s ms) :
    x.handleAll s (ms ++ ns) = x.handleAll s ms := by
  induction ms generalizing x with
  | nil => simp [Fails, handleAll] at h
  | cons m ms ih =>
    by_cases hf : (x.handle s m).2.failure.isSome
    · rw [List.cons_append, handleAll_cons_of_failure hf, handleAll_cons_of_failure hf]
    · rw [Fails, handleAll_cons_of_success hf] at h
      have hrest : (x.handle s m).1.Fails s ms := by
        obtain ⟨h, hmem, hfail⟩ := h
        rcases List.mem_cons.1 hmem with rfl | hmem
        · exact absurd hfail hf
        · exact ⟨h, hmem, hfail⟩
      rw [List.cons_append, handleAll_cons_of_success hf, handleAll_cons_of_success hf, ih hrest]

/-- Without a failure messages are handled one part after another. -/
lemma handleAll_append_of_success {ns : List (Message P)} (h : ¬ x.Fails s ms) :
    x.handleAll s (ms ++ ns) = (((x.handleAll s ms).1.handleAll s ns).1,
      (x.handleAll s ms).2 ++ ((x.handleAll s ms).1.handleAll s ns).2) := by
  induction ms generalizing x with
  | nil => rfl
  | cons m ms ih =>
    have hf : ¬ (x.handle s m).2.failure.isSome := fun hf => h
      ⟨_, by rw [handleAll_cons_of_failure hf]; exact List.mem_cons_self, hf⟩
    have hrest : ¬ (x.handle s m).1.Fails s ms := by
      rintro ⟨g, hg, hfail⟩
      refine h ⟨g, ?_, hfail⟩
      rw [handleAll_cons_of_success hf]
      exact List.mem_cons_of_mem _ hg
    rw [List.cons_append, handleAll_cons_of_success hf, handleAll_cons_of_success hf, ih hrest]
    rfl

/-! ### Units in another place -/

/-- What can be seen of a handled message apart from the text of its failure. -/
def outline (h : Handled P) : Message P × List (Envelope P) × Bool :=
  (h.message, h.sent, h.failure.isSome)

omit [Payload P] [SimUnit U P] in
/-- What was sent can be seen. -/
lemma flatMap_sent (hs : List (Handled P)) :
    hs.flatMap (·.sent) = (hs.map outline).flatMap (·.2.1) := by
  rw [List.flatMap_map]
  rfl

/-- A call is the same in settings that a unit cannot tell apart. -/
lemma call_congr {s' : Setting} (hs : s.Alike s') :
    x.call s m = (x.call s' m).withTable s.table := by
  have hrun := Script.run_withTable
    (SimUnit.process x.unit m ⟨x.id, m.time, s.horizon, s.round⟩)
    (c := { view := ⟨x.id, m.time, s.horizon, s.round⟩, table := s'.table, nextSeq := x.nextSeq })
    hs.table
  rw [call, call, ← hs.round, ← hs.horizon]
  exact hrun

omit [SimUnit U P] in
/-- Whether a call has failed does not depend on the worker. -/
lemma isSome_failure_congr (w w' : WorkerId) (m : Message P) (k : Call U P) (t : RoutingTable) :
    (Worker.failure w m (k.withTable t)).isSome = (Worker.failure w' m k).isSome := by
  unfold Worker.failure Call.fault Call.withTable
  cases k.ending with
  | completed => cases h : k.context.fault <;> simp [Context.withTable, h]
  | failed e => rfl
  | crashed c => rfl

lemma handle_congr {s' : Setting} (hs : s.Alike s') :
    (x.handle s m).1 = (x.handle s' m).1 ∧ outline (x.handle s m).2 = outline (x.handle s' m).2 := by
  have hcall := call_congr (x := x) (m := m) hs
  refine ⟨?_, ?_⟩
  · simp only [handle, hcall]
    rfl
  · simp only [handle, outline, hcall, isSome_failure_congr s.worker s'.worker]
    rfl

/-- **A unit behaves alike wherever it is placed.** -/
theorem handleAll_congr {s' : Setting} (hs : s.Alike s') (x : Slot U) (ms : List (Message P)) :
    (x.handleAll s ms).1 = (x.handleAll s' ms).1 ∧
      (x.handleAll s ms).2.map outline = (x.handleAll s' ms).2.map outline := by
  induction ms generalizing x with
  | nil => exact ⟨rfl, rfl⟩
  | cons m ms ih =>
    obtain ⟨hslot, hout⟩ := handle_congr (x := x) (m := m) hs
    have hfail : (x.handle s m).2.failure.isSome = (x.handle s' m).2.failure.isSome :=
      congrArg (·.2.2) hout
    by_cases hf : (x.handle s m).2.failure.isSome
    · rw [handleAll_cons_of_failure hf, handleAll_cons_of_failure (hfail ▸ hf)]
      exact ⟨hslot, congrArg ([·]) hout⟩
    · rw [handleAll_cons_of_success hf, handleAll_cons_of_success (hfail ▸ hf), ← hslot]
      obtain ⟨hslot', hout'⟩ := ih (x.handle s m).1
      exact ⟨hslot', by rw [List.map_cons, List.map_cons, hout, hout']⟩

/-- Whether a message fails is the same in settings that a unit cannot tell apart. -/
lemma fails_congr {s' : Setting} (hs : s.Alike s') : x.Fails s ms ↔ x.Fails s' ms := by
  have hout : ∀ s, x.Fails s ms ↔ ∃ o ∈ (x.handleAll s ms).2.map outline, o.2.2 := fun s => by
    simp [Fails, outline]
  rw [hout, hout, (handleAll_congr hs x ms).2]

end Slot

/-! ## Units of a worker -/

namespace Worker

/-- The worker keeps its units where the routing table says. -/
structure Placed (table : RoutingTable) (w : Worker U P) : Prop where
  /-- Every unit of the worker has a route to its place. -/
  route_of_slot : ∀ k x, w.slots[k]? = some x → table.route? x.id = some ⟨w.id, k⟩
  /-- Every route to the worker leads to a unit. -/
  slot_of_route : ∀ u r, table.route? u = some r → r.worker = w.id →
    ∃ x, w.slots[r.slot]? = some x ∧ x.id = u

/-- The worker has the unit with the given number. -/
def Owns (table : RoutingTable) (w : Worker U P) (u : UnitId) : Prop :=
  ∃ r, table.route? u = some r ∧ r.worker = w.id

/-- The unit with the given number, if the worker has it. -/
def slot? (table : RoutingTable) (w : Worker U P) (u : UnitId) : Option (Slot U) :=
  (table.route? u).bind fun r => if r.worker = w.id then w.slots[r.slot]? else none

section Deliver

variable [Payload P] [SimUnit U P] {table : RoutingTable} {round : Nat} {horizon : SimTime}
  {w : Worker U P} {u : UnitId} {x : Slot U} {m : Message P} {ms : List (Message P)}

/-- The setting in which a worker hands over messages. -/
def setting (table : RoutingTable) (round : Nat) (horizon : SimTime) (w : Worker U P) : Setting :=
  ⟨w.id, table, round, horizon⟩

/-- The worker after one of its units has handled a message. -/
def replace (w : Worker U P) (k : Nat) (x : Slot U) (produced : Nat) : Worker U P :=
  { w with
    slots := w.slots.setIfInBounds k x
    stats := { w.stats with produced := w.stats.produced + produced } }

/-- A message for a place of the worker is handled by the unit there. -/
lemma deliver_of_slot {r : Route} (hr : table.route? m.target = some r)
    (hx : w.slots[r.slot]? = some x) : w.deliver table round horizon m =
      (w.replace r.slot (x.handle (w.setting table round horizon) m).1
          (Envelope.messages (x.handle (w.setting table round horizon) m).2.sent).length,
        (x.handle (w.setting table round horizon) m).2) := by
  have hcount : (x.call (w.setting table round horizon) m).context.produced =
      (Envelope.messages (x.handle (w.setting table round horizon) m).2.sent).length :=
    (Slot.handle_sends (w.setting table round horizon) x m).produced.trans (Nat.zero_add _)
  rw [← hcount]
  simp only [deliver, hr, Option.bind_some, hx, Option.map_some]
  rfl

/-- A message for no place of the worker is not handled. -/
lemma deliver_of_none (h : ((table.route? m.target).bind fun r => w.slots[r.slot]?) = none) :
    w.deliver table round horizon m = (w, ⟨m, [], some (.reported (.unknownUnit m.target))⟩) := by
  unfold deliver
  cases hr : table.route? m.target with
  | none => rfl
  | some r =>
    rw [hr, Option.bind_some] at h
    simp [h]

/-- Handing over a message either finds no unit or lets one unit handle it. -/
lemma deliver_cases (table : RoutingTable) (round : Nat) (horizon : SimTime) (w : Worker U P)
    (m : Message P) :
    w.deliver table round horizon m = (w, ⟨m, [], some (.reported (.unknownUnit m.target))⟩) ∨
      ∃ k x, w.slots[k]? = some x ∧ w.deliver table round horizon m =
        (w.replace k (x.handle (w.setting table round horizon) m).1
            (Envelope.messages (x.handle (w.setting table round horizon) m).2.sent).length,
          (x.handle (w.setting table round horizon) m).2) := by
  cases h : (table.route? m.target).bind fun r => w.slots[r.slot]? with
  | none => exact Or.inl (deliver_of_none h)
  | some x =>
    obtain ⟨r, hr, hx⟩ := Option.bind_eq_some_iff.1 h
    exact Or.inr ⟨r.slot, x, hx, deliver_of_slot hr hx⟩

lemma deliverAll_cons (m : Message P) (ms : List (Message P)) :
    w.deliverAll table round horizon (m :: ms) =
      if (w.deliver table round horizon m).2.failure.isSome then
        ((w.deliver table round horizon m).1, [(w.deliver table round horizon m).2])
      else
        (((w.deliver table round horizon m).1.deliverAll table round horizon ms).1,
          (w.deliver table round horizon m).2 ::
            ((w.deliver table round horizon m).1.deliverAll table round horizon ms).2) := rfl

/-! ### All units of a worker -/

/-- Handing over one message leaves number and queue alone, and counts what is sent. -/
lemma deliver_frame (table : RoutingTable) (round : Nat) (horizon : SimTime) (w : Worker U P)
    (m : Message P) :
    (w.deliver table round horizon m).1.id = w.id ∧
      (w.deliver table round horizon m).1.queue = w.queue ∧
      (w.deliver table round horizon m).1.stats = { w.stats with
        produced := w.stats.produced +
          (Envelope.messages (w.deliver table round horizon m).2.sent).length } ∧
      (w.deliver table round horizon m).2.message = m := by
  rcases deliver_cases table round horizon w m with h | ⟨k, x, _, h⟩ <;> rw [h]
  · exact ⟨rfl, rfl, rfl, rfl⟩
  · exact ⟨rfl, rfl, rfl, rfl⟩

/-- Handing over messages leaves number and queue alone, and counts what is sent. -/
lemma deliverAll_frame (table : RoutingTable) (round : Nat) (horizon : SimTime) (w : Worker U P)
    (ms : List (Message P)) :
    (w.deliverAll table round horizon ms).1.id = w.id ∧
      (w.deliverAll table round horizon ms).1.queue = w.queue ∧
      (w.deliverAll table round horizon ms).1.stats = { w.stats with
        produced := w.stats.produced + (Envelope.messages
          ((w.deliverAll table round horizon ms).2.flatMap (·.sent))).length } := by
  induction ms generalizing w with
  | nil => exact ⟨rfl, rfl, rfl⟩
  | cons m ms ih =>
    obtain ⟨hid, hqueue, hstats, _⟩ := deliver_frame table round horizon w m
    obtain ⟨hid', hqueue', hstats'⟩ := ih (w.deliver table round horizon m).1
    rw [deliverAll_cons]
    split
    · simp only [List.flatMap_singleton]
      exact ⟨hid, hqueue, hstats⟩
    · refine ⟨hid'.trans hid, hqueue'.trans hqueue, hstats'.trans ?_⟩
      simp only [hstats, List.flatMap_cons, Envelope.messages_append, List.length_append,
        Nat.add_assoc]

/-- Messages are handed over in order. -/
lemma prefix_messages_deliverAll (table : RoutingTable) (round : Nat) (horizon : SimTime)
    (w : Worker U P) (ms : List (Message P)) :
    (w.deliverAll table round horizon ms).2.map (·.message) <+: ms := by
  induction ms generalizing w with
  | nil => exact List.nil_prefix
  | cons m ms ih =>
    have hm := (deliver_frame table round horizon w m).2.2.2
    rw [deliverAll_cons]
    split
    · exact List.cons_prefix_cons.2 ⟨hm, List.nil_prefix⟩
    · exact List.cons_prefix_cons.2 ⟨hm, ih _⟩

/-- All messages are handed over if none fails. -/
lemma messages_deliverAll (hs : ∀ h ∈ (w.deliverAll table round horizon ms).2, h.failure = none) :
    (w.deliverAll table round horizon ms).2.map (·.message) = ms := by
  induction ms generalizing w with
  | nil => rfl
  | cons m ms ih =>
    have hm := (deliver_frame table round horizon w m).2.2.2
    rw [deliverAll_cons] at hs ⊢
    split at hs
    · rename_i hf
      rw [hs _ (List.mem_singleton_self _)] at hf
      simp at hf
    · rename_i hf
      rw [if_neg hf, List.map_cons, hm, ih fun h hh => hs h (List.mem_cons_of_mem _ hh)]

/-- Nothing that is sent in a round is earlier than its horizon, and all targets exist. -/
lemma sent_deliverAll (table : RoutingTable) (round : Nat) (horizon : SimTime) (w : Worker U P)
    (ms : List (Message P)) : ∀ h ∈ (w.deliverAll table round horizon ms).2,
      (∀ m ∈ Envelope.messages h.sent, horizon ≤ m.time) ∧
        ∀ e ∈ h.sent, (table.route? e.target).isSome := by
  have hone : ∀ (w : Worker U P) m,
      (∀ n ∈ Envelope.messages (w.deliver table round horizon m).2.sent, horizon ≤ n.time) ∧
        ∀ e ∈ (w.deliver table round horizon m).2.sent, (table.route? e.target).isSome := by
    intro w m
    rcases deliver_cases table round horizon w m with h | ⟨k, x, _, h⟩ <;> rw [h]
    · simp
    · have hsends := Slot.handle_sends (w.setting table round horizon) x m
      exact ⟨hsends.horizon_le, hsends.routed⟩
  induction ms generalizing w with
  | nil => simp [deliverAll]
  | cons m ms ih =>
    rw [deliverAll_cons]
    intro h hh
    split at hh
    · rw [List.mem_singleton.1 hh]
      exact hone w m
    · rcases List.mem_cons.1 hh with rfl | hh
      · exact hone w m
      · exact ih _ h hh

/-- A worker hands over all messages in one setting. -/
lemma setting_deliver (w : Worker U P) (m : Message P) :
    (w.deliver table round horizon m).1.setting table round horizon = w.setting table round horizon := by
  rw [setting, (deliver_frame table round horizon w m).1, setting]

/-- A worker has the same units when one of them has handled a message. -/
lemma Owns.deliver (ho : w.Owns table u) (m : Message P) : (w.deliver table round horizon m).1.Owns table u := by
  obtain ⟨r, hr, hw⟩ := ho
  exact ⟨r, hr, hw.trans (deliver_frame table round horizon w m).1.symm⟩

/-! ### Each unit of a worker -/

omit [Payload P] [SimUnit U P] in
/-- A worker has each of the units that it owns. -/
lemma Placed.exists_slot (hp : w.Placed table) (ho : w.Owns table u) :
    ∃ r x, table.route? u = some r ∧ r.worker = w.id ∧ w.slots[r.slot]? = some x ∧ x.id = u ∧
      w.slot? table u = some x := by
  obtain ⟨r, hr, hw⟩ := ho
  obtain ⟨x, hx, hid⟩ := hp.slot_of_route u r hr hw
  exact ⟨r, x, hr, hw, hx, hid, by simp [slot?, hr, hw, hx]⟩

omit [Payload P] [SimUnit U P] in
/-- A unit of the worker has a route, and a place. -/
lemma slot?_eq_some_iff : w.slot? table u = some x ↔
    ∃ r, table.route? u = some r ∧ r.worker = w.id ∧ w.slots[r.slot]? = some x := by
  unfold slot?
  rw [Option.bind_eq_some_iff]
  refine exists_congr fun r => and_congr_right fun _ => ?_
  split <;> simp_all

omit [Payload P] [SimUnit U P] in
lemma Placed.id_of_slot? (hp : w.Placed table) (hx : w.slot? table u = some x) : x.id = u := by
  obtain ⟨r, hr, hw, hx⟩ := slot?_eq_some_iff.1 hx
  obtain ⟨y, hy, hid⟩ := hp.slot_of_route u r hr hw
  cases hy.symm.trans hx
  exact hid

omit [Payload P] [SimUnit U P] in
/-- Units keep their places when one of them changes its state. -/
lemma Placed.replace (hp : w.Placed table) {k n : Nat} {x' : Slot U} (hx : w.slots[k]? = some x)
    (hid : x'.id = x.id) : (w.replace k x' n).Placed table where
  route_of_slot j y hy := by
    simp only [Worker.replace, Array.getElem?_setIfInBounds] at hy
    split at hy
    · rename_i hkj
      split at hy
      · cases hy
        rw [hid, ← hkj]
        exact hp.route_of_slot k x hx
      · cases hy
    · exact hp.route_of_slot j y hy
  slot_of_route u r hr hw := by
    obtain ⟨y, hy, hyu⟩ := hp.slot_of_route u r hr hw
    have hlt := (Array.getElem?_eq_some_iff.1 hx).1
    simp only [Worker.replace, Array.getElem?_setIfInBounds]
    by_cases hkr : k = r.slot
    · subst hkr
      cases hy.symm.trans hx
      exact ⟨x', by simp [hlt], hid.trans hyu⟩
    · exact ⟨y, by simp [hkr, hy], hyu⟩

/-- A message for a unit of the worker changes that unit, and no other. -/
lemma slot?_deliver (round : Nat) (horizon : SimTime) (hp : w.Placed table)
    (ho : w.Owns table m.target) :
    (w.deliver table round horizon m).1.Placed table ∧
      ∃ x, w.slot? table m.target = some x ∧
        (w.deliver table round horizon m).2 = (x.handle (w.setting table round horizon) m).2 ∧
        (w.deliver table round horizon m).1.slot? table m.target =
          some (x.handle (w.setting table round horizon) m).1 ∧
        ∀ v, v ≠ m.target →
          (w.deliver table round horizon m).1.slot? table v = w.slot? table v := by
  obtain ⟨r, x, hr, hw, hx, hid, hslot⟩ := hp.exists_slot ho
  have hlt := (Array.getElem?_eq_some_iff.1 hx).1
  rw [deliver_of_slot hr hx]
  refine ⟨hp.replace hx rfl, x, hslot, rfl, ?_, fun v hv => ?_⟩
  · exact slot?_eq_some_iff.2 ⟨r, hr, hw, by simp [replace, hlt]⟩
  · unfold slot?
    apply Option.bind_congr
    intro r' hr'
    by_cases hw' : r'.worker = w.id
    · -- another unit of the same worker has another place
      have hne : r.slot ≠ r'.slot := by
        intro heq
        obtain ⟨y, hy, hyv⟩ := hp.slot_of_route v r' hr' hw'
        rw [← heq, hx] at hy
        cases hy
        exact hv (hyv.symm.trans hid)
      have hget : (w.slots.setIfInBounds r.slot
          (x.handle (w.setting table round horizon) m).1)[r'.slot]? = w.slots[r'.slot]? :=
        Array.getElem?_setIfInBounds_ne hne
      simp only [replace, hget]
    · simp [replace, hw']

/-- **Every unit of a worker handles its own messages, and no others.**

**Proof sketch.** Induction on the messages. The first one changes its target as `Slot.handle` says and
leaves the other units alone; the rest is the induction hypothesis for the changed worker. -/
theorem deliverAll_unit (round : Nat) (horizon : SimTime) (hp : w.Placed table)
    (ho : ∀ m ∈ ms, w.Owns table m.target) :
    (w.deliverAll table round horizon ms).1.Placed table ∧
      ∀ u x, w.slot? table u = some x →
        (w.deliverAll table round horizon ms).1.slot? table u =
            some (x.handleAll (w.setting table round horizon)
              (((w.deliverAll table round horizon ms).2.map (·.message)).filter (·.target = u))).1 ∧
          (w.deliverAll table round horizon ms).2.filter (·.message.target = u) =
            (x.handleAll (w.setting table round horizon)
              (((w.deliverAll table round horizon ms).2.map (·.message)).filter (·.target = u))).2 := by
  induction ms generalizing w with
  | nil => exact ⟨hp, fun u x hx => ⟨hx, rfl⟩⟩
  | cons m ms ih =>
    obtain ⟨hp', y, hy, hout, hself, hother⟩ := slot?_deliver round horizon hp
      (ho m List.mem_cons_self)
    obtain ⟨_, _, _, hmsg⟩ := deliver_frame table round horizon w m
    obtain ⟨hp'', hrest⟩ := ih hp' fun n hn => (ho n (List.mem_cons_of_mem _ hn)).deliver m
    rw [setting_deliver] at hrest
    rw [deliverAll_cons]
    by_cases hf : (w.deliver table round horizon m).2.failure.isSome
    · rw [if_pos hf]
      refine ⟨hp', fun u x hx => ?_⟩
      rw [List.map_singleton, hmsg]
      by_cases hu : m.target = u
      · subst hu
        cases hy.symm.trans hx
        rw [hout] at hf
        simp [Slot.handleAll_cons_of_failure hf, hself, hout]
      · simp [hu, hmsg, Slot.handleAll, hother u (Ne.symm hu), hx]
    · rw [if_neg hf]
      refine ⟨hp'', fun u x hx => ?_⟩
      rw [List.map_cons, hmsg]
      by_cases hu : m.target = u
      · subst hu
        cases hy.symm.trans hx
        obtain ⟨hslot, hfilter⟩ := hrest _ _ hself
        rw [hout] at hf
        rw [List.filter_cons_of_pos (by simp), List.filter_cons_of_pos (by simp [hmsg]),
          Slot.handleAll_cons_of_success hf, hout]
        exact ⟨hslot, congrArg _ hfilter⟩
      · obtain ⟨hslot, hfilter⟩ := hrest u x ((hother u (Ne.symm hu)).trans hx)
        rw [List.filter_cons_of_neg (by simpa using hu),
          List.filter_cons_of_neg (by simpa [hmsg] using hu)]
        exact ⟨hslot, hfilter⟩

/-- **A worker fails just if one of its units does**, given the messages of that unit alone. -/
theorem exists_failure_iff (hp : w.Placed table) (ho : ∀ m ∈ ms, w.Owns table m.target) :
    (∃ h ∈ (w.deliverAll table round horizon ms).2, h.failure.isSome) ↔
      ∃ u x, w.slot? table u = some x ∧
        x.Fails (w.setting table round horizon) (ms.filter (·.target = u)) := by
  obtain ⟨_, hunit⟩ := deliverAll_unit round horizon hp ho
  constructor
  · rintro ⟨h, hh, hfail⟩
    have hmem : h.message ∈ ms := (prefix_messages_deliverAll table round horizon w ms).subset
      (List.mem_map_of_mem hh)
    obtain ⟨r, x, _, _, _, _, hx⟩ := hp.exists_slot (ho _ hmem)
    have hin : h ∈ (x.handleAll (w.setting table round horizon)
        (((w.deliverAll table round horizon ms).2.map (·.message)).filter
          (·.target = h.message.target))).2 := by
      rw [← (hunit _ x hx).2]
      exact List.mem_filter.2 ⟨hh, by simp⟩
    -- the messages of the unit that were handed over come first among all of its messages
    obtain ⟨rest, hrest⟩ := (prefix_messages_deliverAll table round horizon w ms).filter
      (·.target = h.message.target)
    refine ⟨_, x, hx, h, ?_, hfail⟩
    rw [← hrest, Slot.handleAll_append_of_failure ⟨h, hin, hfail⟩]
    exact hin
  · rintro ⟨u, x, hx, h, hh, hfail⟩
    by_contra hnone
    have hall : ∀ h ∈ (w.deliverAll table round horizon ms).2, h.failure = none := fun h hh => by
      by_contra hne
      exact hnone ⟨h, hh, Option.isSome_iff_ne_none.2 hne⟩
    have hfilter := (hunit u x hx).2
    rw [messages_deliverAll hall] at hfilter
    rw [← hfilter] at hh
    exact hnone ⟨h, (List.mem_filter.1 hh).1, hfail⟩

end Deliver

end Worker

end EventSim
