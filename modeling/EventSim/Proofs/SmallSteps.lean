import EventSim.Proofs.EngineRound

set_option autoImplicit false

/-!
# A worker in small steps

A worker does its part of a round step by step: it takes out what is staged for it, opens a call for each
message that is due, carries out the requests of the call one after another, and reports. Whatever a unit
sends is posted at once, so that between two steps of a worker other workers may post as well. A step reads
nothing of what others do, and so the worker comes to the same end as if it went on alone.

## Main definitions

* `EventSim.Script.advance` — one request of a call.
* `EventSim.Thread` — a worker in the course of a round.
* `EventSim.Thread.step` — its next step.
* `EventSim.Thread.finish` — what becomes of a worker that goes on alone.

## Main results

* `EventSim.Thread.steps_step` — what every step of a worker is like.
* `EventSim.Thread.acc_follows` — a worker reports in the end, whatever happens between its steps.
-/

namespace EventSim

variable {U P : Type}

/-! ## Calls -/

/-- Carries out the next request of a script, or ends the call. -/
def Script.advance [Payload P] : Script U P → Context P → Script U P × Context P ⊕ Call U P
  | .stop unit ending, c => .inr ⟨unit, ending, c⟩
  | .schedule unit target time payload next, c =>
    match c.schedule target time payload with
    | .error crash => .inr ⟨unit, .crashed crash, c⟩
    | .ok (reply, c) => .inl (next reply, c)
  | .unschedule handle next, c => .inl (next (c.unschedule handle).1, (c.unschedule handle).2)
  | .takeFault next, c => .inl (next c.takeFault.1, c.takeFault.2)
  | .counts next, c => .inl (next c.produced c.cancelled, c)

namespace Script

variable [Payload P] {s s' : Script U P} {c c' : Context P}

/-- To carry out a script is to carry out its next request, and then the rest. -/
lemma run_eq_advance (s : Script U P) (c : Context P) : s.run c = (s.advance c).elim (fun r => r.1.run r.2) id := by
  cases s with
  | stop unit ending => rfl
  | schedule unit target time payload next =>
    rw [run, advance]
    cases c.schedule target time payload <;> rfl
  | unschedule handle next => rfl
  | takeFault next => rfl
  | counts next => rfl

/-- A call that goes on comes to the same end. -/
lemma run_of_advance (h : s.advance c = .inl (s', c')) : s.run c = s'.run c' := by
  rw [run_eq_advance, h]
  rfl

/-- A call that is over has come to its end. -/
lemma run_of_advance_eq_inr {result : Call U P} (h : s.advance c = .inr result) :
    s.run c = result ∧ result.context = c := by
  refine ⟨by rw [run_eq_advance, h]; rfl, ?_⟩
  cases s with
  | stop unit ending => cases h; rfl
  | schedule unit target time payload next =>
    rw [advance] at h
    split at h <;> cases h
    rfl
  | unschedule handle next => cases h
  | takeFault next => cases h
  | counts next => cases h

/-- A request only sends. -/
lemma exists_sends_of_advance (h : s.advance c = .inl (s', c')) : ∃ new, c.Sends c' new := by
  cases s with
  | stop unit ending => cases h
  | schedule unit target time payload next =>
    rw [advance] at h
    split at h <;> cases h
    rename_i hschedule
    exact Context.sends_schedule hschedule
  | unschedule handle next => cases h; exact c.sends_unschedule handle
  | takeFault next => cases h; exact ⟨[], c.sends_takeFault⟩
  | counts next => cases h; exact ⟨[], .refl c⟩

/-- **A call comes to an end**, whatever the replies are. -/
theorem acc_advance (s : Script U P) :
    Acc (fun s' s => ∃ c c' : Context P, s.advance c = .inl (s', c')) s := by
  induction s with
  | stop unit ending =>
    refine Acc.intro _ ?_
    rintro s' ⟨c, c', h⟩
    cases h
  | schedule unit target time payload next ih =>
    refine Acc.intro _ ?_
    rintro s' ⟨c, c', h⟩
    rw [advance] at h
    split at h <;> cases h
    exact ih _
  | unschedule handle next ih =>
    refine Acc.intro _ ?_
    rintro s' ⟨c, c', h⟩
    cases h
    exact ih _
  | takeFault next ih =>
    refine Acc.intro _ ?_
    rintro s' ⟨c, c', h⟩
    cases h
    exact ih _
  | counts next ih =>
    refine Acc.intro _ ?_
    rintro s' ⟨c, c', h⟩
    cases h
    exact ih _ _

end Script

/-! ## Workers at work -/

/-- A call that is under way. -/
structure OpenCall (U P : Type) where
  /-- The place of the unit among those of its worker. -/
  place : Nat
  /-- The unit, as it was before the call. -/
  slot : Slot U
  /-- The message in hand. -/
  message : Message P
  /-- What the unit is still to do. -/
  script : Script U P
  /-- What it has requested so far. -/
  context : Context P

/-- What a worker is doing in a round. -/
inductive Activity (U P : Type) where
  /-- It has been released, and has not begun. -/
  | idle
  /-- It has these messages still to hand over. -/
  | draining (batch : List (Message P))
  /-- It waits for a unit to finish a call. -/
  | calling (call : OpenCall U P) (batch : List (Message P))
  /-- It has reported. -/
  | arrived (report : Report P)

/-- A worker in the course of a round. -/
structure Thread (U P : Type) where
  /-- The worker. -/
  worker : Worker U P
  /-- Withdrawals that removed a message. -/
  removed : Nat := 0
  /-- The messages that have been handed over, in order. -/
  handled : List (Handled P) := []
  /-- What the worker is doing. -/
  activity : Activity U P := .idle

/-- A worker takes out what was staged for it in the given round. -/
def Postbox.takeOut (b : Postbox P) (worker : WorkerId) (round : Nat) : List (Envelope P) × Postbox P :=
  (b.staged worker.index round, { b with inboxes := b.inboxes.modify worker.index (·.clear round) })

/-- A worker that takes out something empties its own slot. -/
lemma Postbox.staged_takeOut (b : Postbox P) (worker : WorkerId) (round i round' : Nat) :
    (b.takeOut worker round).2.staged i round' =
      if i = worker.index ∧ round' % 2 = round % 2 then [] else b.staged i round' := by
  simp only [takeOut, staged, Array.getElem?_modify]
  by_cases hi : worker.index = i
  · rw [if_pos hi]
    cases b.inboxes[i]? with
    | none => simp
    | some x =>
      by_cases hr : round' % 2 = round % 2 <;> simp [Inbox.slot_clear, hi, hr]
  · rw [if_neg hi, if_neg fun h => hi h.1.symm]

section Workers

variable [Payload P] [SimUnit U P]

namespace Worker

/-- Begins the call for a message, if its target has a place at the worker. -/
def openCall? (table : RoutingTable) (round : Nat) (horizon : SimTime) (w : Worker U P) (m : Message P) :
    Option (OpenCall U P) :=
  ((table.route? m.target).bind fun r => (w.slots[r.slot]?).map fun s => (r.slot, s)).map fun (i, s) =>
    ⟨i, s, m, SimUnit.process s.unit m ⟨s.id, m.time, horizon, round⟩,
      { view := ⟨s.id, m.time, horizon, round⟩, table, nextSeq := s.nextSeq }⟩

/-- Ends a call. -/
def closeCall (w : Worker U P) (call : OpenCall U P) (result : Call U P) : Worker U P × Handled P :=
  ({ w with
      slots := w.slots.setIfInBounds call.place
        { call.slot with unit := result.unit, nextSeq := result.context.nextSeq }
      stats := { w.stats with produced := w.stats.produced + result.context.produced } },
    ⟨call.message, result.context.sent.toList, failure w.id call.message result⟩)

/-- Ends the worker's part of a round with its report. -/
def conclude (w : Worker U P) (removed : Nat) (handled : List (Handled P)) : Worker U P × Report P :=
  let delivered : Nat := handled.countP fun h => h.failure.isNone
  match handled.findSome? Handled.failure with
  | some (.undescribed c) =>
    (w, ⟨w.id, handled, removed, 0, 0, none, some (Failure.error w.id (.undescribed c))⟩)
  | failure =>
    (w.tally delivered,
      ⟨w.id, handled, removed, delivered, w.queue.size, w.queue.nextTime,
        failure.map (Failure.error w.id)⟩)

/-- Hands over the rest of a batch and reports. -/
def proceed (table : RoutingTable) (round : Nat) (horizon : SimTime) (w : Worker U P) (removed : Nat)
    (handled : List (Handled P)) (batch : List (Message P)) : Worker U P × Report P :=
  (w.deliverAll table round horizon batch).1.conclude removed
    (handled ++ (w.deliverAll table round horizon batch).2)

variable {table : RoutingTable} {round : Nat} {horizon : SimTime} {w : Worker U P} {m : Message P}

omit [Payload P] in
/-- Nothing has been sent when a call begins. -/
lemma sent_of_openCall? {call : OpenCall U P} (h : w.openCall? table round horizon m = some call) :
    call.context.sent = #[] := by
  obtain ⟨_, _, rfl⟩ := Option.map_eq_some_iff.1 h
  rfl

/-- To hand a message to its unit is to begin a call, to carry it out and to end it. -/
lemma deliver_eq_closeCall (table : RoutingTable) (round : Nat) (horizon : SimTime) (w : Worker U P)
    (m : Message P) : w.deliver table round horizon m = match w.openCall? table round horizon m with
      | none => (w, ⟨m, [], some (.reported (.unknownUnit m.target))⟩)
      | some call => w.closeCall call (call.script.run call.context) := by
  unfold deliver openCall?
  cases (table.route? m.target).bind fun r => (w.slots[r.slot]?).map fun s => (r.slot, s) with
  | none => rfl
  | some p => rfl

/-- The worker's part of a round ends with its report. -/
lemma runRound_eq_conclude (config : RunConfig) (table : RoutingTable) (round : Nat) (horizon : SimTime)
    (staged : List (Envelope P)) (w : Worker U P) :
    w.runRound config table round horizon staged =
      (w.handling config table round horizon staged).1.conclude (w.accept staged).2
        (w.handling config table round horizon staged).2 := by
  have hhandling : ((w.accept staged).1.takeDue (config.deliveryLimit horizon)).1.deliverAll table round
      horizon ((w.accept staged).1.takeDue (config.deliveryLimit horizon)).2 =
    w.handling config table round horizon staged := rfl
  unfold runRound conclude
  dsimp only
  rw [hhandling]
  cases (w.handling config table round horizon staged).2.findSome? Handled.failure with
  | none => rfl
  | some f => cases f <;> rfl

omit [Payload P] [SimUnit U P] in
/-- The report tells what the units have sent. -/
lemma conclude_frame (w : Worker U P) (removed : Nat) (handled : List (Handled P)) :
    (w.conclude removed handled).1.id = w.id ∧
      (w.conclude removed handled).2.sent = handled.flatMap (·.sent) := by
  unfold conclude
  dsimp only
  split <;> exact ⟨rfl, rfl⟩

/-- A batch is handed over message by message, up to the first that fails. -/
lemma proceed_cons (table : RoutingTable) (round : Nat) (horizon : SimTime) (w : Worker U P) (removed : Nat)
    (handled : List (Handled P)) (m : Message P) (batch : List (Message P)) :
    w.proceed table round horizon removed handled (m :: batch) =
      (w.deliver table round horizon m).1.proceed table round horizon removed
        (handled ++ [(w.deliver table round horizon m).2])
        (if (w.deliver table round horizon m).2.failure.isSome then [] else batch) := by
  rw [proceed, deliverAll_cons]
  split
  · rw [proceed, deliverAll, List.append_nil]
  · rw [proceed, List.append_assoc, List.singleton_append]

end Worker

/-! ## Steps of a worker -/

namespace Thread

/-- The next step of a worker in the given round: what it is then, what it has done to the postbox, and the
report that it sends, if any. -/
def step (config : RunConfig) (round : Nat) (horizon : SimTime) (b : Postbox P) (x : Thread U P) :
    Thread U P × Postbox P × Option (Report P) :=
  match x.activity with
  | .idle =>
    let (staged, b) := b.takeOut x.worker.id (round - 1)
    let (w, removed) := x.worker.accept staged
    let (w, batch) := w.takeDue (config.deliveryLimit horizon)
    (⟨w, removed, [], .draining batch⟩, b, none)
  | .draining [] =>
    let (w, report) := x.worker.conclude x.removed x.handled
    ({ x with worker := w, activity := .arrived report }, b, some report)
  | .draining (m :: batch) =>
    match x.worker.openCall? b.table round horizon m with
    | none =>
      let h : Handled P := ⟨m, [], some (.reported (.unknownUnit m.target))⟩
      ({ x with handled := x.handled ++ [h], activity := .draining [] }, b, none)
    | some call => ({ x with activity := .calling call batch }, b, none)
  | .calling call batch =>
    match call.script.advance call.context with
    | .inl (script, context) =>
      ({ x with activity := .calling { call with script, context } batch },
        b.postAll round (context.sent.toList.drop call.context.sent.size), none)
    | .inr result =>
      let (w, h) := x.worker.closeCall call result
      (⟨w, x.removed, x.handled ++ [h], .draining (if h.failure.isSome then [] else batch)⟩, b, none)
  | .arrived _ => (x, b, none)

/-- What becomes of a worker that goes on alone, with what is staged for it if it has not begun: the worker
after the round, and its report. -/
def finish (config : RunConfig) (table : RoutingTable) (round : Nat) (horizon : SimTime)
    (staged : List (Envelope P)) (x : Thread U P) : Worker U P × Report P :=
  match x.activity with
  | .idle => x.worker.runRound config table round horizon staged
  | .draining batch => x.worker.proceed table round horizon x.removed x.handled batch
  | .calling call batch =>
    let (w, h) := x.worker.closeCall call (call.script.run call.context)
    w.proceed table round horizon x.removed (x.handled ++ [h]) (if h.failure.isSome then [] else batch)
  | .arrived report => (x.worker, report)

/-- What a worker has posted so far. -/
def posted (x : Thread U P) : List (Envelope P) :=
  match x.activity with
  | .idle => []
  | .draining _ => x.handled.flatMap (·.sent)
  | .calling call _ => x.handled.flatMap (·.sent) ++ call.context.sent.toList
  | .arrived report => report.sent

/-- The report that a worker has sent. -/
def report? (x : Thread U P) : Option (Report P) :=
  match x.activity with
  | .arrived report => some report
  | _ => none

/-- A worker has not begun. -/
def isIdle (x : Thread U P) : Bool :=
  match x.activity with
  | .idle => true
  | _ => false

variable {config : RunConfig} {round : Nat} {horizon : SimTime} {x : Thread U P}

/-- What every step of a worker is like. -/
structure Steps (config : RunConfig) (round : Nat) (horizon : SimTime) (b : Postbox P) (x x' : Thread U P)
    (b' : Postbox P) (r : Option (Report P)) : Prop where
  /-- The worker keeps its number. -/
  id : x'.worker.id = x.worker.id
  /-- It has begun. -/
  begun : x'.isIdle = false
  /-- A report is sent once. -/
  report : x'.report?.toList = x.report?.toList ++ r.toList
  /-- A step does not change what becomes of the worker. When it begins, it reads its own slot. -/
  finish : ∀ staged, (x.isIdle = true → staged = b.staged x.worker.id.index (round - 1)) →
    x'.finish config b.table round horizon staged = x.finish config b.table round horizon staged
  /-- It empties its own slot when it begins, and apart from that only posts. -/
  effect : ∃ new, x'.posted = x.posted ++ new ∧
    b' = (if x.isIdle then (b.takeOut x.worker.id (round - 1)).2 else b).postAll round new

/-- **What every step of a worker is like.**

**Proof sketch.** There is one case for each activity. To begin is to do what the worker's part of a round does
first. A message is handed over in at least two steps; the call that is opened and carried out up to some
request comes to the same end as the call as a whole. -/
theorem steps_step (config : RunConfig) (round : Nat) (horizon : SimTime) (b : Postbox P) (x : Thread U P) :
    Steps config round horizon b x (x.step config round horizon b).1 (x.step config round horizon b).2.1
      (x.step config round horizon b).2.2 := by
  obtain ⟨w, removed, handled, activity⟩ := x
  cases activity with
  | idle =>
    refine ⟨rfl, rfl, rfl, fun staged hstaged => ?_, [], rfl, rfl⟩
    rw [hstaged rfl]
    exact (Worker.runRound_eq_conclude ..).symm
  | arrived report =>
    exact ⟨rfl, rfl, (List.append_nil _).symm, fun _ _ => rfl, [], (List.append_nil _).symm, rfl⟩
  | draining batch =>
    cases batch with
    | nil =>
      obtain ⟨hid, hsent⟩ := w.conclude_frame removed handled
      refine ⟨hid, rfl, rfl, fun staged _ => ?_, [], hsent.trans (List.append_nil _).symm, rfl⟩
      exact congrArg (w.conclude removed) (List.append_nil handled).symm
    | cons m batch =>
      have hdeliver := w.deliver_eq_closeCall b.table round horizon m
      rw [step]
      dsimp only
      split
      · rename_i hnone
        rw [hnone] at hdeliver
        refine ⟨rfl, rfl, rfl, fun staged _ => ?_, [], by simp [posted], rfl⟩
        simp only [finish]
        rw [Worker.proceed_cons, hdeliver]
        rfl
      · rename_i call hcall
        rw [hcall] at hdeliver
        refine ⟨rfl, rfl, rfl, fun staged _ => ?_, [], ?_, rfl⟩
        · simp only [finish]
          rw [Worker.proceed_cons, hdeliver]
        · simp only [posted]
          rw [Worker.sent_of_openCall? hcall]
  | calling call batch =>
    rw [step]
    dsimp only
    split
    · rename_i script context hadvance
      obtain ⟨new, hnew⟩ := Script.exists_sends_of_advance hadvance
      refine ⟨rfl, rfl, rfl, fun staged _ => ?_, new, ?_, ?_⟩
      · simp only [finish]
        rw [Script.run_of_advance hadvance]
        rfl
      · simp only [posted]
        rw [hnew.sent, List.append_assoc]
      · rw [hnew.sent, ← Array.length_toList, List.drop_left]
        rfl
    · rename_i result hadvance
      obtain ⟨hrun, hcontext⟩ := Script.run_of_advance_eq_inr hadvance
      refine ⟨rfl, rfl, rfl, fun staged _ => ?_, [], ?_, rfl⟩
      · simp only [finish]
        rw [hrun]
      · simp [posted, Worker.closeCall, hcontext]

/-! ## Every worker reports in the end -/

/-- A worker that has not reported does a step. Others may have changed the postbox since its last one. -/
def Follows (config : RunConfig) (round : Nat) (horizon : SimTime) (x' x : Thread U P) : Prop :=
  x.report? = none ∧ ∃ b, x' = (x.step config round horizon b).1

/-- A worker that has handed over all messages reports. -/
lemma acc_of_draining_nil (hx : x.activity = .draining []) : Acc (Follows config round horizon) x := by
  refine Acc.intro _ ?_
  rintro _ ⟨_, b, rfl⟩
  refine Acc.intro _ ?_
  rintro _ ⟨hnone, _⟩
  simp only [step, hx] at hnone
  cases hnone

/-- If a worker reports in the end once a call is over, it does so during the call. -/
lemma acc_of_calling {batch : List (Message P)}
    (hbatch : ∀ x : Thread U P, x.activity = .draining batch → Acc (Follows config round horizon) x)
    {call : OpenCall U P} (hx : x.activity = .calling call batch) : Acc (Follows config round horizon) x := by
  have hscript := call.script.acc_advance
  generalize hs : call.script = s at hscript
  induction hscript generalizing x call with
  | intro s _ ih =>
    refine Acc.intro _ ?_
    rintro _ ⟨_, b, rfl⟩
    simp only [step, hx]
    split
    · rename_i script context hadvance
      exact ih script ⟨_, _, hs ▸ hadvance⟩ rfl rfl
    · split
      · exact acc_of_draining_nil rfl
      · exact hbatch _ rfl

/-- A worker with messages in hand reports in the end. -/
lemma acc_of_draining {batch : List (Message P)} (hx : x.activity = .draining batch) :
    Acc (Follows config round horizon) x := by
  induction batch generalizing x with
  | nil => exact acc_of_draining_nil hx
  | cons m batch ih =>
    refine Acc.intro _ ?_
    rintro _ ⟨_, b, rfl⟩
    simp only [step, hx]
    split
    · exact acc_of_draining_nil rfl
    · exact acc_of_calling (fun _ h => ih h) rfl

/-- **A worker reports in the end**, whatever happens between its steps. -/
theorem acc_follows (config : RunConfig) (round : Nat) (horizon : SimTime) (x : Thread U P) :
    Acc (Follows config round horizon) x := by
  cases hx : x.activity with
  | idle =>
    refine Acc.intro _ ?_
    rintro _ ⟨_, b, rfl⟩
    simp only [step, hx]
    exact acc_of_draining rfl
  | draining batch => exact acc_of_draining hx
  | calling call batch => exact acc_of_calling (fun _ h => acc_of_draining h) hx
  | arrived report =>
    refine Acc.intro _ ?_
    rintro _ ⟨hnone, _⟩
    simp only [report?, hx] at hnone
    cases hnone

end Thread

end Workers

end EventSim
