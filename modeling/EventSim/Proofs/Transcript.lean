import EventSim.Proofs.Runs

set_option autoImplicit false

/-!
# Transcripts of calls

The transcript of a call lists the requests that the unit makes, each with the reply. What a unit learns in a
call, and what it is refused, can be read off the transcript; and a run makes calls when units start and when
messages are handed over.

## Main definitions

* `EventSim.Exchange` — a request with the reply to it.
* `EventSim.Script.transcript` — the exchanges of a call.
* `EventSim.Visit` — a unit that is handed a message.
* `EventSim.Stage.visits` — the calls of a round.
* `EventSim.Scheduler.transcriptsIn`, `EventSim.Scheduler.transcripts` — the transcripts of the calls in one round,
  and in all rounds.

## Main results

* `EventSim.Script.fault_run` — the refusal that a call leaves recorded.
* `EventSim.Script.sent_run` — what a call sends.
* `EventSim.Script.exists_of_mem_transcript` — every exchange takes place in a context that only sends.
* `EventSim.Stage.map_outline_handled` — every message that is handed over, some visit handles.
-/

namespace EventSim

variable {U P : Type}

/-! ## Exchanges -/

/-- A request that a unit makes in a call, with the reply to it. -/
inductive Exchange (P : Type) where
  /-- A message is scheduled. The reply is missing if describing the payload breaks down. -/
  | schedule (target : UnitId) (time : SimTime) (payload : P)
      (reply : Except Crash (Except UnitError Handle))
  /-- A message is withdrawn. -/
  | unschedule (handle : Handle) (reply : Except UnitError Unit)
  /-- The recorded refusal is given up. -/
  | takeFault (reply : Option UnitError)
  /-- The unit asks how much it has sent. -/
  | counts (produced cancelled : Nat)

namespace Exchange

/-- The refusal, if the request is refused. -/
def refusal? : Exchange P → Option UnitError
  | .schedule _ _ _ (.ok (.error e)) => some e
  | .unschedule _ (.error e) => some e
  | _ => none

/-- What is sent, if the request is granted. -/
def envelope? : Exchange P → Option (Envelope P)
  | .schedule target time payload (.ok (.ok h)) => some (.deliver ⟨h.id, target, time, payload⟩)
  | .unschedule handle (.ok ()) => some (.cancel handle)
  | _ => none

/-- The recorded refusal is given up. -/
def isTakeFault : Exchange P → Bool
  | .takeFault _ => true
  | _ => false

/-- The recorded refusal after an exchange. -/
def recorded (fault : Option UnitError) (x : Exchange P) : Option UnitError :=
  if x.isTakeFault then none else fault.or x.refusal?

/-- A refusal among the exchanges stands: none of the later ones gives it up. -/
def Stands (xs : List (Exchange P)) : Prop :=
  ∃ before x after, xs = before ++ x :: after ∧ x.refusal?.isSome ∧ ∀ y ∈ after, y.isTakeFault = false

variable {xs : List (Exchange P)} {fault : Option UnitError}

/-- What the first of some exchanges sends comes first. -/
lemma filterMap_envelope?_cons (x : Exchange P) (xs : List (Exchange P)) :
    (x :: xs).filterMap envelope? = x.envelope?.toList ++ xs.filterMap envelope? := by
  rw [List.filterMap_cons]
  cases x.envelope? <;> rfl

/-- A cancellation is sent by a granted request to withdraw, and by nothing else. -/
lemma envelope?_eq_cancel_iff {x : Exchange P} {h : Handle} :
    x.envelope? = some (.cancel h) ↔ x = .unschedule h (.ok ()) := by
  constructor
  · intro hx
    unfold envelope? at hx
    split at hx <;> cases hx
    rfl
  · rintro rfl
    rfl

/-- A refusal stays recorded until it is given up. -/
lemma isSome_foldl_recorded (hf : fault.isSome) (hxs : ∀ y ∈ xs, y.isTakeFault = false) :
    (xs.foldl recorded fault).isSome := by
  induction xs generalizing fault with
  | nil => exact hf
  | cons x xs ih =>
    refine ih ?_ fun y hy => hxs y (List.mem_cons_of_mem _ hy)
    rw [recorded, hxs x List.mem_cons_self]
    simp [hf]

/-- **A refusal is recorded in the end just if it stands.** -/
theorem isSome_foldl_recorded_iff : (xs.foldl recorded none).isSome ↔ Stands xs := by
  constructor
  · intro h
    induction xs using List.reverseRecOn with
    | nil => cases h
    | append_singleton xs x ih =>
      rw [List.foldl_append, List.foldl_cons, List.foldl_nil, recorded] at h
      split at h
      · cases h
      rename_i hx
      rw [Option.isSome_or, Bool.or_eq_true] at h
      rcases h with h | h
      · obtain ⟨before, y, after, rfl, hy, hafter⟩ := ih h
        refine ⟨before, y, after ++ [x], by simp, hy, fun z hz => ?_⟩
        rcases List.mem_append.1 hz with hz | hz
        · exact hafter z hz
        · rw [List.mem_singleton.1 hz]
          exact Bool.eq_false_iff.2 hx
      · exact ⟨xs, x, [], rfl, h, by simp⟩
  · rintro ⟨before, x, after, rfl, hx, hafter⟩
    rw [List.foldl_append, List.foldl_cons]
    refine isSome_foldl_recorded ?_ hafter
    have htake : x.isTakeFault = false := by
      cases x with
      | takeFault reply => cases hx
      | _ => rfl
    rw [recorded, htake]
    simp [hx]

instance (xs : List (Exchange P)) : Decidable (Stands xs) := decidable_of_iff _ isSome_foldl_recorded_iff

end Exchange

/-! ## Transcripts -/

/-- The exchanges of a call, in order. -/
def Script.transcript [Payload P] : Script U P → Context P → List (Exchange P)
  | .stop _ _, _ => []
  | .schedule _ target time payload next, c =>
    match c.schedule target time payload with
    | .error crash => [.schedule target time payload (.error crash)]
    | .ok (reply, c) => .schedule target time payload (.ok reply) :: (next reply).transcript c
  | .unschedule handle next, c =>
    let (reply, c) := c.unschedule handle
    .unschedule handle reply :: (next reply).transcript c
  | .takeFault next, c =>
    let (reply, c) := c.takeFault
    .takeFault reply :: (next reply).transcript c
  | .counts next, c => .counts c.produced c.cancelled :: (next c.produced c.cancelled).transcript c

/-- An exchange takes place in the given context. -/
def Exchange.In [Payload P] (c : Context P) : Exchange P → Prop
  | .schedule target time payload reply => (c.schedule target time payload).map (·.1) = reply
  | .unschedule handle reply => (c.unschedule handle).1 = reply
  | .takeFault reply => c.takeFault.1 = reply
  | .counts produced cancelled => produced = c.produced ∧ cancelled = c.cancelled

section Transcript

variable [Payload P] {c c' : Context P} {x : Exchange P}

/-- What is recorded after something has been scheduled. -/
lemma Context.fault_schedule {target : UnitId} {time : SimTime} {payload : P}
    {reply : Except UnitError Handle} (h : c.schedule target time payload = .ok (reply, c')) :
    c'.fault = Exchange.recorded c.fault (.schedule target time payload (.ok reply)) := by
  unfold schedule at h
  split at h
  · cases h
    rfl
  split at h
  · split at h <;> cases h
    rfl
  split at h <;> cases h
  · rfl
  · exact Option.or_none.symm

omit [Payload P] in
/-- What is recorded after something has been withdrawn. -/
lemma Context.fault_unschedule (handle : Handle) : (c.unschedule handle).2.fault =
    Exchange.recorded (P := P) c.fault (.unschedule handle (c.unschedule handle).1) := by
  unfold unschedule
  split
  · rfl
  · exact Option.or_none.symm

/-- **The refusal that a call leaves recorded** can be read off its transcript. -/
theorem Script.fault_run (s : Script U P) (c : Context P) :
    (s.run c).context.fault = (s.transcript c).foldl Exchange.recorded c.fault := by
  induction s generalizing c with
  | stop unit ending => rfl
  | schedule unit target time payload next ih =>
    simp only [run, transcript]
    cases h : c.schedule target time payload with
    | error crash => exact Option.or_none.symm
    | ok r => exact (ih _ _).trans (congrArg (List.foldl _ · _) (Context.fault_schedule h))
  | unschedule handle next ih =>
    exact (ih _ _).trans (congrArg (List.foldl _ · _) (Context.fault_unschedule handle))
  | takeFault next ih => exact ih _ _
  | counts next ih =>
    exact (ih _ _ c).trans (congrArg (List.foldl _ · _) Option.or_none.symm)

/-- What scheduling something sends. -/
lemma Context.sent_schedule {target : UnitId} {time : SimTime} {payload : P}
    {reply : Except UnitError Handle} (h : c.schedule target time payload = .ok (reply, c')) :
    c'.sent.toList = c.sent.toList ++
      (Exchange.envelope? (.schedule target time payload (.ok reply))).toList := by
  unfold schedule at h
  split at h
  · cases h
    exact (List.append_nil _).symm
  split at h
  · split at h <;> cases h
    exact (List.append_nil _).symm
  split at h <;> cases h
  · exact (List.append_nil _).symm
  · exact Array.toList_push

omit [Payload P] in
/-- What withdrawing something sends. -/
lemma Context.sent_unschedule (handle : Handle) : (c.unschedule handle).2.sent.toList =
    c.sent.toList ++ (Exchange.envelope? (.unschedule handle (c.unschedule handle).1)).toList := by
  unfold unschedule
  split
  · exact (List.append_nil _).symm
  · exact Array.toList_push

/-- **What a call sends** are the envelopes of its transcript. -/
theorem Script.sent_run (s : Script U P) (c : Context P) : (s.run c).context.sent.toList =
    c.sent.toList ++ (s.transcript c).filterMap Exchange.envelope? := by
  induction s generalizing c with
  | stop unit ending => exact (List.append_nil _).symm
  | schedule unit target time payload next ih =>
    simp only [run, transcript]
    cases h : c.schedule target time payload with
    | error crash => exact (List.append_nil _).symm
    | ok r => rw [ih, Context.sent_schedule h, List.append_assoc, ← Exchange.filterMap_envelope?_cons]
  | unschedule handle next ih =>
    simp only [run, transcript]
    rw [ih, Context.sent_unschedule, List.append_assoc, ← Exchange.filterMap_envelope?_cons]
  | takeFault next ih => exact ih _ _
  | counts next ih => exact ih _ _ c

/-- **Every exchange takes place in a context that only sends**, and what is sent before it the call sends. -/
theorem Script.exists_of_mem_transcript {s : Script U P} (hx : x ∈ s.transcript c) :
    ∃ c' new, c.Sends c' new ∧ x.In c' := by
  induction s generalizing c with
  | stop unit ending => cases hx
  | schedule unit target time payload next ih =>
    rw [transcript] at hx
    split at hx
    · rename_i crash h
      rw [List.mem_singleton.1 hx]
      exact ⟨c, [], .refl c, by rw [Exchange.In, h]; rfl⟩
    · rename_i reply c' h
      rcases List.mem_cons.1 hx with rfl | hx
      · exact ⟨c, [], .refl c, by rw [Exchange.In, h]; rfl⟩
      · obtain ⟨new, hnew⟩ := Context.sends_schedule h
        obtain ⟨c'', new', hnew', hin⟩ := ih reply hx
        exact ⟨c'', _, hnew.trans hnew', hin⟩
  | unschedule handle next ih =>
    rcases List.mem_cons.1 hx with rfl | hx
    · exact ⟨c, [], .refl c, rfl⟩
    · obtain ⟨new, hnew⟩ := c.sends_unschedule handle
      obtain ⟨c'', new', hnew', hin⟩ := ih _ hx
      exact ⟨c'', _, hnew.trans hnew', hin⟩
  | takeFault next ih =>
    rcases List.mem_cons.1 hx with rfl | hx
    · exact ⟨c, [], .refl c, rfl⟩
    · obtain ⟨c'', new', hnew', hin⟩ := ih _ hx
      exact ⟨c'', _, c.sends_takeFault.trans hnew', hin⟩
  | counts next ih =>
    rcases List.mem_cons.1 hx with rfl | hx
    · exact ⟨c, [], .refl c, rfl, rfl⟩
    · exact ih _ _ hx

end Transcript

/-! ## The calls of units -/

section Units

variable [Payload P] [SimUnit U P]

namespace Slot

/-- The transcript of the call in which a unit starts. -/
def startTranscript (table : RoutingTable) (start : SimTime) (x : Slot U) : List (Exchange P) :=
  (SimUnit.start x.unit ⟨x.id, start, start, 0⟩).transcript
    { view := ⟨x.id, start, start, 0⟩, table, nextSeq := x.nextSeq }

/-- The transcript of the call for a message. -/
def transcript (s : Setting) (x : Slot U) (m : Message P) : List (Exchange P) :=
  (SimUnit.process x.unit m ⟨x.id, m.time, s.horizon, s.round⟩).transcript
    { view := ⟨x.id, m.time, s.horizon, s.round⟩, table := s.table, nextSeq := x.nextSeq }

/-- What a unit sends when it starts is in the transcript. -/
lemma opening_eq (table : RoutingTable) (start : SimTime) (x : Slot U) :
    x.opening table start = (x.startTranscript table start).filterMap Exchange.envelope? :=
  Script.sent_run ..

/-- What a unit sends in response to a message is in the transcript. -/
lemma sent_handle (s : Setting) (x : Slot U) (m : Message P) :
    (x.handle s m).2.sent = (x.transcript s m).filterMap Exchange.envelope? := Script.sent_run ..

/-- A unit that starts without complaint lets no refusal stand. -/
lemma not_stands_of_starts {table : RoutingTable} {start : SimTime} {x : Slot U}
    (hx : x.Starts table start) : ¬ Exchange.Stands (x.startTranscript table start) := by
  rw [← Exchange.isSome_foldl_recorded_iff]
  have hrun := Script.fault_run (SimUnit.start x.unit ⟨x.id, start, start, 0⟩)
    { view := ⟨x.id, start, start, 0⟩, table, nextSeq := x.nextSeq }
  obtain ⟨_, hfault⟩ := hx
  rw [startTranscript, ← hrun]
  intro hsome
  unfold Call.fault at hfault
  split at hfault
  · cases hfault
  · rw [startCall] at hfault
    simp [hfault] at hsome

/-- A message that is handled without failure lets no refusal stand. -/
lemma not_stands_of_failure_eq_none {s : Setting} {x : Slot U} {m : Message P}
    (h : (x.handle s m).2.failure = none) : ¬ Exchange.Stands (x.transcript s m) := by
  rw [← Exchange.isSome_foldl_recorded_iff]
  have hrun := Script.fault_run (SimUnit.process x.unit m ⟨x.id, m.time, s.horizon, s.round⟩)
    { view := ⟨x.id, m.time, s.horizon, s.round⟩, table := s.table, nextSeq := x.nextSeq }
  rw [transcript, ← hrun]
  intro hsome
  rw [handle] at h
  unfold Worker.failure at h
  dsimp only at h
  split at h
  · cases h
  · rw [Option.map_eq_none_iff] at h
    unfold Call.fault at h
    split at h
    · cases h
    · rw [call] at h
      simp [h] at hsome

end Slot

end Units

/-! ## The calls of rounds -/

/-- A unit, as it is before a call, and the message that it is handed. -/
structure Visit (U P : Type) where
  /-- The unit. -/
  slot : Slot U
  /-- The message. -/
  message : Message P

section Visits

variable [Payload P] [SimUnit U P]

namespace Visit

/-- What comes of the message. -/
def handled (s : Setting) (v : Visit U P) : Handled P := (v.slot.handle s v.message).2

/-- The exchanges of the call. -/
def transcript (s : Setting) (v : Visit U P) : List (Exchange P) := v.slot.transcript s v.message

end Visit

namespace Worker

variable {table : RoutingTable} {round : Nat} {horizon : SimTime} {w : Worker U P} {ms : List (Message P)}

/-- The calls of the units of a worker when it hands over messages, up to the first that fails. -/
def visits (table : RoutingTable) (round : Nat) (horizon : SimTime) :
    Worker U P → List (Message P) → List (Visit U P)
  | _, [] => []
  | w, m :: ms =>
    ((table.route? m.target).bind fun r => w.slots[r.slot]?).toList.map (⟨·, m⟩) ++
      if (w.deliver table round horizon m).2.failure.isSome then []
      else visits table round horizon (w.deliver table round horizon m).1 ms

/-- The visits begin with the one of the unit that the first message is for. -/
lemma visits_cons {r : Route} {x : Slot U} {m : Message P} (hr : table.route? m.target = some r)
    (hx : w.slots[r.slot]? = some x) : w.visits table round horizon (m :: ms) = ⟨x, m⟩ ::
      if (w.deliver table round horizon m).2.failure.isSome then []
      else (w.deliver table round horizon m).1.visits table round horizon ms := by
  rw [visits, hr, Option.bind_some, hx]
  rfl

/-- Visits are made for the messages that are handed over. -/
lemma message_mem_of_mem_visits {v : Visit U P} (hv : v ∈ w.visits table round horizon ms) : v.message ∈ ms := by
  induction ms generalizing w with
  | nil => cases hv
  | cons m ms ih =>
    rcases List.mem_append.1 hv with hv | hv
    · obtain ⟨x, _, rfl⟩ := List.mem_map.1 hv
      exact List.mem_cons_self
    · split at hv
      · cases hv
      · exact List.mem_cons_of_mem _ (ih hv)

/-- **Every message that a worker hands over, some visit handles**: the visit of its target. -/
theorem deliverAll_eq_map_visits (round : Nat) (horizon : SimTime) (hp : w.Placed table)
    (ho : ∀ m ∈ ms, w.Owns table m.target) :
    (w.deliverAll table round horizon ms).2 =
        (w.visits table round horizon ms).map (·.handled (w.setting table round horizon)) ∧
      ∀ v ∈ w.visits table round horizon ms, v.slot.id = v.message.target := by
  induction ms generalizing w with
  | nil => exact ⟨rfl, by simp [visits]⟩
  | cons m ms ih =>
    obtain ⟨r, x, hr, _, hx, hid, _⟩ := hp.exists_slot (ho m List.mem_cons_self)
    have hdeliver : (w.deliver table round horizon m).2 =
        Visit.handled (w.setting table round horizon) ⟨x, m⟩ := by
      rw [deliver_of_slot hr hx]
      rfl
    obtain ⟨hrest, hids⟩ := ih (slot?_deliver round horizon hp (ho m List.mem_cons_self)).1
      fun n hn => (ho n (List.mem_cons_of_mem _ hn)).deliver m
    rw [deliverAll_cons, visits_cons hr hx]
    split
    · exact ⟨congrArg ([·]) hdeliver, by simpa using hid⟩
    · rw [hrest, setting_deliver, List.map_cons, hdeliver]
      refine ⟨rfl, fun v hv => ?_⟩
      rcases List.mem_cons.1 hv with rfl | hv
      · exact hid
      · exact hids v hv

end Worker

namespace Stage

variable {config : RunConfig} {t : Stage U P} {v : Visit U P}

/-- The setting of the round. -/
def setting (t : Stage U P) : Setting := t.engine.setting t.past t.horizon.current

/-- The calls that one worker makes in the round. -/
def visitsAt (config : RunConfig) (t : Stage U P) (w : Worker U P) : List (Visit U P) :=
  (w.primed config t.horizon.current (t.engine.stagedFor w.id t.past)).visits t.engine.postbox.table
    (t.past + 1) t.horizon.current (w.due config t.horizon.current (t.engine.stagedFor w.id t.past))

/-- The calls for messages in the round, worker by worker. -/
def visits (config : RunConfig) (t : Stage U P) : List (Visit U P) :=
  t.engine.workers.toList.flatMap (t.visitsAt config)

/-- The messages that a worker hands over in the round, its visits handle. -/
lemma handled_part (hc : t.engine.Coherent t.past) {w : Worker U P} (hw : w ∈ t.engine.workers.toList) :
    (t.engine.part config t.past t.horizon.current w).2.handled = (t.visitsAt config w).map
        (·.handled (w.setting t.engine.postbox.table (t.past + 1) t.horizon.current)) ∧
      ∀ v ∈ t.visitsAt config w, v.slot.id = v.message.target := by
  obtain ⟨i, hi⟩ := List.getElem?_of_mem hw
  rw [Array.getElem?_toList] at hi
  rw [Engine.part, (Worker.runRound_frame ..).2.2.2.2.1]
  exact Worker.deliverAll_eq_map_visits (t.past + 1) t.horizon.current
    (Worker.primed_placed config t.horizon.current _ (hc.placed hi))
    (hc.due_owned config t.horizon.current hi)

/-- **Every message that is handed over in the round, some visit handles**: the visit of its target. -/
theorem map_outline_handled (hc : t.engine.Coherent t.past) :
    (t.record config).handled.map Slot.outline =
        (t.visits config).map (Slot.outline <| ·.handled t.setting) ∧
      ∀ v ∈ t.visits config, v.slot.id = v.message.target := by
  refine ⟨?_, fun v hv => ?_⟩
  · rw [record, Engine.handled_runRound, visits, List.map_flatMap, List.map_flatMap]
    refine List.flatMap_congr fun w hw => ?_
    rw [(handled_part hc hw).1, List.map_map]
    refine List.map_congr_left fun v _ => ?_
    exact (Slot.handle_congr (Engine.Coherent.alike_setting t.engine t.past t.horizon.current w)).2
  · obtain ⟨w, hw, hv⟩ := List.mem_flatMap.1 hv
    exact (handled_part hc hw).2 v hv

/-- What is sent in the round is in the transcripts. -/
lemma sent_eq (hc : t.engine.Coherent t.past) : (t.record config).sent =
    ((t.visits config).map (·.transcript t.setting)).flatMap (·.filterMap Exchange.envelope?) := by
  rw [RoundRecord.sent, Slot.flatMap_sent, (map_outline_handled hc).1, List.flatMap_map, List.flatMap_map]
  exact List.flatMap_congr fun v _ => Slot.sent_handle t.setting v.slot v.message

/-- What comes of a visit is in the record of the round, up to the text of a failure. -/
lemma exists_handled_of_mem_visits (hc : t.engine.Coherent t.past) (hv : v ∈ t.visits config) :
    ∃ h ∈ (t.record config).handled, Slot.outline h = Slot.outline (v.handled t.setting) := by
  have hmem := List.mem_map_of_mem (f := fun v => Slot.outline (v.handled t.setting)) hv
  rw [← (map_outline_handled hc).1] at hmem
  exact List.mem_map.1 hmem

end Stage

/-! ## The calls of a run -/

namespace Scheduler

/-- The transcripts of the calls in the round with the given number. Round 0 is the setup, in which the units
start; if one cannot start, the units that it keeps from starting are counted as well. -/
def transcriptsIn (s : Scheduler U P) : Nat → List (List (Exchange P))
  | 0 => s.placed.map (·.startTranscript s.table s.config.startTime)
  | r + 1 => (s.stages[r]?.map fun t => (t.visits s.config).map (·.transcript t.setting)).getD []

/-- The transcripts of all calls of a run. -/
def transcripts (s : Scheduler U P) : List (List (Exchange P)) :=
  (List.range (s.stages.length + 1)).flatMap s.transcriptsIn

/-- A call of a run is the start of a unit or a visit in a round. -/
lemma mem_transcripts {s : Scheduler U P} {xs : List (Exchange P)} : xs ∈ s.transcripts ↔
    (∃ x ∈ s.placed, xs = x.startTranscript s.table s.config.startTime) ∨
      ∃ t ∈ s.stages, ∃ v ∈ t.visits s.config, xs = v.transcript t.setting := by
  rw [transcripts, List.range_succ_eq_map, List.flatMap_cons, List.flatMap_map, List.mem_append]
  refine or_congr ?_ ?_
  · simp only [transcriptsIn, List.mem_map, eq_comm]
  · have hrounds := flatMap_range_getElem? s.stages fun t =>
      (t.visits s.config).map (·.transcript t.setting)
    rw [show ((List.range s.stages.length).flatMap fun r => s.transcriptsIn (r + 1)) = _ from hrounds]
    simp only [List.mem_flatMap, List.mem_map, eq_comm]

end Scheduler

end Visits

end EventSim
