import EventSim.Report.Refusing
import Mathlib.Data.List.Induction

set_option autoImplicit false

/-!
# Reports that fail

A writer may refuse a row, or refuse to be finished, at any call, and the run goes on. What the log does then is seen in
the calls that it makes and in the replies to them. A writer is taped for that: it keeps every call with its reply
besides what it does anyway. Up to the first call that fails there is one call for every event of the run. After that
there is one for every end of a run and none for a round, so that the rows which have been written have no gap.

## Main definitions

* `EventSim.ReportEvent`, `EventSim.RoundLog.receive` — what the log of rounds hears of a run.
* `EventSim.Taped` — a writer that keeps its calls with their replies.
* `EventSim.Course` — the calls of a writer in the course of some events.
* `EventSim.RoundLog.CleanPrefix` — what is written of a run, and what is reported of failures.

## Main results

* `EventSim.RoundLog.bare_receive` — a writer that is taped does what it does otherwise.
* `EventSim.Course.receive` — the calls of one event.
* `EventSim.RoundLog.cleanPrefix` — what a log with any writer does in the course of any events.
-/

namespace EventSim

/-! ## Events and calls -/

/-- What the log of rounds hears of a run. -/
inductive ReportEvent where
  /-- A round is over. -/
  | roundEnd (s : RoundSummary)
  /-- The run has ended. -/
  | runEnd
  deriving DecidableEq

/-- What a writer is asked to do. -/
inductive WriterCall where
  /-- To write a row. -/
  | row (r : RoundRow)
  /-- To make sure that everything is written. -/
  | finish
  deriving DecidableEq

namespace ReportEvent

/-- What an event asks of a writer. -/
def call : ReportEvent → WriterCall
  | roundEnd s => .row (RoundRow.ofSummary s)
  | runEnd => .finish

/-- The row of a round: what is pending is what is queued and what is staged, added as words. -/
def row? : ReportEvent → Option RoundRow
  | roundEnd s => some ⟨s.round, s.horizon.secs, s.delivered, UInt64.ofNat s.queued + UInt64.ofNat s.staged⟩
  | runEnd => none

end ReportEvent

/-- What the log of rounds hears of an observation. -/
def Observation.event? {P : Type} : Observation P → Option ReportEvent
  | .roundEnd record => some (.roundEnd record.summary)
  | .runEnd _ => some .runEnd
  | _ => none

/-- The error of a call that fails. -/
def failure? : Except ReportError Unit → Option ReportError
  | .ok _ => none
  | .error e => some e

/-- The row that a call has written. -/
def written? : WriterCall × Except ReportError Unit → Option RoundRow
  | (.row r, .ok _) => some r
  | _ => none

/-- What a writer does at a call. -/
def WriterCall.run {W : Type} [RoundWriter W] : WriterCall → W → Except ReportError Unit × W
  | row r => RoundWriter.writeRound r
  | finish => RoundWriter.finish

namespace RoundLog

variable {W : Type}

/-- The failure of a call is kept unless there is one already. -/
@[simp] lemma keep_fault (l : RoundLog W) (result : Except ReportError Unit × W) :
    (l.keep result).fault = l.fault.or (failure? result.1) := by
  obtain ⟨_ | _, _⟩ := result <;> simp [keep, failure?]

/-- The writer goes on from where the call has left it. -/
@[simp] lemma keep_writer (l : RoundLog W) (result : Except ReportError Unit × W) :
    (l.keep result).writer = result.2 := by
  obtain ⟨_ | _, _⟩ := result <;> rfl

variable [RoundWriter W]

/-- The log after an event. -/
def receive (l : RoundLog W) : ReportEvent → RoundLog W
  | .roundEnd s => l.endRound s
  | .runEnd => l.endRun

/-- An observer of a run hears of its rounds and of its end. -/
lemma foldl_observe {P : Type} (observations : List (Observation P)) (l : RoundLog W) :
    observations.foldl observe l = (observations.filterMap Observation.event?).foldl receive l := by
  rw [List.foldl_filterMap]
  congr 1
  funext l o
  cases o <;> rfl

/-- As long as no failure is kept, the writer is called at every event. -/
lemma receive_of_fault_eq_none {l : RoundLog W} (h : l.fault = none) (x : ReportEvent) :
    l.receive x = l.keep (x.call.run l.writer) := by
  cases x with
  | roundEnd s => simp [receive, endRound, h, ReportEvent.call, WriterCall.run]
  | runEnd => rfl

/-- A round is passed over while a failure is kept. -/
lemma receive_roundEnd_of_fault {l : RoundLog W} {e : ReportError} (h : l.fault = some e) (s : RoundSummary) :
    l.receive (.roundEnd s) = l := by
  simp [receive, endRound, h]

end RoundLog

/-! ## Writers that are taped -/

/-- A writer that keeps, besides what it does, its calls with their replies. -/
structure Taped (W : Type) where
  /-- The writer. -/
  writer : W
  /-- The calls so far with their replies. -/
  tape : List (WriterCall × Except ReportError Unit) := []

namespace Taped

variable {W : Type} [RoundWriter W]

/-- Keeps a call with its reply. -/
def keep (w : Taped W) (call : WriterCall) (result : Except ReportError Unit × W) :
    Except ReportError Unit × Taped W :=
  (result.1, ⟨result.2, w.tape ++ [(call, result.1)]⟩)

instance : RoundWriter (Taped W) where
  writeRound r w := w.keep (.row r) (RoundWriter.writeRound r w.writer)
  finish w := w.keep .finish (RoundWriter.finish w.writer)

/-- A call of a writer that is taped. -/
lemma run_call (w : Taped W) (call : WriterCall) : call.run w = w.keep call (call.run w.writer) := by
  cases call <;> rfl

end Taped

namespace RoundLog

variable {W : Type} [RoundWriter W]

/-- The log without the tape of its writer. -/
def bare (l : RoundLog (Taped W)) : RoundLog W := ⟨l.writer.writer, l.fault⟩

/-- What is kept of a call does not depend on the tape. -/
lemma bare_keep (l : RoundLog (Taped W)) (call : WriterCall) :
    (l.keep (call.run l.writer)).bare = l.bare.keep (call.run l.bare.writer) := by
  rw [Taped.run_call]
  simp only [bare, Taped.keep]
  obtain ⟨_ | _, _⟩ := call.run l.writer.writer <;> rfl

/-- **A writer that is taped does what it does otherwise.** -/
theorem bare_receive (l : RoundLog (Taped W)) (x : ReportEvent) : (l.receive x).bare = l.bare.receive x := by
  cases hf : l.fault with
  | none => rw [receive_of_fault_eq_none hf, receive_of_fault_eq_none (l := l.bare) hf, bare_keep]
  | some e =>
    cases x with
    | roundEnd s => rw [receive_roundEnd_of_fault hf, receive_roundEnd_of_fault (l := l.bare) hf]
    | runEnd => exact bare_keep l .finish

/-- The log, with a writer that is taped from the start. -/
def taped (w : W) (events : List ReportEvent) : RoundLog (Taped W) := events.foldl receive ⟨⟨w, []⟩, none⟩

/-- The events after the first ones. -/
lemma taped_concat (w : W) (events : List ReportEvent) (x : ReportEvent) :
    taped w (events ++ [x]) = (taped w events).receive x := by
  rw [taped, List.foldl_append]
  rfl

/-- A log with a writer that is taped is a log with the writer. -/
lemma bare_taped (w : W) (events : List ReportEvent) :
    (taped w events).bare = events.foldl receive { writer := w } := by
  induction events using List.reverseRecOn with
  | nil => rfl
  | append_singleton events x ih =>
    rw [taped_concat, bare_receive, ih, List.foldl_append, List.foldl_cons, List.foldl_nil]

end RoundLog

/-! ## The course of events -/

/-- The calls of a writer in the course of some events, and the failure that is kept. -/
inductive Course : List ReportEvent → List (WriterCall × Except ReportError Unit) → Option ReportError → Prop
  /-- No call has failed: there is one for every event. -/
  | clean (events : List ReportEvent) : Course events (events.map fun x => (x.call, .ok ())) none
  /-- A call has failed: after it there is one for every end of a run. -/
  | broken (before : List ReportEvent) (x : ReportEvent) (after : List ReportEvent) (e : ReportError)
    (replies : List (Except ReportError Unit)) (h : replies.length = after.count .runEnd) :
    Course (before ++ x :: after)
      (before.map (fun x => (x.call, .ok ())) ++ (x.call, .error e) :: replies.map fun reply => (.finish, reply))
      (some e)

namespace Course

variable {W : Type} [RoundWriter W]

/-- The course of one event more, as long as no call has failed. -/
lemma clean_concat (events : List ReportEvent) (x : ReportEvent) (reply : Except ReportError Unit) :
    Course (events ++ [x]) (events.map (fun x => (x.call, .ok ())) ++ [(x.call, reply)]) (failure? reply) := by
  cases reply with
  | ok _ => simpa [failure?] using clean (events ++ [x])
  | error e => simpa [failure?] using broken events x [] e [] rfl

/-- **The calls of one event.** Until a call fails, the event is one call. Afterwards a round is passed over, and the
failure that is kept stays. -/
theorem receive {events : List ReportEvent} {l : RoundLog (Taped W)} (h : Course events l.writer.tape l.fault)
    (x : ReportEvent) : Course (events ++ [x]) (l.receive x).writer.tape (l.receive x).fault := by
  generalize htape : l.writer.tape = tape at h
  generalize hfault : l.fault = fault at h
  cases h with
  | clean =>
    rw [RoundLog.receive_of_fault_eq_none hfault, Taped.run_call]
    simpa [Taped.keep, hfault, htape] using clean_concat events x _
  | broken before y after e replies hlen =>
    cases x with
    | roundEnd s =>
      rw [RoundLog.receive_roundEnd_of_fault hfault, htape, hfault, List.append_assoc, List.cons_append]
      exact broken before y (after ++ [.roundEnd s]) e replies (by simp [hlen])
    | runEnd =>
      -- the writer is called again, but whatever it replies, the first failure stays
      have hcall : l.receive .runEnd = l.keep (WriterCall.finish.run l.writer) := rfl
      rw [hcall, Taped.run_call]
      simpa [Taped.keep, hfault, htape] using
        broken before y (after ++ [.runEnd]) e (replies ++ [(WriterCall.finish.run l.writer.writer).1]) (by simp [hlen])

/-- The calls of a writer that is taped from the start. -/
theorem taped (w : W) (events : List ReportEvent) :
    Course events (RoundLog.taped w events).writer.tape (RoundLog.taped w events).fault := by
  induction events using List.reverseRecOn with
  | nil => exact clean []
  | append_singleton events x ih =>
    rw [RoundLog.taped_concat]
    exact ih.receive x

end Course

/-- How many calls there are before the first one that fails. -/
def firstFailure (tape : List (WriterCall × Except ReportError Unit)) : Nat :=
  tape.findIdx fun c => (failure? c.2).isSome

/-- The row of a round is written by its call. -/
@[simp] lemma written?_call (x : ReportEvent) : written? (x.call, .ok ()) = x.row? := by cases x <;> rfl

/-- Only the end of a run is a call to finish. -/
@[simp] lemma ReportEvent.call_eq_finish {x : ReportEvent} : x.call = .finish ↔ x = .runEnd := by
  cases x <;> simp [call]

namespace Course

variable {events : List ReportEvent} {tape : List (WriterCall × Except ReportError Unit)} {fault : Option ReportError}

/-- Calls that succeed are no failures. -/
lemma firstFailure_map (events : List ReportEvent) :
    firstFailure (events.map fun x => (x.call, .ok ())) = events.length := by
  simp [firstFailure, failure?]

/-- Where the first failure is. -/
lemma firstFailure_append (before : List ReportEvent) (call : WriterCall) (e : ReportError)
    (rest : List (WriterCall × Except ReportError Unit)) :
    firstFailure (before.map (fun x => (x.call, .ok ())) ++ (call, .error e) :: rest) = before.length := by
  simp [firstFailure, failure?, List.findIdx_append, List.findIdx_cons]

/-- Up to the first failure there is a call for every event. -/
lemma take_firstFailure (h : Course events tape fault) :
    tape.take (firstFailure tape) = (events.take (firstFailure tape)).map fun x => (x.call, .ok ()) := by
  cases h with
  | clean => rw [firstFailure_map, List.map_take]
  | broken before x after e replies h =>
    rw [firstFailure_append, List.take_left, List.take_left' (List.length_map _)]

/-- The call that fails first is that of the next event. -/
lemma call_firstFailure (h : Course events tape fault) :
    tape[firstFailure tape]?.map (·.1) = events[firstFailure tape]?.map ReportEvent.call := by
  cases h with
  | clean => simp [firstFailure_map]
  | broken before x after e replies h => simp [firstFailure_append]

/-- After the first failure the writer is only told to finish. -/
lemma drop_firstFailure (h : Course events tape fault) :
    ∀ c ∈ tape.drop (firstFailure tape + 1), c.1 = .finish := by
  cases h with
  | clean => simp [firstFailure_map, List.drop_eq_nil_of_le]
  | broken before x after e replies h =>
    rw [firstFailure_append, List.drop_append, List.drop_eq_nil_of_le (by simp)]
    simp

/-- The rows that are written are those before the first failure. -/
lemma rows (h : Course events tape fault) :
    tape.filterMap written? = (events.take (firstFailure tape)).filterMap ReportEvent.row? := by
  have hclean : ∀ xs : List ReportEvent,
      (xs.map fun x => (x.call, (.ok () : Except ReportError Unit))).filterMap written? =
        xs.filterMap ReportEvent.row? := by
    intro xs
    rw [List.filterMap_map]
    exact congrArg (List.filterMap · xs) (funext written?_call)
  cases h with
  | clean => rw [firstFailure_map, List.take_length, hclean]
  | broken before x after e replies h =>
    have hx : written? (x.call, .error e) = none := by cases x <;> rfl
    have hafter : (replies.map fun reply => (WriterCall.finish, reply)).filterMap written? = [] := by
      rw [List.filterMap_eq_nil_iff]
      intro c hc
      obtain ⟨reply, -, rfl⟩ := List.mem_map.1 hc
      cases reply <;> rfl
    rw [firstFailure_append, List.take_left, List.filterMap_append, hclean, List.filterMap_cons, hx, hafter,
      List.append_nil]

/-- There is one call to finish for every end of a run. -/
lemma finishes (h : Course events tape fault) : (tape.map (·.1)).count .finish = events.count .runEnd := by
  have hcalls : ∀ xs : List ReportEvent, (xs.map ReportEvent.call).count .finish = xs.count .runEnd := by
    intro xs
    rw [List.count_eq_countP, List.count_eq_countP, List.countP_map]
    refine List.countP_congr fun x _ => ?_
    simp
  cases h with
  | clean => simpa [Function.comp_def] using hcalls events
  | broken before x after e replies h =>
    have hx : (List.count .finish (x.call :: replies.map fun _ => WriterCall.finish)) = (x :: after).count .runEnd := by
      rw [List.count_cons, List.count_cons, List.map_const', List.count_replicate_self, h]
      simp
    simp only [List.map_append, List.map_map, List.map_cons, Function.comp_def, List.count_append, hcalls, hx]

/-- The failure that is kept is the first one. -/
lemma fault_eq (h : Course events tape fault) : fault = tape.findSome? (failure? ·.2) := by
  have hclean : ∀ xs : List ReportEvent,
      (xs.map fun x => (x.call, (.ok () : Except ReportError Unit))).findSome? (failure? ·.2) = none := by
    simp [failure?]
  cases h with
  | clean => exact (hclean events).symm
  | broken before x after e replies h =>
    rw [List.findSome?_append, hclean]
    rfl

end Course

/-! ## The rows that are written -/

namespace RoundLog

variable {W : Type} [RoundWriter W]

/-- The calls of a writer that is taped from the start, with their replies. -/
def tape (w : W) (events : List ReportEvent) : List (WriterCall × Except ReportError Unit) :=
  (taped w events).writer.tape

/-- What a log of its own does with a writer, in the course of some events, as its calls tell. -/
structure CleanPrefix (w : W) (events : List ReportEvent) : Prop where
  /-- The calls are those of the log and its writer, and these follow a run in this way. -/
  observed : (taped w events).bare = events.foldl receive { writer := w } ∧
    ∀ {P : Type} (observations : List (Observation P)), observations.filterMap Observation.event? = events →
      observations.foldl observe { writer := w } = (taped w events).bare
  /-- Up to the first call that fails there is one for every event, in order, and it succeeds. -/
  calls : (tape w events).take (firstFailure (tape w events)) =
    (events.take (firstFailure (tape w events))).map fun x => (x.call, .ok ())
  /-- If a call fails, it is that of the event after these. -/
  failing : (tape w events)[firstFailure (tape w events)]?.map (·.1) =
    events[firstFailure (tape w events)]?.map ReportEvent.call
  /-- The rows that are written are those of the rounds before the first failure. -/
  rows : (tape w events).filterMap written? =
    (events.take (firstFailure (tape w events))).filterMap ReportEvent.row?
  /-- What is pending in a row is the sum of what is queued and what is staged, as a sum of words, which is that of the
  numbers unless it is too large for a word. -/
  pending : ∀ s r, ReportEvent.row? (.roundEnd s) = some r →
    r.pending = UInt64.ofNat s.queued + UInt64.ofNat s.staged ∧
      (s.queued + s.staged < UInt64.size → r.pending.toNat = s.queued + s.staged)
  /-- After the first failure the writer is given no row. -/
  no_row : ∀ c ∈ (tape w events).drop (firstFailure (tape w events) + 1), c.1 = .finish
  /-- The writer is told to finish as often as a run has ended. -/
  finishes : ((tape w events).map (·.1)).count .finish = events.count .runEnd
  /-- The failure that is taken out is the first one. -/
  taken : (taped w events).takeFault.1 = (tape w events).findSome? (failure? ·.2)
  /-- Nothing is left to be taken out again. -/
  taken_once : (taped w events).takeFault.2.takeFault.1 = none

/-- **What is written before the first failure has no gap, and the first failure is what is reported.** Any writer may
fail at any call, and a run may end more than once.

**Proof sketch.** One event keeps the shape of a `Course`: without a failure it adds its own call, and afterwards only
the end of a run adds one. So the calls of all events have this shape, and each part of the statement is read off its
two cases. -/
theorem cleanPrefix (w : W) (events : List ReportEvent) : CleanPrefix w events where
  observed := ⟨bare_taped w events, fun observations h => by rw [foldl_observe, h, bare_taped]⟩
  calls := (Course.taped w events).take_firstFailure
  failing := (Course.taped w events).call_firstFailure
  rows := (Course.taped w events).rows
  pending s r hr := by
    cases hr
    exact ⟨rfl, s.toNat_pendingWord⟩
  no_row := (Course.taped w events).drop_firstFailure
  finishes := (Course.taped w events).finishes
  taken := (Course.taped w events).fault_eq
  taken_once := rfl

/-- A writer that refuses the rows from the second round on, and to be finished, has written one row. It is told to
finish all the same, and what is reported is the refusal of the second round. -/
example :
    let events := [1, 2, 3, 4].map (fun round => ReportEvent.roundEnd ⟨round, ⟨.zero⟩, 1, [1], 1, 2⟩) ++ [.runEnd]
    let l := taped ({ failFrom := some 2, failFinish := true } : RefusingWriter) events
    l.writer.tape.filterMap written? = [⟨1, .zero, 1, 3⟩] ∧ l.writer.writer.finished = 1 ∧
      l.takeFault.1 = some (RefusingWriter.refusal "round 2") := by
  decide

end RoundLog

end EventSim
