import EventSim.Engine.Error
import EventSim.Message.Queue
import EventSim.Unit.Script

set_option autoImplicit false

/-!
# Workers

A worker owns some units and the queue of the messages that wait for them. In a round it merges what was
staged for it into its queue, takes out everything that is due, and hands the messages to their units one
after another until one of them fails. It never touches another worker's units or queue: what its units
send leaves with the report of the round.

## Main definitions

* `EventSim.Slot`, `EventSim.Worker` — a unit with its message counter, and a worker.
* `EventSim.Worker.deliver` — handing one message to its unit.
* `EventSim.Worker.runRound` — the part of a round that one worker does.
* `EventSim.Handled`, `EventSim.Report` — what came of a message, and of the worker's part of a round.
-/

namespace EventSim

/-- A unit in the care of a worker. -/
structure Slot (U : Type) where
  /-- The number of the unit. -/
  id : UnitId
  /-- Its state. -/
  unit : U
  /-- The running number of its next message. -/
  nextSeq : Nat

/-- What a worker counts during a run. -/
structure WorkerStats where
  /-- The worker. -/
  worker : WorkerId
  /-- Messages that its units have handled. -/
  delivered : Nat := 0
  /-- Messages that its units have scheduled. -/
  produced : Nat := 0
  /-- Withdrawals that removed a message from its queue. -/
  cancelled : Nat := 0
  /-- Rounds in which a message was handled. -/
  busyRounds : Nat := 0
  /-- Rounds in which none was. -/
  idleRounds : Nat := 0
  deriving DecidableEq, Repr

/-- A worker with its units and its queue. -/
structure Worker (U P : Type) where
  /-- The number of the worker. -/
  id : WorkerId
  /-- Its units. -/
  slots : Array (Slot U)
  /-- The messages that wait for them. -/
  queue : MessageQueue P
  /-- Its counters. -/
  stats : WorkerStats

/-- How the handling of a message failed. -/
inductive Failure where
  /-- In a way that can be reported with the message. -/
  | reported (e : RunError)
  /-- Beyond that, the message could not even be described. -/
  | undescribed (c : Crash)
  deriving DecidableEq, Repr

/-- The error that a worker reports for a failure. -/
def Failure.error (worker : WorkerId) : Failure → RunError
  | .reported e => e
  | .undescribed c => .workerPanicked worker none c.message

/-- A message that was handed to its unit. -/
structure Handled (P : Type) where
  /-- The message. -/
  message : Message P
  /-- What the unit sent in response, in order. -/
  sent : List (Envelope P)
  /-- How the handling failed, if it did. -/
  failure : Option Failure

/-- What a worker reports at the end of its part of a round. -/
structure Report (P : Type) where
  /-- The worker. -/
  worker : WorkerId
  /-- The messages that were handed over, in order. -/
  handled : List (Handled P)
  /-- Withdrawals that removed a message. -/
  removed : Nat
  /-- The number of messages that were handled without failure. -/
  delivered : Nat
  /-- The number of messages that still wait. -/
  queued : Nat
  /-- When the first of them is due. -/
  nextTime : Option SimTime
  /-- The error that ended the worker's part of the round early. -/
  fault : Option RunError

/-- Everything that the worker's units sent in the round, in order. -/
def Report.sent {P : Type} (r : Report P) : List (Envelope P) := r.handled.flatMap (·.sent)

namespace Worker

variable {U P : Type} [Payload P] [SimUnit U P]

/-- A worker at the beginning of a run. -/
def init (id : WorkerId) (slots : Array (Slot U)) : Worker U P :=
  ⟨id, slots, MessageQueue.empty, { worker := id }⟩

/-- How the call for a message failed. The message is described only if it did. -/
def failure (worker : WorkerId) (m : Message P) (call : Call U P) : Option Failure :=
  let described (report : String → RunError) : Failure :=
    match Payload.describe m.payload with
    | .ok text => .reported (report text)
    | .error c => .undescribed c
  match call.ending with
  | .crashed c =>
    some (described fun text => .workerPanicked worker (some ⟨m.time, m.target, text⟩) c.message)
  | _ => call.fault.map fun e => described fun text => .unitFailed m.target worker m.time text e

/-- Hands a message to its unit. -/
def deliver (table : RoutingTable) (round : Nat) (horizon : SimTime) (w : Worker U P)
    (m : Message P) : Worker U P × Handled P :=
  match (table.route? m.target).bind fun r => (w.slots[r.slot]?).map fun s => (r.slot, s) with
  | none => (w, ⟨m, [], some (.reported (.unknownUnit m.target))⟩)
  | some (i, s) =>
    let view : View := ⟨s.id, m.time, horizon, round⟩
    let call := (SimUnit.process s.unit m view).run { view, table, nextSeq := s.nextSeq }
    let handled : Handled P := ⟨m, call.context.sent.toList, failure w.id m call⟩
    ({ w with
        slots := w.slots.setIfInBounds i { s with unit := call.unit, nextSeq := call.context.nextSeq }
        stats := { w.stats with produced := w.stats.produced + call.context.produced } },
      handled)

/-- Hands over messages in order, up to and including the first whose handling fails. -/
def deliverAll (table : RoutingTable) (round : Nat) (horizon : SimTime) :
    Worker U P → List (Message P) → Worker U P × List (Handled P)
  | w, [] => (w, [])
  | w, m :: ms =>
    let (w, h) := w.deliver table round horizon m
    if h.failure.isSome then (w, [h])
    else
      let (w, hs) := deliverAll table round horizon w ms
      (w, h :: hs)

/-- Merges staged envelopes into the queue. Returns how many withdrawals removed a message. -/
def accept (w : Worker U P) (staged : List (Envelope P)) : Worker U P × Nat :=
  let (removed, queue) := w.queue.merge staged
  ({ w with queue, stats := { w.stats with cancelled := w.stats.cancelled + removed } }, removed)

/-- Takes the messages that are due by the limit out of the queue. -/
def takeDue (w : Worker U P) (limit : SimTime) : Worker U P × List (Message P) :=
  let (batch, queue) := w.queue.popUpTo limit
  ({ w with queue }, batch)

/-- Counts a finished round. -/
def tally (w : Worker U P) (delivered : Nat) : Worker U P :=
  { w with stats := { w.stats with
      delivered := w.stats.delivered + delivered
      busyRounds := w.stats.busyRounds + (if 0 < delivered then 1 else 0)
      idleRounds := w.stats.idleRounds + (if 0 < delivered then 0 else 1) } }

/-- The worker's part of a round, with the envelopes that were staged for it in the round before. If a
failing message cannot be described, the worker's own account of the round is lost. -/
def runRound (config : RunConfig) (table : RoutingTable) (round : Nat) (horizon : SimTime)
    (staged : List (Envelope P)) (w : Worker U P) : Worker U P × Report P :=
  let (w, removed) := w.accept staged
  let (w, batch) := w.takeDue (config.deliveryLimit horizon)
  let (w, handled) := w.deliverAll table round horizon batch
  let failure : Option Failure := handled.findSome? Handled.failure
  let delivered : Nat := handled.countP fun h => h.failure.isNone
  match failure with
  | some (.undescribed c) =>
    (w, ⟨w.id, handled, removed, 0, 0, none, some (Failure.error w.id (.undescribed c))⟩)
  | _ =>
    (w.tally delivered,
      ⟨w.id, handled, removed, delivered, w.queue.size, w.queue.nextTime,
        failure.map (Failure.error w.id)⟩)

end Worker

end EventSim
