import EventSim.Engine.Worker

set_option autoImplicit false

/-!
# Rounds

The engine is the state between rounds: all workers and the postbox. In a round every worker does its
part with what was staged for it in the round before; what its units send is then staged for the next
round. The parts do not depend on each other, so they could be done in any order or at the same time.
After the round the reports decide how the run goes on.

## Main definitions

* `EventSim.Engine` — the state between rounds.
* `EventSim.Engine.runRound` — one round.
* `EventSim.RoundRecord`, `EventSim.RoundSummary` — what happened in it.
* `EventSim.RoundRecord.verdict` — how the run goes on.
-/

namespace EventSim

/-- The state of a run between two rounds. -/
structure Engine (U P : Type) where
  /-- The workers, by worker number. -/
  workers : Array (Worker U P)
  /-- The routing table and what is staged. -/
  postbox : Postbox P

/-- A round in figures. -/
structure RoundSummary where
  /-- The number of the round, from one. -/
  round : Nat
  /-- Its horizon. -/
  horizon : SimTime
  /-- Messages that were handled. -/
  delivered : Nat
  /-- The same for each worker, by worker number. -/
  perWorker : List Nat
  /-- Messages left in the queues. -/
  queued : Nat
  /-- Messages that were scheduled in the round and wait for the next. -/
  staged : Nat
  deriving DecidableEq, Repr

/-- All messages that are still to come. -/
def RoundSummary.pending (s : RoundSummary) : Nat := s.queued + s.staged

/-- The same as a sum of words of 64 bits. The figures that a round ends with are numbers of messages in memory, but a
summary may come from elsewhere. -/
def RoundSummary.pendingWord (s : RoundSummary) : UInt64 := UInt64.ofNat s.queued + UInt64.ofNat s.staged

/-- The sum of words is the sum, unless that is too large for a word. -/
theorem RoundSummary.toNat_pendingWord (s : RoundSummary) (h : s.pending < UInt64.size) :
    s.pendingWord.toNat = s.pending := by
  rw [pendingWord, ← UInt64.ofNat_add, UInt64.toNat_ofNat']
  exact Nat.mod_eq_of_lt h

/-- What happened in a round. -/
structure RoundRecord (P : Type) where
  /-- The number of the round, from one. -/
  round : Nat
  /-- Its horizon. -/
  horizon : SimTime
  /-- The reports of all workers, by worker number. -/
  reports : List (Report P)
  /-- How many messages are staged for the next round. -/
  staged : Nat
  /-- When the first of them is due. -/
  stagedEarliest : Option SimTime

namespace RoundRecord

variable {P : Type}

/-- The round in figures. -/
def summary (r : RoundRecord P) : RoundSummary where
  round := r.round
  horizon := r.horizon
  delivered := (r.reports.map (·.delivered)).foldr (· + ·) 0
  perWorker := r.reports.map (·.delivered)
  queued := (r.reports.map (·.queued)).foldr (· + ·) 0
  staged := r.staged

/-- The error of the first worker that has one. -/
def fault (r : RoundRecord P) : Option RunError := r.reports.findSome? (·.fault)

/-- When the first message is due that waits in a queue or is staged. -/
def earliest (r : RoundRecord P) : Option SimTime :=
  SimTime.earliest? (r.reports.filterMap (·.nextTime) ++ r.stagedEarliest.toList)

end RoundRecord

/-- How a run goes on after a round. -/
inductive Verdict where
  /-- It fails. -/
  | fault (e : RunError)
  /-- It is over, and so many messages remain. -/
  | finished (undelivered : Nat)
  /-- It continues with this horizon. -/
  | next (horizon : Horizon)
  deriving DecidableEq, Repr

/-- How the run goes on after the round, which had the given horizon. A fault comes first; then the run
is over when nothing is pending or the horizon has passed the end; otherwise the horizon moves by one step,
or jumps to the earliest pending message if idle rounds are skipped. -/
def RoundRecord.verdict {P : Type} (config : RunConfig) (horizon : Horizon) (r : RoundRecord P) :
    Verdict :=
  match r.fault with
  | some e => .fault e
  | none =>
    if r.summary.pending = 0 then .finished 0
    else if config.reachedEnd horizon.current then .finished r.summary.pending
    else if config.skipIdleRounds then
      match r.earliest with
      | some t => .next (horizon.advanceTo t)
      | none => .next horizon.advance
    else .next horizon.advance

namespace Engine

variable {U P : Type} [Payload P] [SimUnit U P]

/-- What is staged for a worker from the given round. -/
def stagedFor (e : Engine U P) (worker : WorkerId) (round : Nat) : List (Envelope P) :=
  match e.postbox.inbox? worker with
  | some b => (b.slot round).toList
  | none => []

/-- One round: every worker does its part, then what was sent is staged. -/
def runRound (config : RunConfig) (round : Nat) (horizon : SimTime) (e : Engine U P) :
    Engine U P × RoundRecord P :=
  let results := e.workers.map fun w =>
    w.runRound config e.postbox.table round horizon (e.stagedFor w.id (round - 1))
  let reports := results.toList.map (·.2)
  let postbox := (e.postbox.clear (round - 1)).postAll round (reports.flatMap (·.sent))
  (⟨results.map (·.1), postbox⟩,
    ⟨round, horizon, reports, postbox.pendingDeliveries round, postbox.earliest round⟩)

end Engine

end EventSim
