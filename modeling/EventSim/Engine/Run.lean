import EventSim.Engine.Round

set_option autoImplicit false

/-!
# Runs

A run repeats rounds until the verdict on one of them ends it. It goes on only with a later horizon, and
there are finitely many times, so every run ends. An observer follows the run: it is a function that folds
the observations into a state of its own. The history of a run is what the observer sees that keeps
everything.

## Main definitions

* `EventSim.Observation` — what an observer is told.
* `EventSim.RunStats` — a finished run in figures.
* `EventSim.Engine.drive` — the rounds of a run.
* `EventSim.Engine.history` — the records of all rounds.
-/

namespace EventSim

/-- A finished run in figures. -/
structure RunStats where
  /-- The number of rounds. -/
  rounds : Nat := 0
  /-- The step of the horizon, which is the least lookahead. -/
  horizonDelta : SimTime := SimTime.zero
  /-- The horizon of the last round. -/
  finalHorizon : SimTime := SimTime.zero
  /-- Messages that were there before the first round. -/
  seeded : Nat := 0
  /-- Messages that were handled. -/
  delivered : Nat := 0
  /-- Messages that were scheduled in the rounds. -/
  produced : Nat := 0
  /-- Withdrawals that removed a message. -/
  cancelled : Nat := 0
  /-- Messages that remain because the run was cut off. -/
  undelivered : Nat := 0
  /-- The figures of each worker. -/
  workers : List WorkerStats := []
  deriving DecidableEq, Repr

/-- What an observer of a run is told. -/
inductive Observation (P : Type) where
  /-- The setup is complete. -/
  | runStart (delta : SimTime) (workers : Nat)
  /-- A round begins. -/
  | roundStart (round : Nat) (horizon : SimTime)
  /-- A round is over. -/
  | roundEnd (record : RoundRecord P)
  /-- The run has ended without error. -/
  | runEnd (stats : RunStats)

/-- How far a run has come when it ends. -/
structure Progress where
  /-- The number of rounds. -/
  rounds : Nat
  /-- The horizon of the last round. -/
  finalHorizon : SimTime
  /-- The number of messages that remain. -/
  undelivered : Nat
  deriving DecidableEq, Repr

namespace Engine

variable {U P α : Type} [Payload P] [SimUnit U P]

/-- Repeats rounds from the given one on. Returns the observer's state, the state of the engine after the
last round, and how the run ended. -/
def drive (observe : α → Observation P → α) (config : RunConfig) (round : Nat) (horizon : Horizon)
    (a : α) (e : Engine U P) : α × Engine U P × Except RunError Progress :=
  let a := observe a (.roundStart round horizon.current)
  let (e, record) := e.runRound config round horizon.current
  let a := observe a (.roundEnd record)
  match record.verdict config horizon with
  | .fault err => (a, e, .error err)
  | .finished undelivered => (a, e, .ok ⟨round, horizon.current, undelivered⟩)
  | .next next =>
    if _h : horizon.current < next.current then drive observe config (round + 1) next a e
    else (a, e, .error (.horizonStalled horizon.current next.current))
termination_by UInt64.size - horizon.current.rank.toNat
decreasing_by
  have hlt := SimTime.lt_iff_toNat.1 _h
  have hb := next.current.rank.toNat_lt_size
  omega

/-- The observer that keeps the record of every round. -/
def keepRecords (rs : Array (RoundRecord P)) : Observation P → Array (RoundRecord P)
  | .roundEnd r => rs.push r
  | _ => rs

/-- The records of all rounds from the given one on. -/
def history (config : RunConfig) (round : Nat) (horizon : Horizon) (e : Engine U P) :
    List (RoundRecord P) :=
  (drive keepRecords config round horizon #[] e).1.toList

end Engine

end EventSim
