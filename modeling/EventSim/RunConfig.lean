import EventSim.Time

set_option autoImplicit false

/-!
# Configuration of a run

How many workers share the units, when the scenario begins, when it is cut off, and whether idle rounds
are skipped. `check` reports the first thing wrong with a configuration; a run only starts from one that
passes.

## Main definitions

* `EventSim.RunConfig` — the configuration.
* `EventSim.RunConfig.check` — the first fault of a configuration.
* `EventSim.RunConfig.deliveryLimit`, `EventSim.RunConfig.reachedEnd` — the effect of the end time.
-/

namespace EventSim

/-- What can be wrong with a configuration. -/
inductive ConfigError where
  /-- A time is infinite or a NaN. -/
  | invalidTime (secs : Binary64)
  /-- There is no worker. -/
  | emptyPool
  /-- There are more workers than worker numbers. -/
  | tooManyWorkers (count : Nat)
  /-- The run ends before it starts. -/
  | endBeforeStart (finish start : SimTime)
  deriving DecidableEq, Repr

/-- The largest number of workers. -/
def maxWorkers : Nat := 65535

/-- What the user is told. -/
def ConfigError.message : ConfigError → String
  | .invalidTime secs =>
    "invalid simulation time " ++ Layout.plain.write secs ++ ": must be finite"
  | .emptyPool => "configuration error: worker pool is empty (num_workers = 0)"
  | .tooManyWorkers count =>
    "configuration error: num_workers " ++ toString count ++ " exceeds the maximum of "
      ++ toString maxWorkers
  | .endBeforeStart finish start =>
    "configuration error: end_time " ++ finish.text ++ " is before start_time " ++ start.text

/-- The instant with the given seconds, if they are finite. -/
def SimTime.ofSecs? (secs : Binary64) : Except ConfigError SimTime :=
  if secs.isFinite then .ok ⟨secs⟩ else .error (.invalidTime secs)

/-- The configuration of a run. -/
structure RunConfig where
  /-- The number of workers. -/
  workers : Nat := 1
  /-- The first instant of the scenario. Nothing may be scheduled earlier. -/
  startTime : SimTime := SimTime.zero
  /-- The instant after which nothing is delivered, if there is one. -/
  endTime : Option SimTime := none
  /-- The horizon jumps to the earliest pending message and does not step through empty rounds. -/
  skipIdleRounds : Bool := false
  deriving DecidableEq, Repr

namespace RunConfig

/-- The first fault of the configuration. -/
def check (c : RunConfig) : Except ConfigError Unit := do
  if c.workers = 0 then throw .emptyPool
  if maxWorkers < c.workers then throw (.tooManyWorkers c.workers)
  discard (SimTime.ofSecs? c.startTime.secs)
  if let some finish := c.endTime then
    discard (SimTime.ofSecs? finish.secs)
    if finish < c.startTime then throw (.endBeforeStart finish c.startTime)

/-- The last instant that is delivered in a round with the given horizon. -/
def deliveryLimit (c : RunConfig) (horizon : SimTime) : SimTime :=
  match c.endTime with
  | some finish => min horizon finish
  | none => horizon

/-- Nothing produced after a round with the given horizon can fall before the end of the run. -/
def reachedEnd (c : RunConfig) (horizon : SimTime) : Bool :=
  match c.endTime with
  | some finish => finish < horizon
  | none => false

end RunConfig

end EventSim
