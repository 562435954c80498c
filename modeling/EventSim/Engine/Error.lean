import EventSim.RunConfig
import EventSim.Unit.Context

set_option autoImplicit false

/-!
# Errors of a run

Everything that can go wrong while a run is set up or carried out, with the text that the user is told.

## Main definitions

* `EventSim.RunError` — the errors.
* `EventSim.RunError.message` — their texts.
-/

namespace EventSim

/-- The message in whose handling a worker broke down. -/
structure CrashSite where
  /-- The time of the message. -/
  time : SimTime
  /-- The unit that was handling it. -/
  unit : UnitId
  /-- The description of its payload. -/
  payload : String
  deriving DecidableEq, Repr

/-- What can go wrong with a run. -/
inductive RunError where
  /-- The configuration has a fault. -/
  | config (e : ConfigError)
  /-- The run has begun, and its setup is over. -/
  | alreadyStarted
  /-- There is no such worker. -/
  | workerOutOfRange (worker : WorkerId) (workers : Nat)
  /-- The unit's lookahead is not finite and positive. -/
  | invalidLookahead (unit : UnitId) (lookahead : Binary64)
  /-- There is no such unit. -/
  | unknownUnit (unit : UnitId)
  /-- All unit numbers are taken. -/
  | tooManyUnits
  /-- A message that was to be scheduled before the run was refused. -/
  | setup (e : UnitError)
  /-- A unit could not start. -/
  | startUp (unit : UnitId) (e : UnitError)
  /-- A unit failed to handle a message. -/
  | unitFailed (unit : UnitId) (worker : WorkerId) (time : SimTime) (payload : String) (e : UnitError)
  /-- A worker broke down, in the handling of a message if a site is given. -/
  | workerPanicked (worker : WorkerId) (site : Option CrashSite) (text : String)
  /-- The horizon does not move: the least lookahead is lost in the rounding of the time. -/
  | horizonStalled (current next : SimTime)
  deriving DecidableEq, Repr

/-- What the user is told. -/
def RunError.message : RunError → String
  | .config e => "scheduler configuration error: " ++ e.message
  | .alreadyStarted => "the run has already started"
  | .workerOutOfRange worker workers =>
    "worker " ++ worker.text ++ " out of range: the pool has " ++ toString workers ++ " workers"
  | .invalidLookahead unit lookahead =>
    "unit " ++ unit.text ++ " declares lookahead " ++ Layout.plain.write lookahead
      ++ ": must be finite and > 0"
  | .unknownUnit unit => "no registered unit " ++ unit.text
  | .tooManyUnits => "too many units: ids are 32-bit"
  | .setup e => "setup error: " ++ e.message
  | .startUp unit e => "unit " ++ unit.text ++ " failed to initialize: " ++ e.message
  | .unitFailed unit worker time payload e =>
    "unit " ++ unit.text ++ " on worker " ++ worker.text ++ " failed at " ++ time.text
      ++ " processing " ++ payload ++ ": " ++ e.message
  | .workerPanicked worker site text =>
    "worker " ++ worker.text ++ " panicked"
      ++ (match site with
          | some s => " at " ++ s.time.text ++ " in " ++ s.unit.text ++ " processing " ++ s.payload
          | none => "")
      ++ ": " ++ text
  | .horizonStalled current next =>
    "horizon cannot advance past " ++ current.text ++ " (next would be " ++ next.text
      ++ "): lookahead below time resolution"

end EventSim
