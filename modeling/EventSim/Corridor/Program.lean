import EventSim.Corridor.Settings
import EventSim.Network.Load
import EventSim.Network.Share
import EventSim.Report.Tables
import EventSim.Traffic.Scenario

set_option autoImplicit false

/-!
# The corridor program

The program takes the path of its settings as first argument, or none for the defaults. It makes the
network, draws the population, shares the links among the workers, runs the scenario, writes the report and
prints a summary. It stops at the first thing that goes wrong and says what that is.

The program is written over an abstract file system, so that it can be followed without a disk.

## Main definitions

* `EventSim.Corridor.ProgramError` — what can go wrong, and what the user is told.
* `EventSim.Corridor.summary` — the lines that are printed at the end.
* `EventSim.Corridor.program` — the program.
-/

namespace EventSim.Corridor

/-- What can go wrong. -/
inductive ProgramError where
  /-- The file of the settings cannot be read as text. -/
  | unreadableSettings (path : String)
  /-- The settings are not what is expected. -/
  | invalidSettings
  /-- The configuration of the run has a fault. -/
  | config (e : ConfigError)
  /-- One table of the network is given without the other. -/
  | incompleteTables
  /-- A fault of the network. -/
  | network (e : NetworkError)
  /-- Traffic cannot be set up. -/
  | traffic (e : TrafficError)
  /-- The run fails. -/
  | run (e : RunError)
  /-- The report cannot be written. -/
  | report (e : ReportError)
  /-- The program breaks down. -/
  | crash (c : Crash)
  deriving DecidableEq, Repr

/-- What the user is told. -/
def ProgramError.message : ProgramError → String
  | .unreadableSettings path => "reading config " ++ path
  | .invalidSettings => "parsing config"
  | .config e => e.message
  | .incompleteTables => "nodes_csv and links_csv must be given together"
  | .network e => e.message
  | .traffic e => e.message
  | .run e => e.message
  | .report e => e.message
  | .crash c => c.message

/-- The exit code: 101 for a crash, and 1 for everything that is reported as an error. -/
def ProgramError.exitCode : ProgramError → Nat
  | .crash _ => 101
  | _ => 1

/-- What is written to standard error. The report of a crash begins with an empty line. -/
def ProgramError.standardError : ProgramError → String
  | .crash c => "\n" ++ c.message ++ "\n"
  | e => "Error: " ++ e.message ++ "\n"

/-! ## The summary -/

/-- The text, filled up with blanks on the right. -/
def padRight (width : Nat) (s : String) : String := s ++ String.ofList (List.replicate (width - s.length) ' ')

/-- The text, filled up with blanks on the left. -/
def padLeft (width : Nat) (s : String) : String := String.ofList (List.replicate (width - s.length) ' ') ++ s

/-- A line of the table of workers. -/
def workerLine (worker delivered produced busy : String) : String :=
  " ".intercalate [padRight 8 worker, padLeft 12 delivered, padLeft 12 produced, padLeft 10 busy]

/-- The figures of a worker. -/
def workerFigures (w : WorkerStats) : String :=
  workerLine (toString w.worker.index) (toString w.delivered) (toString w.produced)
    (toString w.busyRounds)

/-- The latest of some times. -/
def latest? (ts : List SimTime) : Option SimTime :=
  match ts with
  | [] => none
  | t :: ts => some (ts.foldl max t)

/-- The lines that are printed at the end. -/
def summary (s : Settings) (stats : RunStats) (arrivals : List Arrival) : List String :=
  ["  rounds       : " ++ toString stats.rounds,
    "  horizon step : " ++ stats.horizonDelta.secs.fixed 3 ++ " s",
    "  delivered    : " ++ toString stats.delivered,
    "  undelivered  : " ++ toString stats.undelivered,
    "  arrivals     : " ++ toString arrivals.length ++ " / " ++ toString s.vehicles]
  ++ (match latest? (arrivals.map (·.time)) with
      | some t => ["  last arrival : " ++ t.secs.fixed 1 ++ " s"]
      | none => [])
  ++ ["", workerLine "Worker" "Delivered" "Produced" "Busy", String.ofList (List.replicate 46 '-')]
  ++ stats.workers.map workerFigures
  ++ ["", "Output written to " ++ s.outputFolder]

/-! ## The program -/

/-- The population of the program, drawn with the shortest paths. -/
def drawPopulation (s : Settings) (n : Network) : Except ProgramError Population :=
  match Population.draw n Router.shortest s.vehicles s.departures (Xoshiro.ofSeed s.seed.toUInt64) with
  | .ok p => .ok p
  | .error (.error e) => .error (.traffic e)
  | .error (.crash c) => .error (.crash c)

/-- The workers of the links. -/
def Settings.share (s : Settings) (n : Network) : Except NetworkError (List WorkerId) :=
  match s.sharing with
  | .strips => n.strips s.run.workers
  | .roundRobin => dealOut n.linkCount s.run.workers

/-- The scheduler with all roads. -/
def prepare (s : Settings) (n : Network) : Except ProgramError (Scheduler Road TrafficEvent) := do
  let population ← drawPopulation s n
  let assignment ← (s.share n).mapError .network
  let scheduler ← (Scheduler.new s.run).mapError .run
  let (reply, scheduler) := scheduler.registerRoads n population assignment
  reply.mapError .traffic
  return scheduler

variable {m : Type → Type} [Monad m] [FileSystem m]

/-- The settings that the arguments ask for. -/
def settingsOf : List String → ExceptT ProgramError m Settings
  | [] => return {}
  | path :: _ => do
    let contents ← (FileSystem.read path : m (Except FileError (List UInt8)))
    match contents.toOption.bind Settings.ofBytes? with
    | none => throw (.unreadableSettings path)
    | some none => throw .invalidSettings
    | some (some s) => return s

/-- Why the program has no network. -/
def ProgramError.ofBuildFailure : BuildFailure → ProgramError
  | .error e => .network e
  | .crash c => .crash c

/-- The network that the settings ask for. -/
def networkOf (s : Settings) : ExceptT ProgramError m Network :=
  match s.nodesPath, s.linksPath with
  | some nodes, some links => ExceptT.adapt ProgramError.ofBuildFailure (ExceptT.mk (Network.load nodes links))
  | none, none => ExceptT.mk (return (allocateGrid s.gridSize).mapError .ofBuildFailure)
  | _, _ => throw .incompleteTables

/-- Saves the tables of a run that has failed, as far as that can be done. -/
def abandon {α : Type} (s : Settings) (log : RoundLog ReportTables) (e : ProgramError) :
    ExceptT ProgramError m α := do
  discard ((log.writer.save s.outputFolder).run : m (Except ReportError Unit))
  throw e

/-- The program. Returns the lines that it prints. -/
def program (args : List String) : ExceptT ProgramError m (List String) := do
  let s ← settingsOf args
  ExceptT.mk (return s.run.check.mapError .config)
  let n ← networkOf s
  let scheduler ← ExceptT.mk (return prepare s n)
  let tables ← ExceptT.adapt .report (ReportTables.create s.outputFolder)
  let (log, scheduler, outcome) := scheduler.run RoundLog.observe { writer := tables }
  match outcome with
  | .failed e => abandon s log (.run e)
  | .crashed c => abandon s log (.crash c)
  | .finished stats =>
    let arrivals := scheduler.arrivals
    ExceptT.adapt .report ((log.writer.addArrivals arrivals).save s.outputFolder)
    return summary s stats arrivals

end EventSim.Corridor
