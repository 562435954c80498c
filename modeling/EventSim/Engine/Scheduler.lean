import EventSim.Engine.Run

set_option autoImplicit false

/-!
# The scheduler

The scheduler owns all units and takes a run from its setup to its end. During setup units are registered
and pinned to workers, and the first messages, the *seeds*, are scheduled. A run then distributes the units
over the workers, stages the seeds, lets every unit start, and repeats rounds. Whatever comes of it, the
units are handed back. A scheduler runs once.

Its life goes from `setup` through `running` to `finished` or `failed`. It only remains `running` if a unit
breaks down while it starts.

## Main definitions

* `EventSim.Scheduler` — the units, the seeds and the state of the run.
* `EventSim.Scheduler.register`, `unregister`, `schedule`, `unschedule` — the setup.
* `EventSim.Scheduler.run` — the run.
* `EventSim.Placement` — the distribution of units over workers.
-/

namespace EventSim

/-- The life of a scheduler. -/
inductive RunState where
  /-- Units and seeds are accepted. -/
  | setup
  /-- A run is under way. -/
  | running
  /-- The run has ended without error. -/
  | finished
  /-- The run has ended with an error. -/
  | failed
  deriving DecidableEq, Repr

/-- A unit in the care of the scheduler. -/
structure Registered (U : Type) where
  /-- Its state. -/
  unit : U
  /-- The worker that it is pinned to. -/
  worker : WorkerId
  /-- The running number of its next message. -/
  nextSeq : Nat

/-! ## Placement -/

/-- The distribution of units over workers. -/
structure Placement (U : Type) where
  /-- Where each unit is, by unit number. -/
  routes : Array (Option Route)
  /-- The units of each worker, by worker number. -/
  slots : Array (Array (Slot U))

namespace Placement

variable {U : Type}

/-- Places the unit with the next number; the number may be vacant. -/
def add (p : Placement U) : Option (Registered U) → Placement U
  | none => { p with routes := p.routes.push none }
  | some r =>
    let place := (p.slots[r.worker.index]?.getD #[]).size
    let slot : Slot U := ⟨Id.ofNat p.routes.size, r.unit, r.nextSeq⟩
    { routes := p.routes.push (some ⟨r.worker, place⟩)
      slots := p.slots.modify r.worker.index (·.push slot) }

/-- Places all units, in the order of their numbers. -/
def ofUnits (units : Array (Option (Registered U))) (workers : Nat) : Placement U :=
  units.foldl add ⟨#[], Array.replicate workers #[]⟩

end Placement

/-! ## Starting units -/

/-- How far the units of one worker have come with starting. -/
structure StartUp (U P : Type) where
  /-- The units, started up to the first that could not. -/
  slots : List (Slot U)
  /-- What they sent, in order. -/
  sent : List (Envelope P)
  /-- The error of the first that could not start. -/
  fault : Option RunError

/-- Starts units in order, up to the first that cannot. -/
def StartUp.ofSlots {U P : Type} [Payload P] [SimUnit U P] (table : RoutingTable) (start : SimTime) :
    List (Slot U) → Except Crash (StartUp U P)
  | [] => .ok ⟨[], [], none⟩
  | s :: rest =>
    let view : View := ⟨s.id, start, start, 0⟩
    let call := (SimUnit.start s.unit view).run { view, table, nextSeq := s.nextSeq }
    let s : Slot U := { s with unit := call.unit, nextSeq := call.context.nextSeq }
    let sent := call.context.sent.toList
    match call.ending with
    | .crashed c => .error c
    | _ =>
      match call.fault with
      | some e => .ok ⟨s :: rest, sent, some (.startUp s.id e)⟩
      | none => do
        let others ← ofSlots table start rest
        return ⟨s :: others.slots, sent ++ others.sent, others.fault⟩

/-! ## The scheduler -/

/-- Units, seeds and the state of the run. -/
structure Scheduler (U P : Type) where
  /-- The configuration. -/
  config : RunConfig
  /-- Where in its life the scheduler is. -/
  state : RunState := .setup
  /-- The units by number. A number whose unit was taken away is vacant and never given again. -/
  units : Array (Option (Registered U)) := #[]
  /-- The messages scheduled before the run, in order. -/
  seeds : Array (Message P) := #[]
  /-- The running number of the next seed. -/
  nextSetupSeq : Nat := 0
  /-- The figures of the finished run. -/
  stats : RunStats := {}

/-- How a run ended. -/
inductive RunOutcome where
  /-- Without error. -/
  | finished (stats : RunStats)
  /-- With an error. -/
  | failed (e : RunError)
  /-- A unit broke down while it started. -/
  | crashed (c : Crash)
  deriving DecidableEq, Repr

namespace Scheduler

variable {U P : Type}

/-- A scheduler without units, if the configuration has no fault. -/
def new (config : RunConfig) : Except RunError (Scheduler U P) :=
  match config.check with
  | .ok _ => .ok { config }
  | .error e => .error (.config e)

/-! ## Inspection -/

/-- What is registered under a number. -/
def registered? (s : Scheduler U P) (id : UnitId) : Option (Registered U) := (s.units[id.index]?).join

/-- The state of a unit. -/
def unit? (s : Scheduler U P) (id : UnitId) : Option U := (s.registered? id).map (·.unit)

/-- The worker that a unit is pinned to. -/
def workerOf? (s : Scheduler U P) (id : UnitId) : Option WorkerId := (s.registered? id).map (·.worker)

/-- The number of unit numbers that have been given, vacant ones included. -/
def unitCount (s : Scheduler U P) : Nat := s.units.size

/-- All units in the order of their numbers. -/
def unitList (s : Scheduler U P) : List (UnitId × U) :=
  s.units.toList.zipIdx.filterMap fun (r, i) => r.map fun r => (Id.ofNat i, r.unit)

/-- Changes the state of a unit. -/
def updateUnit (s : Scheduler U P) (id : UnitId) (f : U → U) : Scheduler U P :=
  { s with units := s.units.modify id.index (·.map fun r => { r with unit := f r.unit }) }

/-! ## Setup -/

/-- Adds a unit and pins it to a worker. The unit gets the next number. -/
def register [SimUnit U P] (s : Scheduler U P) (unit : U) (worker : WorkerId) :
    Except RunError UnitId × Scheduler U P :=
  if s.state ≠ .setup then (.error .alreadyStarted, s)
  else if s.config.workers ≤ worker.index then
    (.error (.workerOutOfRange worker s.config.workers), s)
  else
    match (Id.ofNat? s.units.size : Option UnitId) with
    | none => (.error .tooManyUnits, s)
    | some id =>
      let lookahead := (SimUnit.lookahead unit).secs
      if id = Id.invalid then (.error .tooManyUnits, s)
      else if !lookahead.isPositiveFinite then (.error (.invalidLookahead id lookahead), s)
      else (.ok id, { s with units := s.units.push (some ⟨unit, worker, 0⟩) })

/-- Takes a unit away and hands it back, during setup or when the run is over. The seeds for it are
dropped, and its number stays vacant. -/
def unregister (s : Scheduler U P) (id : UnitId) : Except RunError U × Scheduler U P :=
  if s.state = .running then (.error .alreadyStarted, s)
  else
    match s.registered? id with
    | none => (.error (.unknownUnit id), s)
    | some r =>
      (.ok r.unit,
        { s with
          units := s.units.setIfInBounds id.index none
          seeds := s.seeds.filter (·.target ≠ id) })

/-- Schedules a seed. It may not be due before the start. -/
def schedule [Payload P] (s : Scheduler U P) (target : UnitId) (time : SimTime) (payload : P) :
    Except Crash (Except RunError Handle × Scheduler U P) :=
  if s.state ≠ .setup then .ok (.error .alreadyStarted, s)
  else if !time.isFinite then .ok (.error (.setup (.invalidTime time.secs)), s)
  else if time < s.config.startTime then
    match Payload.describe payload with
    | .error c => .error c
    | .ok text =>
      .ok (.error (.setup (.causality UnitId.setup target time s.config.startTime text)), s)
  else if (s.registered? target).isNone then .ok (.error (.unknownUnit target), s)
  else
    let m : Message P := ⟨⟨UnitId.setup, s.nextSetupSeq⟩, target, time, payload⟩
    .ok (.ok m.handle, { s with nextSetupSeq := s.nextSetupSeq + 1, seeds := s.seeds.push m })

/-- Withdraws a seed. Tells whether it was still there. -/
def unschedule (s : Scheduler U P) (h : Handle) : Except RunError Bool × Scheduler U P :=
  if s.state ≠ .setup then (.error .alreadyStarted, s)
  else (.ok (s.seeds.any (·.id = h.id)), { s with seeds := s.seeds.filter (·.id ≠ h.id) })

/-! ## The run -/

/-- The least lookahead of all units, if there are units. -/
def leastLookahead [SimUnit U P] (s : Scheduler U P) : Option SimTime :=
  SimTime.earliest? (s.unitList.map fun (_, u) => SimUnit.lookahead u)

/-- Hands the units of one worker back. -/
def restoreSlots (worker : WorkerId) (s : Scheduler U P) (slots : List (Slot U)) : Scheduler U P :=
  { s with
    units := slots.foldl
      (fun units x => units.setIfInBounds x.id.index (some ⟨x.unit, worker, x.nextSeq⟩)) s.units }

/-- Hands the units of all workers back, given by worker number. -/
def restore (s : Scheduler U P) (slots : List (List (Slot U))) : Scheduler U P :=
  slots.zipIdx.foldl (fun s (xs, w) => s.restoreSlots (Id.ofNat w) xs) s

/-- The figures of a run that ended without error. -/
def statsOf (delta : SimTime) (seeded : Nat) (e : Engine U P) (p : Progress) : RunStats :=
  let workers := e.workers.toList.map (·.stats)
  { rounds := p.rounds
    horizonDelta := delta
    finalHorizon := p.finalHorizon
    seeded
    delivered := (workers.map (·.delivered)).foldr (· + ·) 0
    produced := (workers.map (·.produced)).foldr (· + ·) 0
    cancelled := (workers.map (·.cancelled)).foldr (· + ·) 0
    undelivered := p.undelivered
    workers }

variable {α : Type} [Payload P] [SimUnit U P]

/-- The state of the engine before the first round: the units distributed, the seeds staged, and then
whatever the units sent when they started. -/
def engineOf (table : RoutingTable) (seeds : Array (Message P)) (started : List (StartUp U P)) :
    Engine U P :=
  let staged := (Postbox.empty table started.length).postAll 0 (seeds.toList.map .deliver)
  { workers := (started.zipIdx.map fun (u, w) => Worker.init (Id.ofNat w) u.slots.toArray).toArray
    postbox := staged.postAll 0 (started.flatMap (·.sent)) }

/-- The rounds of a run, once its horizon step is known to move the horizon. -/
def execute (observe : α → Observation P → α) (a : α) (s : Scheduler U P) (delta : SimTime) :
    α × Scheduler U P × RunOutcome :=
  let start := s.config.startTime
  let placement := Placement.ofUnits s.units s.config.workers
  let table : RoutingTable := ⟨placement.routes⟩
  let slots := placement.slots.toList.map (·.toList)
  let vacated : Scheduler U P :=
    { s with state := .running, units := Array.replicate s.units.size none, seeds := #[] }
  match s.seeds.find? fun m => (table.route? m.target).isNone with
  | some m => (a, { vacated.restore slots with state := .failed }, .failed (.unknownUnit m.target))
  | none =>
    match slots.mapM (StartUp.ofSlots (P := P) table start) with
    | .error c => (a, vacated, .crashed c)
    | .ok started =>
      match started.findSome? (·.fault) with
      | some e =>
        (a, { vacated.restore (started.map (·.slots)) with state := .failed }, .failed e)
      | none =>
        let engine := engineOf table s.seeds started
        let seeded := engine.postbox.pendingDeliveries 0
        let a := observe a (.runStart delta s.config.workers)
        let (a, engine, result) := engine.drive observe s.config 1 (Horizon.first start delta) a
        let back := vacated.restore (engine.workers.toList.map (·.slots.toList))
        match result with
        | .error e => (a, { back with state := .failed }, .failed e)
        | .ok progress =>
          let stats := statsOf delta seeded engine progress
          (observe a (.runEnd stats), { back with state := .finished, stats }, .finished stats)

/-- Carries out the run. Returns the observer's state, the scheduler with its units back, and how the run
ended. The error of the first worker that has one stops the run. -/
def run (observe : α → Observation P → α) (a : α) (s : Scheduler U P) :
    α × Scheduler U P × RunOutcome :=
  let start := s.config.startTime
  if s.state ≠ .setup then (a, s, .failed .alreadyStarted)
  else
    match s.leastLookahead with
    | none =>
      let stats : RunStats := { finalHorizon := start }
      let a := observe a (.runStart SimTime.zero s.config.workers)
      (observe a (.runEnd stats), { s with state := .finished, stats }, .finished stats)
    | some delta =>
      let first := (Horizon.first start delta).current
      if start < first then s.execute observe a delta
      else (a, { s with state := .failed }, .failed (.horizonStalled start first))

end Scheduler

end EventSim
