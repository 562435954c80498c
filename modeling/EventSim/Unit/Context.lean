import EventSim.Message.Postbox

set_option autoImplicit false

/-!
# What a unit may do

While a unit starts up or handles a message it acts on the outside world through a context. The context
shows it who and when it is and takes its requests: to schedule a message, to withdraw one, to give up
the complaint that was recorded last. Requests are checked at once. A message must have a finite time, not
before the horizon, and a target that exists; a withdrawal must name a target that exists. The first
refusal is recorded, so that a unit which ignores it cannot hide it.

What a unit sends is collected in the context and posted when the call is over. Nothing that happens
during a call can depend on it. A context counts without bound; where the counters are words and everything
is posted at once, the same requests are made at a desk (`EventSim.Unit.Desk`).

## Main definitions

* `EventSim.View` — what a unit sees during a call.
* `EventSim.UnitError` — why a request is refused or a unit gives up.
* `EventSim.Context` — the requests of one call.
* `EventSim.Context.schedule`, `unschedule`, `takeFault` — the requests.
-/

namespace EventSim

/-- What a unit sees during a call. -/
structure View where
  /-- The unit itself. -/
  unit : UnitId
  /-- The time of the message in hand, or the start of the run. -/
  now : SimTime
  /-- The earliest time that a new message may carry. -/
  horizon : SimTime
  /-- The current round; the setup of a run is round 0. -/
  round : Nat
  deriving DecidableEq, Repr

/-- Why a request is refused, or why a unit gives up. -/
inductive UnitError where
  /-- The message would be due earlier than what may already have been delivered. -/
  | causality (origin target : UnitId) (time horizon : SimTime) (payload : String)
  /-- The time of the message is infinite or a NaN. -/
  | invalidTime (secs : Binary64)
  /-- There is no such target. -/
  | unknownTarget (unit : UnitId)
  /-- The unit's own complaint. -/
  | model (what : String)
  deriving DecidableEq, Repr

/-- What the user is told. -/
def UnitError.message : UnitError → String
  | .causality origin target time horizon payload =>
    "causality violation: unit " ++ origin.text ++ " scheduled " ++ payload ++ " for "
      ++ target.text ++ " at " ++ time.text ++ ", earlier than horizon " ++ horizon.text
  | .invalidTime secs =>
    "invalid message time " ++ Layout.plain.write secs ++ ": must be finite"
  | .unknownTarget unit => "message target " ++ unit.text ++ " is not a registered unit"
  | .model what => "model error: " ++ what

/-- An envelope for a unit that is not there is a request with an unknown target. -/
def UnknownUnit.toUnitError (e : UnknownUnit) : UnitError := .unknownTarget e.unit

/-- The requests of one call, with what the call sees. -/
structure Context (P : Type) where
  /-- What the unit sees. -/
  view : View
  /-- The units that exist. -/
  table : RoutingTable
  /-- The running number of the unit's next message. -/
  nextSeq : Nat
  /-- What has been sent, in order. -/
  sent : Array (Envelope P) := #[]
  /-- How many messages have been scheduled. -/
  produced : Nat := 0
  /-- How many withdrawals have been sent. -/
  cancelled : Nat := 0
  /-- The first refusal that has not been given up. -/
  fault : Option UnitError := none

namespace Context

variable {P : Type}

/-- Records a refusal, unless one is recorded already. -/
def record (c : Context P) (e : UnitError) : Context P :=
  { c with fault := c.fault.or (some e) }

/-- The reply to a refused request. -/
def refuse {α : Type} (c : Context P) (e : UnitError) : Except UnitError α × Context P :=
  (.error e, c.record e)

/-- Schedules a message. The payload is described only if the message comes too early. -/
def schedule [Payload P] (c : Context P) (target : UnitId) (time : SimTime) (payload : P) :
    Except Crash (Except UnitError Handle × Context P) :=
  if !time.isFinite then .ok (c.refuse (.invalidTime time.secs))
  else if time < c.view.horizon then
    match Payload.describe payload with
    | .error crash => .error crash
    | .ok text => .ok (c.refuse (.causality c.view.unit target time c.view.horizon text))
  else
    match c.table.route target with
    | .error e => .ok (c.refuse e.toUnitError)
    | .ok _ =>
      let m : Message P := ⟨⟨c.view.unit, c.nextSeq⟩, target, time, payload⟩
      .ok (.ok m.handle,
        { c with
          nextSeq := c.nextSeq + 1
          sent := c.sent.push (.deliver m)
          produced := c.produced + 1 })

/-- Withdraws a message. Withdrawing one twice, or after it has been delivered, does no harm. -/
def unschedule (c : Context P) (h : Handle) : Except UnitError Unit × Context P :=
  match c.table.route h.target with
  | .error e => c.refuse e.toUnitError
  | .ok _ =>
    (.ok (), { c with sent := c.sent.push (.cancel h), cancelled := c.cancelled + 1 })

/-- Gives up the recorded refusal. -/
def takeFault (c : Context P) : Option UnitError × Context P := (c.fault, { c with fault := none })

end Context

end EventSim
