import EventSim.Unit.Context

set_option autoImplicit false

/-!
# Requests one after another

A unit makes its requests one after another, at a *desk*: what it sees, the postbox into which every granted
request is posted at once, and the counters of the call. The counters are words of 64 bits. They are given
from outside, so they may be anything, and the one after the largest word is zero.

Every request is checked by a context of its own. If posting breaks down, everything is as it was before the
request.

## Main definitions

* `EventSim.UnitRequest`, `EventSim.UnitReply` — requests and replies.
* `EventSim.Context.ask`, `EventSim.Context.askAll` — the requests of one context.
* `EventSim.Desk`, `EventSim.Desk.ask`, `EventSim.Desk.askAll` — the same where everything is posted at once.
-/

namespace EventSim

variable {P : Type}

/-! ## Requests and replies -/

/-- What a unit can ask for in a call. -/
inductive UnitRequest (P : Type) where
  /-- A message is scheduled. -/
  | schedule (target : UnitId) (time : SimTime) (payload : P)
  /-- A message is scheduled for the unit itself. -/
  | scheduleSelf (time : SimTime) (payload : P)
  /-- A message is withdrawn. -/
  | unschedule (handle : Handle)
  /-- The recorded refusal is given up. -/
  | takeFault

/-- What becomes of a request. -/
inductive UnitReply where
  /-- The message is scheduled. -/
  | scheduled (handle : Handle)
  /-- The withdrawal is sent. -/
  | withdrawn
  /-- The request is refused. -/
  | refused (e : UnitError)
  /-- This was recorded. -/
  | taken (e : Option UnitError)
  /-- The request broke down. -/
  | crashed (c : Crash)
  deriving DecidableEq

/-- The handle of the message that is scheduled. -/
def UnitReply.handle? : UnitReply → Option Handle
  | .scheduled h => some h
  | _ => none

/-! ## The requests of one context -/

namespace Context

/-- Asks for a message to be scheduled. -/
def askSchedule [Payload P] (c : Context P) (target : UnitId) (time : SimTime) (payload : P) :
    UnitReply × Context P :=
  match c.schedule target time payload with
  | .error crash => (.crashed crash, c)
  | .ok (.error e, c) => (.refused e, c)
  | .ok (.ok h, c) => (.scheduled h, c)

/-- Asks for a message to be withdrawn. -/
def askUnschedule (c : Context P) (h : Handle) : UnitReply × Context P :=
  match c.unschedule h with
  | (.error e, c) => (.refused e, c)
  | (.ok (), c) => (.withdrawn, c)

/-- Makes a request. -/
def ask [Payload P] (c : Context P) : UnitRequest P → UnitReply × Context P
  | .schedule target time payload => c.askSchedule target time payload
  | .scheduleSelf time payload => c.askSchedule c.view.unit time payload
  | .unschedule h => c.askUnschedule h
  | .takeFault => (.taken c.takeFault.1, c.takeFault.2)

/-- Makes requests one after another. -/
def askAll [Payload P] (c : Context P) : List (UnitRequest P) → List UnitReply × Context P
  | [] => ([], c)
  | r :: rs => ((c.ask r).1 :: ((c.ask r).2.askAll rs).1, ((c.ask r).2.askAll rs).2)

end Context

/-! ## Desks -/

/-- A call that posts at once. -/
structure Desk (P : Type) where
  /-- What the unit sees. -/
  view : View
  /-- The postbox. -/
  postbox : Postbox P
  /-- The running number of the unit's next message. -/
  nextSeq : UInt64
  /-- How many messages have been scheduled. -/
  produced : UInt64 := 0
  /-- How many withdrawals have been sent. -/
  cancelled : UInt64 := 0
  /-- The first refusal that has not been given up. -/
  fault : Option UnitError := none

namespace Desk

/-- The context of the next request. -/
def context (d : Desk P) : Context P where
  view := d.view
  table := d.postbox.table
  nextSeq := d.nextSeq.toNat
  fault := d.fault

/-- Ends a request: what its context has sent is posted, and its counters are added. -/
def settle (d : Desk P) (reply : UnitReply) (c : Context P) : UnitReply × Desk P :=
  match c.sent.toList.foldlM (·.stage d.view.round ·) d.postbox with
  | .ok b =>
    (reply, {
      view := d.view
      postbox := b
      nextSeq := UInt64.ofNat c.nextSeq
      produced := d.produced + UInt64.ofNat c.produced
      cancelled := d.cancelled + UInt64.ofNat c.cancelled
      fault := c.fault })
  | .error crash => (.crashed crash, d)

/-- Makes a request. -/
def ask [Payload P] (d : Desk P) (r : UnitRequest P) : UnitReply × Desk P :=
  d.settle (d.context.ask r).1 (d.context.ask r).2

/-- Makes requests one after another. -/
def askAll [Payload P] (d : Desk P) : List (UnitRequest P) → List UnitReply × Desk P
  | [] => ([], d)
  | r :: rs => ((d.ask r).1 :: ((d.ask r).2.askAll rs).1, ((d.ask r).2.askAll rs).2)

end Desk

end EventSim
