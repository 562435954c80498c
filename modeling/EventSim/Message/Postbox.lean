import EventSim.Message.Inbox

set_option autoImplicit false

/-!
# Routing

The routing table says for every unit number which worker owns the unit and where among that worker's
units it stands. A number whose unit has been taken away has no route. The postbox is the routing table
together with the inboxes of all workers.

## Main definitions

* `EventSim.Route`, `EventSim.RoutingTable` — where units live.
* `EventSim.Postbox` — the routing table and all inboxes.
* `EventSim.Postbox.deposit`, `postAll` — staging envelopes for their targets' workers.
* `EventSim.Postbox.allocate`, `stage`, `post` — the same for tables that come from outside, whose routes may
  lead to workers that are not there.
-/

namespace EventSim

/-- Where a unit lives. -/
structure Route where
  /-- The worker that owns it. -/
  worker : WorkerId
  /-- Its place among the units of that worker. -/
  slot : Nat
  deriving DecidableEq, Repr

/-- Where all units live, by unit number. -/
structure RoutingTable where
  /-- The routes; a vacant number has none. -/
  routes : Array (Option Route)
  deriving Inhabited

/-- The complaint about an envelope for a unit that is not there. -/
structure UnknownUnit where
  /-- The unit that is not there. -/
  unit : UnitId
  deriving DecidableEq, Repr

/-- What the user is told. -/
def UnknownUnit.message (e : UnknownUnit) : String := "no registered unit " ++ e.unit.text

namespace RoutingTable

/-- The route of a unit, if it has one. -/
def route? (t : RoutingTable) (unit : UnitId) : Option Route := (t.routes[unit.index]?).join

/-- The route of a unit, or the complaint that there is none. -/
def route (t : RoutingTable) (unit : UnitId) : Except UnknownUnit Route :=
  match t.route? unit with
  | some r => .ok r
  | none => .error ⟨unit⟩

/-- The number of unit numbers, vacant ones included. -/
def size (t : RoutingTable) : Nat := t.routes.size

end RoutingTable

/-- The routing table and the inboxes of all workers. -/
structure Postbox (P : Type) where
  /-- Where units live. -/
  table : RoutingTable
  /-- The inbox of every worker, by worker number. -/
  inboxes : Array (Inbox P)

namespace Postbox

variable {P : Type}

/-- A postbox with empty inboxes for the given number of workers. -/
def empty (table : RoutingTable) (workers : Nat) : Postbox P :=
  ⟨table, Array.replicate workers {}⟩

/-- The inbox of a worker, if there is such a worker. -/
def inbox? (b : Postbox P) (worker : WorkerId) : Option (Inbox P) := b.inboxes[worker.index]?

/-- Stages an envelope that was produced in the given round for the worker that owns its target. An
envelope whose target has no route is left out. -/
def deposit (b : Postbox P) (round : Nat) (e : Envelope P) : Postbox P :=
  match b.table.route? e.target with
  | some r => { b with inboxes := b.inboxes.modify r.worker.index (·.post round e) }
  | none => b

/-- Stages envelopes one after another. -/
def postAll (b : Postbox P) (round : Nat) (es : List (Envelope P)) : Postbox P :=
  es.foldl (fun b e => b.deposit round e) b

/-- Empties the slot of the given round in every inbox. -/
def clear (b : Postbox P) (round : Nat) : Postbox P :=
  { b with inboxes := b.inboxes.map (·.clear round) }

/-- How many messages are staged from the given round, over all workers. -/
def pendingDeliveries (b : Postbox P) (round : Nat) : Nat :=
  (b.inboxes.toList.map (·.pendingDeliveries round)).foldr (· + ·) 0

/-- The earliest message staged from the given round, over all workers. -/
def earliest (b : Postbox P) (round : Nat) : Option SimTime :=
  SimTime.earliest? (b.inboxes.toList.filterMap (·.earliest round))

/-! ### Tables from outside -/

/-- A postbox with empty inboxes, for any number of workers. -/
def allocate (table : RoutingTable) (workers : Nat) : Except Crash (Postbox P) := do
  reserve 64 workers
  return empty table workers

/-- Stages an envelope as `deposit` does, but breaks down if the route leads to a worker without an inbox. -/
def stage (b : Postbox P) (round : Nat) (e : Envelope P) : Except Crash (Postbox P) :=
  match b.table.route? e.target with
  | some r =>
    if r.worker.index < b.inboxes.size then .ok (b.deposit round e)
    else .error (Crash.beyondEnd b.inboxes.size r.worker.index)
  | none => .ok b

/-- Stages an envelope, or complains that its target has no route. -/
def post (b : Postbox P) (round : Nat) (e : Envelope P) :
    Except Crash (Except UnknownUnit (Postbox P)) :=
  match b.table.route e.target with
  | .error u => .ok (.error u)
  | .ok _ => (b.stage round e).map .ok

end Postbox

end EventSim
