import EventSim.Engine.Scheduler
import EventSim.Traffic.Road

set_option autoImplicit false

/-!
# Scenarios

A scenario is a scheduler that holds one road for every link of a network, registered in the order of the
links, so that the number of a road is the number of its link. Roads address each other by these numbers, so
there must be no other units.

## Main definitions

* `EventSim.Scheduler.registerRoads` — one road for every link.
* `EventSim.Scheduler.arrivals` — the trips that have ended.
-/

namespace EventSim.Scheduler

/-- The faults of an assignment and a population for a network, before any road is registered. -/
def checkScenario (n : Network) (p : Population) (assignment : List WorkerId) :
    Except TrafficError Unit := do
  if assignment.length ≠ n.linkCount then
    throw (.assignment assignment.length n.linkCount)
  p.vehicles.toList.forM fun v => v.route.forM fun l => (n.checkLink l).mapError .network

/-- Registers the road of one link on a worker. -/
def registerRoad (p : Population) (s : Scheduler Road TrafficEvent) (id : LinkId) (link : Link)
    (departures : List VehicleId) (worker : WorkerId) : Except TrafficError Unit × Scheduler Road TrafficEvent :=
  match s.register (Road.ofLink id link p departures) worker with
  | (.error e, s) => (.error (.run e), s)
  | (.ok unit, s) =>
    if unit.index = id.index then (.ok (), s) else (.error (.unitMismatch id), s)

/-- Registers roads in order, up to the first that is refused. The vehicles that depart from a link are taken out of
their groups for its road. -/
def registerEach (p : Population) :
    Scheduler Road TrafficEvent → Departures → List ((LinkId × Link) × WorkerId) →
      Except TrafficError Unit × Scheduler Road TrafficEvent
  | s, _, [] => (.ok (), s)
  | s, groups, ((id, link), worker) :: rest =>
    match s.registerRoad p id link (groups.remove id).1 worker with
    | (.error e, s) => (.error e, s)
    | (.ok _, s) => registerEach p s (groups.remove id).2 rest

/-- Registers one road for every link, in the order of the links, on the worker that the assignment gives
it. -/
def registerRoads (s : Scheduler Road TrafficEvent) (n : Network) (p : Population)
    (assignment : List WorkerId) : Except TrafficError Unit × Scheduler Road TrafficEvent :=
  match checkScenario n p assignment with
  | .error e => (.error e, s)
  | .ok _ => registerEach p s p.departures ((n.linkIds.zip n.links.toList).zip assignment)

/-- The trips that have ended, ordered by vehicle; of one vehicle, in the order of the roads. -/
def arrivals (s : Scheduler Road TrafficEvent) : List Arrival :=
  (s.unitList.flatMap fun (_, r) => r.arrivals.toList).mergeSort
    fun a b => a.vehicle.index ≤ b.vehicle.index

end EventSim.Scheduler
