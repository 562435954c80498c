import EventSim.Traffic.Population
import EventSim.Unit.Script

set_option autoImplicit false

/-!
# Roads

A road is a link as a unit of the simulation. A vehicle that enters it at time `t` leaves it at
`max (t + free travel time) (next free exit)`, and the next exit is free one headway after that. On leaving
it enters the next link of its route, or arrives. Nothing that a road sends can be earlier than its free
travel time after what it handles; this is its lookahead.

## Main definitions

* `EventSim.TrafficEvent` — a vehicle enters a road.
* `EventSim.Road` — the unit.
* `EventSim.Road.enter` — the rule of exit times.
* `EventSim.Arrival` — the end of a trip.
-/

namespace EventSim

/-- A vehicle enters the road that is the given leg of its route. -/
structure TrafficEvent where
  /-- The vehicle. -/
  vehicle : VehicleId
  /-- The leg of its route, from zero. It is a word of 32 bits. -/
  leg : UInt32
  deriving DecidableEq, Repr

instance : Payload TrafficEvent where
  describe e :=
    .ok ("Enter \x7b vehicle: " ++ e.vehicle.text ++ ", leg: " ++ toString e.leg ++ " \x7d")

/-- A vehicle has left the last link of its route. -/
structure Arrival where
  /-- The vehicle. -/
  vehicle : VehicleId
  /-- The link that it left. -/
  link : LinkId
  /-- When it left. -/
  time : SimTime
  deriving DecidableEq, Repr

/-- A link as a unit. -/
structure Road where
  /-- The link. -/
  link : LinkId
  /-- Its free travel time in seconds. -/
  freeTravel : Binary64
  /-- The seconds between two vehicles that leave it. -/
  headway : Binary64
  /-- When the next vehicle may leave. -/
  nextFreeExit : SimTime
  /-- All vehicles. -/
  population : Population
  /-- The vehicles that depart from here. -/
  departures : List VehicleId
  /-- The trips that have ended here, in order of exit. -/
  arrivals : Array Arrival
  /-- How many vehicles have entered. -/
  entered : Nat
  /-- The seconds that vehicles have waited for their exits, in all. -/
  queueDelay : Binary64

namespace Road

/-- The road of a link, before any vehicle has entered it. -/
def ofLink (id : LinkId) (link : Link) (population : Population) (departures : List VehicleId) :
    Road where
  link := id
  freeTravel := link.freeTravel
  headway := link.headway
  nextFreeExit := ⟨Binary64.negInfinity⟩
  population := population
  departures := departures
  arrivals := #[]
  entered := 0
  queueDelay := Binary64.zero

/-- When a vehicle leaves that enters at the given time. -/
def exitTime (r : Road) (now : SimTime) : SimTime := max (now.after r.freeTravel) r.nextFreeExit

/-- The road after a vehicle has entered at the given time. -/
def enter (r : Road) (now : SimTime) : Road :=
  let exit := r.exitTime now
  { r with
    queueDelay := r.queueDelay + exit.since (now.after r.freeTravel)
    nextFreeExit := exit.after r.headway
    entered := r.entered + 1 }

/-- The road's complaint. -/
def complaint (r : Road) (what : String) : UnitError := .model ("road " ++ r.link.text ++ ": " ++ what)

/-- The complaint about a vehicle that is not in the population. -/
def unknownVehicle (r : Road) (v : VehicleId) : UnitError := r.complaint ("unknown vehicle " ++ v.text)

/-- Sends a departing vehicle onto the road. -/
def depart (self : UnitId) (v : VehicleId) : Routine Road TrafficEvent Unit := do
  let r ← Routine.state
  match r.population.vehicle? v with
  | none => Routine.fail (r.unknownVehicle v)
  | some vehicle =>
    discard (Routine.require (← Routine.schedule self vehicle.departure ⟨v, 0⟩))

/-- Lets a vehicle pass. -/
def pass (m : Message TrafficEvent) : Routine Road TrafficEvent Unit := do
  let r ← Routine.state
  let ⟨v, leg⟩ := m.payload
  match r.population.vehicle? v with
  | none => Routine.fail (r.unknownVehicle v)
  | some vehicle =>
    if vehicle.route[leg.toNat]? ≠ some r.link then
      Routine.fail (r.complaint (v.text ++ " is not routed here at leg " ++ toString leg))
    else
      let exit := r.exitTime m.time
      Routine.update (enter · m.time)
      match vehicle.route[leg.toNat + 1]? with
      | some next =>
        discard (Routine.require (← Routine.schedule (Id.ofNat next.index) exit ⟨v, leg + 1⟩))
      | none => Routine.update fun r => { r with arrivals := r.arrivals.push ⟨v, r.link, exit⟩ }

instance : SimUnit Road TrafficEvent where
  lookahead r := ⟨r.freeTravel⟩
  start r view := (r.departures.forM (depart view.unit)).script r
  process r m _ := (pass m).script r

end Road

end EventSim
