import EventSim.Engine.Error
import EventSim.Network.Path
import EventSim.Traffic.Draw

set_option autoImplicit false

/-!
# Populations of vehicles

A vehicle departs at some time and follows its route, which has at least one link. A population is a
sequence of vehicles, numbered in order. It is given trip by trip, or drawn: for every vehicle an origin
and a destination link, again until a path connects them, and then a time of departure in a window.

## Main definitions

* `EventSim.Vehicle`, `EventSim.Population`.
* `EventSim.Population.ofTrips` — the population of given trips.
* `EventSim.Departures`, `EventSim.Population.departures` — vehicles in groups that depart from one link.
* `EventSim.Population.draw` — a random population.
* `EventSim.TrafficError` — what can go wrong.
-/

namespace EventSim

/-- What can go wrong in setting up traffic. -/
inductive TrafficError where
  /-- A fault of the network or a route. -/
  | network (e : NetworkError)
  /-- An error of the scheduler. -/
  | run (e : RunError)
  /-- There are no links to depart from. -/
  | emptyNetwork
  /-- So many pairs of links were drawn, and none was connected. -/
  | unroutable (attempts : Nat)
  /-- Departures cannot lie in this window. -/
  | invalidWindow (start finish : Binary64)
  /-- A vehicle has no route. -/
  | emptyRoute (vehicle : VehicleId)
  /-- The assignment of links to workers is not for this network. -/
  | assignment (given links : Nat)
  /-- A road got another number than its link. -/
  | unitMismatch (link : LinkId)
  deriving DecidableEq, Repr

/-- What the user is told. -/
def TrafficError.message : TrafficError → String
  | .network e => "network error: " ++ e.message
  | .run e => "scheduler error: " ++ e.message
  | .emptyNetwork => "the network has no links"
  | .unroutable attempts =>
    "no connected origin/destination pair found after " ++ toString attempts ++ " attempts"
  | .invalidWindow start finish =>
    "invalid departure window [" ++ Layout.plain.write start ++ ", " ++ Layout.plain.write finish ++ ")"
  | .emptyRoute vehicle => "vehicle " ++ vehicle.text ++ " has an empty route"
  | .assignment given links =>
    "worker assignment covers " ++ toString given ++ " links, network has " ++ toString links
  | .unitMismatch link => "road for " ++ link.text ++ " registered as a different unit id"

/-- A vehicle. -/
structure Vehicle where
  /-- Its number. -/
  id : VehicleId
  /-- The links that it follows. -/
  route : List LinkId
  /-- When it enters the first of them. -/
  departure : SimTime
  deriving DecidableEq, Repr

/-- Vehicles in groups, one for each link from which some of them depart. -/
abbrev Departures := List (LinkId × List VehicleId)

namespace Departures

/-- Puts a vehicle at the end of the group of a link. If the link has no group, one is opened. -/
def enter (l : LinkId) (v : VehicleId) : Departures → Departures
  | [] => [(l, [v])]
  | (k, vs) :: groups => if k = l then (k, vs ++ [v]) :: groups else (k, vs) :: enter l v groups

/-- Takes the group of a link away. A link that has no group has no vehicles. -/
def remove (l : LinkId) : Departures → List VehicleId × Departures
  | [] => ([], [])
  | (k, vs) :: groups =>
    if k = l then (vs, groups) else ((remove l groups).1, (k, vs) :: (remove l groups).2)

end Departures

/-- The vehicles of a scenario, by vehicle number. -/
structure Population where
  /-- The vehicles. -/
  vehicles : Array Vehicle := #[]
  deriving DecidableEq, Repr

namespace Population

/-- The number of vehicles. -/
def size (p : Population) : Nat := p.vehicles.size

/-- A vehicle by its number. -/
def vehicle? (p : Population) (id : VehicleId) : Option Vehicle := p.vehicles[id.index]?

/-- The vehicles by the first link of their routes, entered one after another. -/
def departures (p : Population) : Departures :=
  p.vehicles.toList.foldl (fun groups v =>
    match v.route with
    | [] => groups
    | l :: _ => groups.enter l v.id) []

/-- The population of some trips, each given by its route and departure. No route may be empty. -/
def ofTrips (trips : List (List LinkId × SimTime)) : Except TrafficError Population := do
  let vehicles ← trips.zipIdx.mapM fun ((route, departure), i) =>
    let id : VehicleId := Id.ofNat i
    if route.isEmpty then .error (.emptyRoute id) else .ok (⟨id, route, departure⟩ : Vehicle)
  return ⟨vehicles.toArray⟩

end Population

/-! ## Drawing populations -/

/-- A half-open interval of departure times. -/
structure DepartureWindow where
  /-- The first possible departure. -/
  start : SimTime
  /-- The end of the window, at which no vehicle departs unless the window is a single instant. -/
  finish : SimTime
  deriving DecidableEq, Repr

/-- Why a population cannot be drawn: for a reason that is reported, or because the drawing breaks down. No memory can
hold so many vehicles then, or no number can be drawn from the window. -/
abbrev DrawFailure := NoResult TrafficError

namespace Population

/-- How many pairs of links are drawn for a vehicle before it is given up. -/
def maxAttempts : Nat := 100

variable {G : Type} [Draws G]

/-- Draws pairs of links until a path connects one, and returns the path's links. -/
def drawRoute (n : Network) (r : Router) : Nat → G → Except TrafficError (List LinkId × G)
  | 0, _ => .error (.unroutable maxAttempts)
  | k + 1, g =>
    let (origin, g) := Draws.below n.numberedLinks g
    let (destination, g) := Draws.below n.numberedLinks g
    match r.pathBetweenLinks n (Id.ofNat origin) (Id.ofNat destination) with
    | .ok path => .ok (path.links, g)
    | .error (.noRoute _ _) => drawRoute n r k g
    | .error e => .error (.network e)

/-- Draws a departure. In a window of a single instant there is nothing to draw. -/
def drawDeparture (w : DepartureWindow) (g : G) : Except DrawFailure (SimTime × G) :=
  if w.start < w.finish then
    if drawable w.start.secs w.finish.secs then
      let (secs, g) := Draws.between w.start.secs w.finish.secs g
      .ok (⟨secs⟩, g)
    else .error (.crash (undrawn w.start.secs w.finish.secs))
  else .ok (w.start, g)

/-- Draws some more trips, after those that are given in reverse order. -/
def drawTrips (n : Network) (r : Router) (w : DepartureWindow) :
    Nat → List (List LinkId × SimTime) → G → Except DrawFailure (List (List LinkId × SimTime))
  | 0, trips, _ => .ok trips.reverse
  | k + 1, trips, g => do
    let (route, g) ← (drawRoute n r maxAttempts g).mapError .error
    let (departure, g) ← drawDeparture w g
    drawTrips n r w k ((route, departure) :: trips) g

/-- A random population of the given size. Room for all trips is reserved before the first one is drawn. -/
def draw (n : Network) (r : Router) (count : Nat) (w : DepartureWindow) (g : G) :
    Except DrawFailure Population :=
  if !w.start.isFinite || !w.finish.isFinite || w.finish < w.start then
    .error (.error (.invalidWindow w.start.secs w.finish.secs))
  else if n.numberedLinks = 0 then .error (.error .emptyNetwork)
  else do
    (reserve 32 count).mapError .crash
    let trips ← drawTrips n r w count [] g
    (ofTrips trips).mapError .error

end Population

end EventSim
