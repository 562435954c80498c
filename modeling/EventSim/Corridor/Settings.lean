import EventSim.Json.Record
import EventSim.Traffic.Population

set_option autoImplicit false

/-!
# Settings of the corridor program

The program runs traffic on a road network, which is a grid or comes from two tables. Its settings are read
from JSON, as an object or as an array in the order of the members, and every member has a default.

## Main definitions

* `EventSim.Corridor.Settings` — the settings with their defaults.
* `EventSim.Corridor.Settings.ofJson?` — settings from JSON.
-/

namespace EventSim.Corridor

/-- How the links are shared among the workers. -/
inductive Sharing where
  /-- In vertical strips of the map. -/
  | strips
  /-- One after another in turn. -/
  | roundRobin
  deriving DecidableEq, Repr

/-- The settings of the program. -/
structure Settings where
  /-- The configuration of the run. -/
  run : RunConfig := { workers := 4, skipIdleRounds := true }
  /-- The number of crossings on a side of the grid. -/
  gridSize : Nat := 12
  /-- The file of the table of nodes, if the network is not a grid. -/
  nodesPath : Option String := none
  /-- The file of the table of links, if the network is not a grid. -/
  linksPath : Option String := none
  /-- The number of vehicles. -/
  vehicles : Nat := 5000
  /-- The seed of the population. -/
  seed : Nat := 42
  /-- The departures of the vehicles. -/
  departures : DepartureWindow := ⟨SimTime.zero, ⟨Binary64.ofNat 1800⟩⟩
  /-- How the links are shared. -/
  sharing : Sharing := .strips
  /-- The folder of the report. -/
  outputFolder : String := "output/corridor"
  /-- The number of rounds between two notes of progress, which are only made where a log is kept. -/
  progressEvery : Nat := 500
  deriving DecidableEq, Repr

namespace Settings

/-- The names of the members, in order. -/
def members : List String :=
  ["sim", "grid_size", "nodes_csv", "links_csv", "vehicles", "seed", "departure_start", "departure_end",
    "partition", "output_dir", "progress_every"]

/-- A way of sharing by its name. -/
def sharingNamed? : String → Option Sharing
  | "strips" => some .strips
  | "round_robin" => some .roundRobin
  | _ => none

/-- A way of sharing: its name, or an object that has the name as its only member, with nothing in it. -/
def sharing? : JsonValue → Option Sharing
  | .string (some name) => sharingNamed? name
  | .object [(some name, .null)] => sharingNamed? name
  | _ => none

/-- Settings from JSON; what is missing has its default. -/
def ofJson? (v : JsonValue) : Option Settings :=
  let d : Settings := {}
  let word (v : JsonValue) : Option Nat := v.natBelow? UInt64.size
  let path (v : JsonValue) : Option (Option String) := v.nullable? JsonValue.text?
  match v.record? members with
  | some [run, grid, nodes, links, vehicles, seed, start, finish, sharing, folder, progress] => do
    return { run := ← JsonValue.orDefault? RunConfig.ofJson? d.run run
             gridSize := ← JsonValue.orDefault? word d.gridSize grid
             nodesPath := ← JsonValue.orDefault? path d.nodesPath nodes
             linksPath := ← JsonValue.orDefault? path d.linksPath links
             vehicles := ← JsonValue.orDefault? word d.vehicles vehicles
             seed := ← JsonValue.orDefault? word d.seed seed
             departures :=
               ⟨← JsonValue.orDefault? SimTime.ofJson? d.departures.start start,
                ← JsonValue.orDefault? SimTime.ofJson? d.departures.finish finish⟩
             sharing := ← JsonValue.orDefault? sharing? d.sharing sharing
             outputFolder := ← JsonValue.orDefault? (·.text?) d.outputFolder folder
             progressEvery := ← JsonValue.orDefault? word d.progressEvery progress }
  | _ => none

/-- Settings from the bytes of a file, if these are text and JSON. -/
def ofBytes? (bytes : List UInt8) : Option (Option Settings) :=
  (Utf8.decode bytes).toOption.map fun text => (JsonValue.ofText? text).bind ofJson?

end Settings

end EventSim.Corridor
