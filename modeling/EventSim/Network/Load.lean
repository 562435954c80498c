import EventSim.Network.Builder

set_option autoImplicit false

/-!
# Networks from tables

A network can be read from two tables, one of nodes and one of links. Nodes have numbers of their own there,
in any order; they are renumbered as they come. The table of nodes is read to its end before the first link
is looked at.

## Main definitions

* `EventSim.Network.ofTables` — the network of two tables.
* `EventSim.Network.load` — the same from files.
-/

namespace EventSim

/-- A row of the table of nodes. -/
structure NodeRow where
  /-- The number of the node in the tables. -/
  id : Nat
  /-- Where it lies. -/
  position : Point
  deriving DecidableEq, Repr

/-- A row of the table of links. -/
structure LinkRow where
  /-- The number of the node that the link leaves. -/
  source : Nat
  /-- The number of the node that it leads to. -/
  target : Nat
  /-- Its length in metres. -/
  length : Binary64
  /-- The speed on it in metres per second. -/
  speed : Binary64
  /-- How many vehicles may leave it in an hour. -/
  capacity : Binary64
  deriving DecidableEq, Repr

/-- The columns of the table of nodes. -/
def NodeRow.schema : Schema := ⟨"NodeRecord", [("id", .whole), ("x", .real), ("y", .real)]⟩

/-- The columns of the table of links. -/
def LinkRow.schema : Schema :=
  ⟨"LinkRecord", [("from", .whole), ("to", .whole), ("length_m", .real), ("freespeed_mps", .real),
    ("capacity_veh_per_hour", .real)]⟩

/-- A row of nodes from its fields. -/
def NodeRow.ofCells? : List Cell → Option NodeRow
  | [.whole id, .real x, .real y] => some ⟨id, ⟨x, y⟩⟩
  | _ => none

/-- A row of links from its fields. -/
def LinkRow.ofCells? : List Cell → Option LinkRow
  | [.whole source, .whole target, .real length, .real speed, .real capacity] =>
    some ⟨source, target, length, speed, capacity⟩
  | _ => none

namespace Network

/-- The node rows of a table, up to the first fault; a number may occur once. -/
def readNodes (rows : List (Except TableError (List Cell))) : Except NetworkError (Array NodeRow) :=
  rows.foldlM (fun found row => do
    match NodeRow.ofCells? (← row.mapError .table) with
    | some r =>
      if found.any (·.id = r.id) then throw (.duplicateNode r.id)
      return found.push r
    | none => return found) #[]

/-- The new number of a node. -/
def renumber (nodes : Array NodeRow) (row node : Nat) : Except NetworkError NodeId :=
  match nodes.findIdx? (·.id = node) with
  | some i => .ok (Id.ofNat i)
  | none => .error (.unknownNode row node)

/-- The links of a table, up to the first fault. -/
def readLinks (nodes : Array NodeRow) (rows : List (Except TableError (List Cell))) :
    Except NetworkError (Array Link) :=
  rows.zipIdx.foldlM (fun found (row, i) => do
    match LinkRow.ofCells? (← row.mapError .table) with
    | some r =>
      let source ← renumber nodes i r.source
      let target ← renumber nodes i r.target
      return found.push ⟨source, target, r.length, r.speed, r.capacity⟩
    | none => return found) #[]

/-- The network of a table of nodes and a table of links. -/
def ofRows (nodeRows linkRows : List (Except TableError (List Cell))) : Except BuildFailure Network := do
  let nodes ← (readNodes nodeRows).mapError .error
  let links ← (readLinks nodes linkRows).mapError .error
  NetworkBuilder.build { nodes := nodes.map (·.position), links }

/-- The network of a table of nodes and a table of links, given as text. -/
def ofTables (nodes links : List UInt8) : Except BuildFailure Network :=
  ofRows (NodeRow.schema.rows nodes) (LinkRow.schema.rows links)

/-- The rows of a table in a file that has been opened. What can be opened but not read, such as a folder,
has no rows. -/
def fileRows (s : Schema) : Except FileError (List UInt8) → List (Except TableError (List Cell))
  | .ok bytes => s.rows bytes
  | .error _ => []

/-- The network of a table of nodes and a table of links in files. Both files are opened before either is
read. -/
def load {m : Type → Type} [Monad m] [FileSystem m] (nodes links : String) :
    m (Except BuildFailure Network) := do
  match ← FileSystem.probe nodes with
  | .error e => return .error (.error (.file e))
  | .ok _ =>
    match ← FileSystem.probe links with
    | .error e => return .error (.error (.file e))
    | .ok _ =>
      let nodeRows := fileRows NodeRow.schema (← FileSystem.read nodes)
      let linkRows := fileRows LinkRow.schema (← FileSystem.read links)
      return ofRows nodeRows linkRows

end Network

end EventSim
