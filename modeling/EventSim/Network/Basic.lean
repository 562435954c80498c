import EventSim.Csv.Table
import EventSim.Identity
import EventSim.Decimal.Layout

set_option autoImplicit false

/-!
# Networks

A network is a directed graph of links between points in the plane. Positions and lengths are in metres,
speeds in metres per second, capacities in vehicles per hour, and every derived time is in seconds.

Links are numbered so that the links that leave one node are consecutive: those of node `n` are the numbers
from `outStart[n]` up to, but not including, `outStart[n + 1]`. These offsets are words of 32 bits, as the numbers of
links are.

## Main definitions

* `EventSim.Point`, `EventSim.Link`, `EventSim.Network`.
* `EventSim.Link.freeTravel`, `EventSim.Link.headway` — the times that belong to a link.
* `EventSim.Network.outLinks` — the links that leave a node.
* `EventSim.NetworkError` — what can go wrong with networks and routes.
-/

namespace EventSim

/-- A position in the plane, in metres. -/
structure Point where
  /-- The distance to the east. -/
  x : Binary64
  /-- The distance to the north. -/
  y : Binary64
  deriving DecidableEq, Repr

/-- The distance between two points. -/
def Point.distance (p q : Point) : Binary64 := Binary64.hypot (p.x - q.x) (p.y - q.y)

/-- A directed link. -/
structure Link where
  /-- The node it leaves. -/
  source : NodeId
  /-- The node it leads to. -/
  target : NodeId
  /-- Its length in metres. -/
  length : Binary64
  /-- The speed on it in metres per second. -/
  speed : Binary64
  /-- How many vehicles may leave it in an hour. -/
  capacity : Binary64
  deriving DecidableEq, Repr

namespace Link

/-- The seconds it takes to pass the link at free speed. -/
def freeTravel (l : Link) : Binary64 := l.length / l.speed

/-- The seconds between two vehicles that leave the link. -/
def headway (l : Link) : Binary64 := Binary64.ofNat 3600 / l.capacity

end Link

/-- A directed graph of links. -/
structure Network where
  /-- The positions of the nodes, by node number. -/
  nodes : Array Point
  /-- The links, by link number. -/
  links : Array Link
  /-- The number of the first link that leaves each node, and the number of links at the end. -/
  outStart : Array UInt32
  deriving DecidableEq, Repr

/-! ## Errors -/

/-- The attributes of a link. -/
inductive LinkAttribute where
  | length
  | speed
  | capacity
  deriving DecidableEq, Repr

/-- The name of an attribute in messages. -/
def LinkAttribute.name : LinkAttribute → String
  | .length => "length"
  | .speed => "freespeed"
  | .capacity => "capacity"

/-- What can go wrong with networks and routes. -/
inductive NetworkError where
  /-- No links lead from one node to the other. -/
  | noRoute (source target : NodeId)
  /-- There is no such node. -/
  | nodeNotFound (node : NodeId)
  /-- There is no such link. -/
  | linkNotFound (link : LinkId)
  /-- A row of a table of links names a node that is not in the table of nodes. -/
  | unknownNode (row node : Nat)
  /-- An attribute of a link is not finite and positive. -/
  | invalidLink (source target : NodeId) (quantity : LinkAttribute) (value : Binary64)
  /-- Links cannot be shared between so many workers. -/
  | invalidWorkers (workers : Nat)
  /-- A file cannot be opened. -/
  | file (e : FileError)
  /-- A table cannot be read. -/
  | table (e : TableError)
  /-- A table names a node twice. -/
  | duplicateNode (node : Nat)
  deriving DecidableEq, Repr

/-- What the user is told. -/
def NetworkError.message : NetworkError → String
  | .noRoute source target => "no route from " ++ source.text ++ " to " ++ target.text
  | .nodeNotFound node => "node " ++ node.text ++ " not found in network"
  | .linkNotFound link => "link " ++ link.text ++ " not found in network"
  | .unknownNode row node => "link row " ++ toString row ++ ": unknown node id " ++ toString node
  | .invalidLink source target quantity value =>
    "invalid link " ++ source.text ++ " -> " ++ target.text ++ ": " ++ quantity.name
      ++ " must be finite and > 0, got " ++ Layout.plain.write value
  | .invalidWorkers workers => "cannot partition over " ++ toString workers ++ " workers"
  | .file e => "I/O error: " ++ e.message
  | .table e => "parse error: " ++ e.message
  | .duplicateNode node => "parse error: duplicate node id " ++ toString node

namespace Network

/-- The network without nodes. -/
def empty : Network := ⟨#[], #[], #[0]⟩

/-- The number of nodes. -/
def nodeCount (n : Network) : Nat := n.nodes.size

/-- The number of links. -/
def linkCount (n : Network) : Nat := n.links.size

/-- A link by its number. -/
def link? (n : Network) (l : LinkId) : Option Link := n.links[l.index]?

/-- The position of a node. -/
def node? (n : Network) (v : NodeId) : Option Point := n.nodes[v.index]?

/-- How many links are gone through when it is done by their numbers: the number of links as a word of 32 bits. -/
def numberedLinks (n : Network) : Nat := n.linkCount % UInt32.size

/-- All link numbers in order. -/
def linkIds (n : Network) : List LinkId := (List.range n.numberedLinks).map Id.ofNat

/-- Where the links of a node begin and end in the order of all links. -/
def outRange? (n : Network) (v : NodeId) : Option (UInt32 × UInt32) := do
  return (← n.outStart[v.index]?, ← n.outStart[v.index + 1]?)

/-- The numbers of the links that leave a node. -/
def outLinks (n : Network) (v : NodeId) : List LinkId :=
  match n.outRange? v with
  | some (start, stop) => (List.range' start.toNat (stop.toNat - start.toNat)).map Id.ofNat
  | none => []

/-- The number of links that leave a node. -/
def outDegree? (n : Network) (v : NodeId) : Option Nat :=
  (n.outRange? v).map fun (start, stop) => (stop - start).toNat

/-- The seconds it takes to pass a link at free speed; zero if there is no such link. -/
def freeTravel (n : Network) (l : LinkId) : Binary64 :=
  match n.link? l with
  | some link => link.freeTravel
  | none => Binary64.zero

/-- The position of the node that a link leaves. -/
def origin? (n : Network) (l : LinkId) : Option Point := (n.link? l).bind fun link => n.node? link.source

/-- The node exists. -/
def checkNode (n : Network) (v : NodeId) : Except NetworkError Unit :=
  if v.index < n.nodeCount then .ok () else .error (.nodeNotFound v)

/-- The link exists. -/
def checkLink (n : Network) (l : LinkId) : Except NetworkError Unit :=
  if l.index < n.linkCount then .ok () else .error (.linkNotFound l)

end Network

end EventSim
