import EventSim.Crash
import EventSim.Network.Basic

set_option autoImplicit false

/-!
# Building networks

A builder collects nodes and links in any order. Building checks every link — it must join existing nodes,
and its length, speed and capacity must be finite and positive — and then brings the links into the order of
a network: by the node they leave, and as they were added among those that leave one node. The offsets of the nodes
are sums of words. It is asserted that the last of them is the number of links, so there is no network of more links
than words can count.

## Main definitions

* `EventSim.NetworkBuilder` — nodes and links as they were added.
* `EventSim.BuildFailure`, `EventSim.NetworkBuilder.build` — the network, or why there is none.
* `EventSim.gridNetwork`, `EventSim.allocateGrid` — a grid of two-way roads.
-/

namespace EventSim

/-- Why a network cannot be built: for a reason that is reported, or because the building breaks down. -/
abbrev BuildFailure := NoResult NetworkError

/-- Nodes and links as they were added. -/
structure NetworkBuilder where
  /-- The positions of the nodes. -/
  nodes : Array Point := #[]
  /-- The links. -/
  links : Array Link := #[]
  deriving DecidableEq, Repr

namespace NetworkBuilder

/-- Adds a node. Returns its number, which is the next one. -/
def addNode (b : NetworkBuilder) (p : Point) : NodeId × NetworkBuilder :=
  (Id.ofNat b.nodes.size, { b with nodes := b.nodes.push p })

/-- Adds a link. -/
def addLink (b : NetworkBuilder) (l : Link) : NetworkBuilder := { b with links := b.links.push l }

/-- Adds a link and the link in the opposite direction with the same attributes. -/
def addRoad (b : NetworkBuilder) (l : Link) : NetworkBuilder :=
  (b.addLink l).addLink { l with source := l.target, target := l.source }

/-- The first fault of a link, in a network with the given number of nodes. -/
def checkLink (nodeCount : Nat) (l : Link) : Except NetworkError Unit := do
  if nodeCount ≤ l.source.index then throw (.nodeNotFound l.source)
  if nodeCount ≤ l.target.index then throw (.nodeNotFound l.target)
  let check (quantity : LinkAttribute) (value : Binary64) : Except NetworkError Unit :=
    if value.isPositiveFinite then .ok ()
    else .error (.invalidLink l.source l.target quantity value)
  check .length l.length
  check .speed l.speed
  check .capacity l.capacity

/-- Running totals of some words: all sums of a first part of them. -/
def totals : UInt32 → List UInt32 → List UInt32
  | n, [] => [n]
  | n, k :: ks => n :: totals (n + k) ks

/-- How many links leave each node, as words. -/
def outDegrees (nodeCount : Nat) (links : List Link) : Array UInt32 :=
  links.foldl (fun ds l => ds.modify l.source.index (· + 1)) (Array.replicate nodeCount 0)

/-- The network of the collected nodes and links, whatever they are. -/
def arranged (b : NetworkBuilder) : Network :=
  let links := b.links.toList.mergeSort fun l m => l.source.index ≤ m.source.index
  { nodes := b.nodes
    links := links.toArray
    outStart := (totals 0 (outDegrees b.nodes.size links).toList).toArray }

/-- The network of the collected nodes and links, or the first fault in the order of insertion. The last offset must
be the number of links, and is not if that is too large for a word. -/
def build (b : NetworkBuilder) : Except BuildFailure Network := do
  (b.links.toList.forM (checkLink b.nodes.size)).mapError .error
  let n := b.arranged
  let last := (n.outStart.back?.getD 0).toNat
  if last ≠ n.linkCount then throw (.crash (Crash.unequal last n.linkCount))
  return n

end NetworkBuilder

/-! ## Grids -/

namespace Grid

/-- The distance between neighbouring crossings, in metres. -/
def block : Binary64 := Binary64.ofNat 200

/-- The speed on a local street, in metres per second. -/
def localSpeed : Binary64 := Binary64.ofDecimal 111 (-1)

/-- The capacity of a local street, in vehicles per hour. -/
def localCapacity : Binary64 := Binary64.ofNat 600

/-- The speed on an arterial, in metres per second. -/
def arterialSpeed : Binary64 := Binary64.ofDecimal 167 (-1)

/-- The capacity of an arterial, in vehicles per hour. -/
def arterialCapacity : Binary64 := Binary64.ofNat 1800

/-- The crossing in a row and column of a grid with `n` columns. -/
def crossing (n row col : Nat) : NodeId := Id.ofNat (row * n + col)

/-- The roads that leave a crossing to the east and to the north, as far as the grid goes. Every third
east–west street, beginning with the first, is an arterial; all other streets are local. -/
def roadsFrom (n row col : Nat) : List Link :=
  let (speed, capacity) : Binary64 × Binary64 :=
    if row % 3 = 0 then (arterialSpeed, arterialCapacity) else (localSpeed, localCapacity)
  (if col + 1 < n then [⟨crossing n row col, crossing n row (col + 1), block, speed, capacity⟩] else [])
    ++ (if row + 1 < n then
        [⟨crossing n row col, crossing n (row + 1) col, block, localSpeed, localCapacity⟩]
      else [])

/-- The roads of a grid, row by row and column by column. -/
def roads (n : Nat) : List Link :=
  (List.range n).flatMap fun row => (List.range n).flatMap fun col => roadsFrom n row col

/-- The crossings of a grid, row by row. -/
def crossings (n : Nat) : List Point :=
  (List.range (n * n)).map fun k =>
    ⟨Binary64.ofNat (k % n) * block, Binary64.ofNat (k / n) * block⟩

end Grid

/-- A square grid of two-way roads with `n` rows and columns. -/
def gridNetwork (n : Nat) : Except BuildFailure Network :=
  NetworkBuilder.build <|
    (Grid.roads n).foldl NetworkBuilder.addRoad { nodes := (Grid.crossings n).toArray }

/-- The same for any number of rows and columns. Room is reserved for four links at every crossing. -/
def allocateGrid (n : Nat) : Except BuildFailure Network := do
  (reserve 32 (4 * n * n)).mapError .crash
  gridNetwork n

end EventSim
