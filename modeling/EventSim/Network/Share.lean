import EventSim.Crash
import EventSim.Network.Basic

set_option autoImplicit false

/-!
# Sharing links between workers

Two ways to assign the links of a network to workers. Vertical strips keep neighbouring links together: the
links are put in the order of the x coordinates of the nodes they leave, and equal parts of that order go to
the workers in turn. Dealing them out in turn only balances their numbers.

## Main definitions

* `EventSim.Network.strips` — vertical strips.
* `EventSim.dealOut`, `EventSim.allocateDeal` — one link for each worker in turn.
-/

namespace EventSim

/-- The number of workers must be between one and the largest worker number. -/
def checkWorkers (workers : Nat) : Except NetworkError Unit :=
  if workers = 0 ∨ 65535 < workers then .error (.invalidWorkers workers) else .ok ()

namespace Network

/-- The position of a link in the order of x coordinates: that of the node it leaves. -/
def stripKey (n : Network) (l : Nat) : UInt64 :=
  match (n.links[l]?).bind fun link => n.nodes[link.source.index]? with
  | some p => p.x.rank
  | none => 0

/-- All links, by the x coordinate of the node they leave and then by number. -/
def byX (n : Network) : List Nat :=
  (List.range n.linkCount).mergeSort fun a b => n.stripKey a ≤ n.stripKey b

/-- The worker for the link with the given rank among `count` links. -/
def stripOf (workers count rank : Nat) : WorkerId := Id.ofNat (rank * workers / max count 1)

/-- Vertical strips with nearly equal numbers of links. -/
def strips (n : Network) (workers : Nat) : Except NetworkError (List WorkerId) := do
  checkWorkers workers
  let assigned := n.byX.zipIdx.foldl
    (fun ws (l, rank) => ws.setIfInBounds l (stripOf workers n.linkCount rank))
    (Array.replicate n.linkCount (Id.ofNat 0))
  return assigned.toList

end Network

/-- One link for each worker in turn. -/
def dealOut (count workers : Nat) : Except NetworkError (List WorkerId) := do
  checkWorkers workers
  return (List.range count).map fun i => Id.ofNat (i % workers)

/-- The same for any number of links. Room is reserved once the number of workers has been accepted. -/
def allocateDeal (count workers : Nat) : Except Crash (Except NetworkError (List WorkerId)) :=
  match checkWorkers workers with
  | .error e => .ok (.error e)
  | .ok _ => do
    reserve 2 count
    return dealOut count workers

end EventSim
