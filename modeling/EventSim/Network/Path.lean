import EventSim.Network.Basic

set_option autoImplicit false

/-!
# Shortest paths

The cost of a link is its free travel time in whole milliseconds, so that costs are compared exactly. The
search keeps a frontier of nodes with the costs at which they have been reached, and expands the cheapest
one, the lower number first at equal costs. A link is followed only if it reaches its end cheaper than
before; so the sum of all costs sinks whenever the frontier grows, and the search ends.

A path between two links starts on the one and ends on the other, both included.

## Main definitions

* `EventSim.Path` — links with the time they take.
* `EventSim.Search`, `EventSim.Search.run` — the search for a node.
* `EventSim.Network.shortestPath` — the cheapest path between two nodes.
* `EventSim.Router`, `EventSim.Router.pathBetweenLinks` — paths between two links.
-/

namespace EventSim

/-- Links one after another, with the seconds they take at free speed. -/
structure Path where
  /-- The links in order. -/
  links : List LinkId
  /-- The seconds they take. -/
  freeTravel : Binary64
  deriving DecidableEq, Repr

/-- The path has no links. -/
def Path.isTrivial (p : Path) : Bool := p.links.isEmpty

namespace Network

/-- The seconds that links take one after another, added from the first. -/
def freeTravelAll (n : Network) (links : List LinkId) : Binary64 :=
  links.foldl (fun secs l => secs + n.freeTravel l) Binary64.zero

/-- The cost of a link: its free travel time in milliseconds, to the nearest natural. -/
def costOf (n : Network) (l : LinkId) : Nat := (n.freeTravel l * Binary64.ofNat 1000).toWord

/-- The path of some links. -/
def pathOf (n : Network) (links : List LinkId) : Path := ⟨links, n.freeTravelAll links⟩

end Network

/-! ## The search -/

/-- The state of a search. -/
structure Search where
  /-- The least cost at which each node has been reached; the largest one if it has not. -/
  costs : Array Nat
  /-- The link by which each node was reached at that cost. -/
  arrivals : Array (Option LinkId)
  /-- Nodes to be expanded, with the costs at which they were reached, cheapest first. -/
  frontier : List (Nat × Nat)

namespace Search

/-- A cost and a node come before another pair. -/
def before (a b : Nat × Nat) : Bool := a.1 < b.1 || (a.1 == b.1 && a.2 < b.2)

/-- Puts a node into the frontier. -/
def insertByCost (a : Nat × Nat) : List (Nat × Nat) → List (Nat × Nat)
  | [] => [a]
  | b :: bs => if before a b then a :: b :: bs else b :: insertByCost a bs

/-- The search at its beginning: only the starting node is reached, at no cost. -/
def start (nodeCount source : Nat) : Search where
  costs := (Array.replicate nodeCount Binary64.wordMax).setIfInBounds source 0
  arrivals := Array.replicate nodeCount none
  frontier := [(0, source)]

/-- The cost at which a node has been reached. -/
def costAt (s : Search) (node : Nat) : Nat := s.costs[node]?.getD 0

/-- A number that gets smaller with every step of the search. A node that enters the frontier adds one to
it, and the cost that has then been lowered takes at least two away. -/
def potential (s : Search) : Nat := 2 * s.costs.toList.foldr (· + ·) 0 + s.frontier.length

/-- Follows a link from a node that was reached at the given cost, if that reaches its end cheaper than
before. Costs stop growing at the largest one. -/
def follow (n : Network) (cost : Nat) (s : Search) (l : LinkId) : Search :=
  match n.link? l, s with
  | none, s => s
  | some link, ⟨costs, arrivals, frontier⟩ =>
    let node := link.target.index
    let cost := min (cost + n.costOf l) Binary64.wordMax
    if cost < costs[node]?.getD 0 then
      { costs := costs.setIfInBounds node cost
        arrivals := arrivals.setIfInBounds node (some l)
        frontier := insertByCost (cost, node) frontier }
    else ⟨costs, arrivals, frontier⟩

/-- Lowering one number of a list lowers the sum. -/
theorem sum_set_lt {xs : List Nat} {i x : Nat} (h : x < xs[i]?.getD 0) :
    (xs.set i x).foldr (· + ·) 0 < xs.foldr (· + ·) 0 := by
  induction xs generalizing i with
  | nil => simp at h
  | cons y ys ih =>
    cases i with
    | zero => simp at h ⊢; omega
    | succ i =>
      have hlt : x < ys[i]?.getD 0 := by simpa using h
      have := ih hlt
      simp only [List.set_cons_succ, List.foldr_cons]
      omega

theorem length_insertByCost (a : Nat × Nat) (bs : List (Nat × Nat)) :
    (insertByCost a bs).length = bs.length + 1 := by
  induction bs with
  | nil => rfl
  | cons b bs ih =>
    unfold insertByCost
    split
    · rfl
    · rw [List.length_cons, ih, List.length_cons]

/-- Following a link does not raise the potential. -/
theorem potential_follow_le (n : Network) (cost : Nat) (s : Search) (l : LinkId) :
    (s.follow n cost l).potential ≤ s.potential := by
  unfold follow
  split
  · exact Nat.le_refl _
  · rename_i link costs arrivals frontier _
    dsimp only
    split
    · rename_i h
      have hsum := @sum_set_lt costs.toList link.target.index
        (min (cost + n.costOf l) Binary64.wordMax) (by simpa using h)
      simp only [potential, Array.toList_setIfInBounds, length_insertByCost]
      omega
    · exact Nat.le_refl _

/-- Follows links one after another. -/
def followAll (n : Network) (cost : Nat) (s : Search) (ls : List LinkId) : Search :=
  ls.foldl (follow n cost) s

/-- Following links does not raise the potential. -/
theorem potential_followAll_le (n : Network) (cost : Nat) (s : Search) (ls : List LinkId) :
    (s.followAll n cost ls).potential ≤ s.potential := by
  induction ls generalizing s with
  | nil => exact Nat.le_refl _
  | cons l ls ih => exact Nat.le_trans (ih (s.follow n cost l)) (potential_follow_le n cost s l)

/-- Expands nodes until the target is the cheapest one of the frontier. Fails when the frontier is empty.
A node that has been reached cheaper since it was put into the frontier is passed over. -/
def run (n : Network) (target : Nat) (s : Search) : Option Search :=
  match _h : s.frontier with
  | [] => none
  | (cost, node) :: rest =>
    if node = target then some s
    else if s.costAt node < cost then run n target { s with frontier := rest }
    else run n target (followAll n cost { s with frontier := rest } (n.outLinks (Id.ofNat node)))
termination_by s.potential
decreasing_by
  · simp only [potential, _h, List.length_cons]
    omega
  · refine Nat.lt_of_le_of_lt (potential_followAll_le n cost _ _) ?_
    simp only [potential, _h, List.length_cons]
    omega

/-- The links by which a node was reached, from the start of the search, in front of the given ones. A node
is passed at most once, so the number of nodes bounds the steps. -/
def trace (n : Network) (s : Search) : Nat → Nat → List LinkId → List LinkId
  | 0, _, links => links
  | k + 1, node, links =>
    match s.arrivals[node]?.join with
    | none => links
    | some l =>
      match n.link? l with
      | none => links
      | some link => trace n s k link.source.index (l :: links)

end Search

namespace Network

/-- The cheapest path from one node to another. -/
def shortestPath (n : Network) (source target : NodeId) : Except NetworkError Path := do
  n.checkNode source
  n.checkNode target
  if source = target then return ⟨[], Binary64.zero⟩
  match (Search.start n.nodeCount source.index).run n target.index with
  | some s => return n.pathOf (s.trace n n.nodeCount target.index [])
  | none => throw (.noRoute source target)

end Network

/-! ## Routers -/

/-- A way to find paths between nodes. A path from a node to itself has no links. -/
structure Router where
  /-- A path from one node to another. -/
  path : Network → NodeId → NodeId → Except NetworkError Path

namespace Router

/-- The router that finds cheapest paths. -/
def shortest : Router := ⟨Network.shortestPath⟩

/-- A path that starts on one link and ends on another, both included. -/
def pathBetweenLinks (r : Router) (n : Network) (first last : LinkId) : Except NetworkError Path := do
  n.checkLink first
  n.checkLink last
  if first = last then return ⟨[first], n.freeTravel first⟩
  match n.link? first, n.link? last with
  | some a, some b =>
    let inner ← r.path n a.target b.source
    return n.pathOf (first :: inner.links ++ [last])
  | none, _ => throw (.linkNotFound first)
  | some _, none => throw (.linkNotFound last)

end Router

end EventSim
