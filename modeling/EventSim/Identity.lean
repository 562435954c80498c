set_option autoImplicit false

/-!
# Identities

Units, workers, nodes, links and vehicles are numbered. An `Id` is such a number together with its
kind, so that the numbers of two kinds cannot be confused; each kind has a fixed number of values, and
the largest one is kept free to mean that there is none. A message is identified by the unit that
produced it and that unit's own running number.

## Main definitions

* `EventSim.Id`, with `UnitId`, `WorkerId`, `NodeId`, `LinkId`, `VehicleId` — numbered identities.
* `EventSim.MessageId` — the identity of a message, ordered by origin and then by running number.

## Main results

* `EventSim.MessageId.lt_trans`, `EventSim.MessageId.lt_trichotomy` — the order of message identities
  is a strict linear order.
-/

namespace EventSim

/-! ## Numbered identities -/

/-- What an identity refers to. -/
inductive IdKind where
  /-- A unit of the simulation. -/
  | unit
  /-- A worker. -/
  | worker
  /-- A node of a network. -/
  | node
  /-- A directed link of a network. -/
  | link
  /-- A vehicle of a population. -/
  | vehicle
  deriving DecidableEq, Repr

namespace IdKind

/-- The number of values: 16 bits for workers and 32 bits for everything else. -/
def capacity : IdKind → Nat
  | .worker => UInt16.size
  | _ => UInt32.size

/-- The name under which identities of this kind are shown. -/
def name : IdKind → String
  | .unit => "UnitId"
  | .worker => "WorkerId"
  | .node => "NodeId"
  | .link => "LinkId"
  | .vehicle => "VehicleId"

theorem capacity_pos (k : IdKind) : 0 < k.capacity := by cases k <;> decide

end IdKind

/-- An identity of the given kind. -/
structure Id (kind : IdKind) where
  /-- The number. -/
  index : Nat
  /-- The number is one of the kind's values. -/
  index_lt : index < kind.capacity
  deriving DecidableEq, Repr

/-- The number of a unit. -/
abbrev UnitId := Id .unit

/-- The number of a worker. -/
abbrev WorkerId := Id .worker

/-- The number of a node. -/
abbrev NodeId := Id .node

/-- The number of a link. -/
abbrev LinkId := Id .link

/-- The number of a vehicle. -/
abbrev VehicleId := Id .vehicle

namespace Id

variable {k : IdKind}

/-- Two identities with the same number are equal. -/
theorem ext_index {a b : Id k} (h : a.index = b.index) : a = b := by
  cases a; cases b; cases h; rfl

/-- The identity with the given number, if the number is in range. -/
def ofNat? (n : Nat) : Option (Id k) := if h : n < k.capacity then some ⟨n, h⟩ else none

/-- The identity whose number is the given one reduced to the range of the kind. -/
def ofNat (n : Nat) : Id k := ⟨n % k.capacity, Nat.mod_lt _ k.capacity_pos⟩

/-- The largest number, which stands for no identity at all. -/
def invalid : Id k := ⟨k.capacity - 1, Nat.sub_lt k.capacity_pos Nat.one_pos⟩

instance : Inhabited (Id k) := ⟨invalid⟩

/-- How an identity is shown, such as `UnitId(7)`. -/
def text (a : Id k) : String := k.name ++ "(" ++ toString a.index ++ ")"

instance : LT (Id k) := ⟨fun a b => a.index < b.index⟩

instance (a b : Id k) : Decidable (a < b) := inferInstanceAs (Decidable (a.index < b.index))

instance : Ord (Id k) := ⟨fun a b => compare a.index b.index⟩

end Id

/-- The origin of messages that are scheduled before a run and not by a unit. No unit ever has this
number. -/
def UnitId.setup : UnitId := Id.invalid

/-! ## Identities of messages -/

/-- The identity of a message: who produced it, and the producer's running number for it. -/
structure MessageId where
  /-- The unit that produced the message, or `UnitId.setup`. -/
  origin : UnitId
  /-- The running number among the origin's messages, from zero. -/
  seq : Nat
  deriving DecidableEq, Repr, Inhabited

namespace MessageId

instance : LT MessageId :=
  ⟨fun a b => a.origin.index < b.origin.index ∨ a.origin.index = b.origin.index ∧ a.seq < b.seq⟩

theorem lt_def {a b : MessageId} :
    a < b ↔ a.origin.index < b.origin.index ∨ a.origin.index = b.origin.index ∧ a.seq < b.seq :=
  Iff.rfl

instance (a b : MessageId) : Decidable (a < b) := decidable_of_iff _ lt_def.symm

instance : Ord MessageId := ⟨fun a b => compareOfLessAndEq a b⟩

theorem lt_irrefl (a : MessageId) : ¬ a < a := by
  rw [lt_def]; omega

theorem lt_trans {a b c : MessageId} (hab : a < b) (hbc : b < c) : a < c := by
  rw [lt_def] at *; omega

theorem lt_trichotomy (a b : MessageId) : a < b ∨ a = b ∨ b < a := by
  by_cases h : a.origin.index = b.origin.index ∧ a.seq = b.seq
  · refine Or.inr (Or.inl ?_)
    cases a; cases b
    simp only [mk.injEq]
    exact ⟨Id.ext_index h.1, h.2⟩
  · rw [lt_def, lt_def]; omega

/-- The short form, such as `3#9`, or `setup#0` for a message that no unit produced. -/
def text (a : MessageId) : String :=
  (if a.origin = UnitId.setup then "setup" else toString a.origin.index) ++ "#" ++ toString a.seq

/-- The form with named parts. -/
def description (a : MessageId) : String :=
  "MessageId \x7b origin: " ++ a.origin.text ++ ", seq: " ++ toString a.seq ++ " \x7d"

end MessageId

end EventSim
