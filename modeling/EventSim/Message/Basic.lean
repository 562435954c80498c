import EventSim.Crash
import EventSim.Identity
import EventSim.Time

set_option autoImplicit false

/-!
# Messages

A message is an event with a time, addressed to one unit. Once made it never changes; to withdraw it one
sends its *handle*, which names it well enough to find it where it waits. What travels to a waiting place
is an *envelope*: a message to deliver, or a handle to cancel.

Messages wait in the order of their *keys*: by time, and at equal times by identity. Both parts are fixed
when the message is made.

## Main definitions

* `EventSim.Message`, `EventSim.Handle`, `EventSim.Envelope`.
* `EventSim.Key` — the order in which messages wait.
* `EventSim.Payload` — payloads, whose description may crash.

## Main results

* `EventSim.Key.lt_trans`, `EventSim.Key.lt_trichotomy` — keys are linearly ordered.
-/

namespace EventSim

/-! ## Payloads -/

/-- What messages carry. A payload can be described in error messages; describing it may itself break
down. -/
class Payload (P : Type) where
  /-- The text that stands for the payload. -/
  describe : P → Except Crash String

instance : Payload Int := ⟨fun n => .ok (toString n)⟩

/-! ## Keys -/

/-- The place of a message in the order of waiting. -/
structure Key where
  /-- When the message is due. -/
  time : SimTime
  /-- Which message it is. -/
  id : MessageId
  deriving DecidableEq, Repr

namespace Key

instance : LT Key := ⟨fun a b => a.time < b.time ∨ a.time = b.time ∧ a.id < b.id⟩

theorem lt_def {a b : Key} : a < b ↔ a.time < b.time ∨ a.time = b.time ∧ a.id < b.id := Iff.rfl

instance (a b : Key) : Decidable (a < b) := decidable_of_iff _ lt_def.symm

theorem lt_irrefl (a : Key) : ¬ a < a := fun h => by
  rcases h with h | ⟨_, h⟩
  · exact SimTime.lt_irrefl _ h
  · exact MessageId.lt_irrefl _ h

theorem lt_trans {a b c : Key} (hab : a < b) (hbc : b < c) : a < c := by
  rcases hab with hab | ⟨hab, hab'⟩ <;> rcases hbc with hbc | ⟨hbc, hbc'⟩
  · exact Or.inl (SimTime.lt_trans hab hbc)
  · exact Or.inl (hbc ▸ hab)
  · exact Or.inl (hab ▸ hbc)
  · exact Or.inr ⟨hab.trans hbc, MessageId.lt_trans hab' hbc'⟩

theorem lt_trichotomy (a b : Key) : a < b ∨ a = b ∨ b < a := by
  rcases SimTime.lt_trichotomy a.time b.time with h | h | h
  · exact Or.inl (Or.inl h)
  · rcases MessageId.lt_trichotomy a.id b.id with h' | h' | h'
    · exact Or.inl (Or.inr ⟨h, h'⟩)
    · refine Or.inr (Or.inl ?_)
      cases a; cases b
      simp only [mk.injEq]
      exact ⟨h, h'⟩
    · exact Or.inr (Or.inr (Or.inr ⟨h.symm, h'⟩))
  · exact Or.inr (Or.inr (Or.inl h))

theorem eq_of_not_lt {a b : Key} (hab : ¬ a < b) (hba : ¬ b < a) : a = b := by
  rcases lt_trichotomy a b with h | h | h
  · exact absurd h hab
  · exact h
  · exact absurd h hba

end Key

/-! ## Messages and handles -/

/-- A timestamped event addressed to one unit. -/
structure Message (P : Type) where
  /-- Which message it is. -/
  id : MessageId
  /-- The unit that receives it. -/
  target : UnitId
  /-- When it is due. -/
  time : SimTime
  /-- What it says. -/
  payload : P
  deriving DecidableEq, Repr

/-- A reference to a scheduled message, by which it can be cancelled. -/
structure Handle where
  /-- Which message it is. -/
  id : MessageId
  /-- The unit that receives it. -/
  target : UnitId
  /-- When it is due. -/
  time : SimTime
  deriving DecidableEq, Repr

/-- The place of the named message in the order of waiting. -/
def Handle.key (h : Handle) : Key := ⟨h.time, h.id⟩

/-- A handle with its parts named. -/
def Handle.description (h : Handle) : String :=
  "MessageRef \x7b id: " ++ h.id.description ++ ", target: " ++ h.target.text ++ ", time: "
    ++ h.time.description ++ " \x7d"

namespace Message

variable {P : Type}

/-- The place of the message in the order of waiting. -/
def key (m : Message P) : Key := ⟨m.time, m.id⟩

/-- The reference by which the message can be cancelled. -/
def handle (m : Message P) : Handle := ⟨m.id, m.target, m.time⟩

@[simp] theorem handle_key (m : Message P) : m.handle.key = m.key := rfl

/-- Messages are told apart by identity alone. -/
def same (m n : Message P) : Bool := m.id = n.id

/-- A message with its parts named. -/
def description [Payload P] (m : Message P) : Except Crash String := do
  return "Message \x7b id: " ++ m.id.description ++ ", target: " ++ m.target.text ++ ", time: "
    ++ Layout.tagged.write m.time.secs ++ ", payload: " ++ (← Payload.describe m.payload) ++ " \x7d"

end Message

/-! ## Envelopes -/

/-- What is sent to the place where a unit's messages wait. -/
inductive Envelope (P : Type) where
  /-- The message is to wait there. -/
  | deliver (message : Message P)
  /-- The named message is to be withdrawn if it still waits. -/
  | cancel (handle : Handle)
  deriving DecidableEq, Repr

namespace Envelope

variable {P : Type}

/-- The unit whose waiting place the envelope is for. -/
def target : Envelope P → UnitId
  | .deliver m => m.target
  | .cancel h => h.target

/-- The message to deliver, if there is one. -/
def delivery? : Envelope P → Option (Message P)
  | .deliver m => some m
  | .cancel _ => none

/-- The handle to cancel, if there is one. -/
def cancellation? : Envelope P → Option Handle
  | .deliver _ => none
  | .cancel h => some h

/-- An envelope with its parts named. -/
def description [Payload P] : Envelope P → Except Crash String
  | .deliver m => return "Deliver(" ++ (← m.description) ++ ")"
  | .cancel h => return "Cancel(" ++ h.description ++ ")"

end Envelope

end EventSim
