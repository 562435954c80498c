import EventSim.Message.Basic

set_option autoImplicit false

/-!
# Inboxes

An inbox holds the envelopes that wait to be merged into the queue of one worker. It has two slots. What
is produced in a round goes into the slot of that round's parity, and is taken out at the start of the
next round, while everything produced then goes into the other slot. The setup of a run counts as
round 0.

## Main definitions

* `EventSim.Inbox` — the two slots.
* `EventSim.Inbox.post`, `EventSim.Inbox.take` — staging and taking out.
* `EventSim.Inbox.pendingDeliveries`, `EventSim.Inbox.earliest` — what is staged.
-/

namespace EventSim

/-- Envelopes staged for one worker. -/
structure Inbox (P : Type) where
  /-- What was produced in a round of even number. -/
  even : Array (Envelope P) := #[]
  /-- What was produced in a round of odd number. -/
  odd : Array (Envelope P) := #[]
  deriving Inhabited

namespace Inbox

variable {P : Type}

/-- The envelopes of the rounds with the parity of the given one. -/
def slot (b : Inbox P) (round : Nat) : Array (Envelope P) :=
  if round % 2 = 0 then b.even else b.odd

/-- Stages an envelope that was produced in the given round. -/
def post (b : Inbox P) (round : Nat) (e : Envelope P) : Inbox P :=
  if round % 2 = 0 then { b with even := b.even.push e } else { b with odd := b.odd.push e }

/-- Empties the slot of the given round. -/
def clear (b : Inbox P) (round : Nat) : Inbox P :=
  if round % 2 = 0 then { b with even := #[] } else { b with odd := #[] }

/-- Takes out what was produced in the given round, in the order of posting. -/
def take (b : Inbox P) (round : Nat) : Array (Envelope P) × Inbox P := (b.slot round, b.clear round)

/-- The messages staged in the given round. -/
def deliveries (b : Inbox P) (round : Nat) : List (Message P) :=
  (b.slot round).toList.filterMap Envelope.delivery?

/-- How many messages are staged from the given round. Cancellations do not count. -/
def pendingDeliveries (b : Inbox P) (round : Nat) : Nat := (b.deliveries round).length

/-- The earliest time of a message staged from the given round. -/
def earliest (b : Inbox P) (round : Nat) : Option SimTime :=
  SimTime.earliest? ((b.deliveries round).map (·.time))

end Inbox

end EventSim
