import EventSim.Unit.Context

set_option autoImplicit false

/-!
# Units and their scripts

What a unit does in one call is a `Script`: a finite tree of requests, where each branch waits for the
reply to one request and a leaf says how the call ends and in which state it leaves the unit. A script has
no other way to learn or to change anything, so what a unit does depends only on its state, on the message
in hand, on its view, and on the replies.

`Routine` is a part of a script that ends with a value; routines can be written one after another.

## Main definitions

* `EventSim.Script` — what a unit does in one call.
* `EventSim.Script.run` — carrying it out in a context.
* `EventSim.SimUnit` — the interface of units.
* `EventSim.Routine` — parts of scripts.
-/

namespace EventSim

/-- How a call ends. -/
inductive Ending where
  /-- The unit is done. -/
  | completed
  /-- The unit gives up. -/
  | failed (e : UnitError)
  /-- The unit breaks down. -/
  | crashed (c : Crash)
  deriving DecidableEq, Repr

/-- What a unit with states in `U` does in one call, in a world of payloads `P`. -/
inductive Script (U P : Type) where
  /-- The call ends and leaves the unit in the given state. -/
  | stop (unit : U) (ending : Ending)
  /-- Schedules a message. The state is the one that remains if describing the payload breaks down. -/
  | schedule (unit : U) (target : UnitId) (time : SimTime) (payload : P)
      (next : Except UnitError Handle → Script U P)
  /-- Withdraws a message. -/
  | unschedule (handle : Handle) (next : Except UnitError Unit → Script U P)
  /-- Gives up the recorded refusal. -/
  | takeFault (next : Option UnitError → Script U P)
  /-- Asks how many messages and withdrawals the call has sent. -/
  | counts (next : Nat → Nat → Script U P)

/-- A call that is over. -/
structure Call (U P : Type) where
  /-- The state that the unit is left in. -/
  unit : U
  /-- How the call ended. -/
  ending : Ending
  /-- The requests of the call. -/
  context : Context P

namespace Call

variable {U P : Type}

/-- What went wrong in a call that did not break down: the error it ended with, or else the refusal that
was recorded last. -/
def fault (c : Call U P) : Option UnitError :=
  match c.ending with
  | .failed e => some e
  | _ => c.context.fault

end Call

/-- Carries out a script. -/
def Script.run {U P : Type} [Payload P] : Script U P → Context P → Call U P
  | .stop unit ending, c => ⟨unit, ending, c⟩
  | .schedule unit target time payload next, c =>
    match c.schedule target time payload with
    | .error crash => ⟨unit, .crashed crash, c⟩
    | .ok (reply, c) => (next reply).run c
  | .unschedule handle next, c =>
    let (reply, c) := c.unschedule handle
    (next reply).run c
  | .takeFault next, c =>
    let (reply, c) := c.takeFault
    (next reply).run c
  | .counts next, c => (next c.produced c.cancelled).run c

/-- The units of a simulation, given by their states. -/
class SimUnit (U : Type) (P : outParam Type) where
  /-- The least delay between a message that the unit handles and one that it then schedules. It is read
  once, before the run, and must be finite and positive. -/
  lookahead : U → SimTime
  /-- What the unit does once, before the first round. -/
  start : U → View → Script U P
  /-- What the unit does with a message. -/
  process : U → Message P → View → Script U P

/-! ## Routines -/

/-- A part of a script that ends with a value in `α`. It is given the state it begins in and what follows
it. -/
def Routine (U P α : Type) : Type := U → (α → U → Script U P) → Script U P

namespace Routine

variable {U P α : Type}

instance : Monad (Routine U P) where
  pure a := fun u k => k a u
  bind m f := fun u k => m u (fun a u => f a u k)

/-- The current state. -/
def state : Routine U P U := fun u k => k u u

/-- Changes the state. -/
def update (f : U → U) : Routine U P Unit := fun u k => k () (f u)

/-- Schedules a message. -/
def schedule (target : UnitId) (time : SimTime) (payload : P) :
    Routine U P (Except UnitError Handle) :=
  fun u k => .schedule u target time payload (fun reply => k reply u)

/-- Withdraws a message. -/
def unschedule (handle : Handle) : Routine U P (Except UnitError Unit) :=
  fun u k => .unschedule handle (fun reply => k reply u)

/-- Gives up the recorded refusal. -/
def takeFault : Routine U P (Option UnitError) := fun u k => .takeFault (fun reply => k reply u)

/-- How many messages and withdrawals the call has sent. -/
def counts : Routine U P (Nat × Nat) := fun u k => .counts (fun p c => k (p, c) u)

/-- Ends the call with an error. -/
def fail (e : UnitError) : Routine U P α := fun u _ => .stop u (.failed e)

/-- Breaks down. -/
def crash (c : Crash) : Routine U P α := fun u _ => .stop u (.crashed c)

/-- The value of a reply; a refusal ends the call. -/
def require (reply : Except UnitError α) : Routine U P α :=
  match reply with
  | .ok a => pure a
  | .error e => fail e

/-- The script that consists of one routine. -/
def script (r : Routine U P Unit) (u : U) : Script U P := r u (fun _ u => .stop u .completed)

end Routine

end EventSim
