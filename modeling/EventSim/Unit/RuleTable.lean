import EventSim.Unit.Script

set_option autoImplicit false

/-!
# Units given by rules

A unit for experiments with the engine, described by a table: what it sends when it starts, and for each
message the first rule that fits decides which actions are taken. The unit logs what it receives and
remembers up to eight handles, so that it can withdraw its messages later.

Its payloads are 64-bit integers. One of them cannot be described, which serves to see what the engine
does when the text of an error message cannot be made.

## Main definitions

* `EventSim.Mark` — the payloads.
* `EventSim.Action`, `EventSim.Rule`, `EventSim.RuleTable` — the table.
* `EventSim.RuleTable.perform` — carrying out one action.
-/

namespace EventSim

/-! ## Payloads -/

/-- A 64-bit integer as payload. -/
structure Mark where
  /-- The integer. -/
  value : Int
  deriving DecidableEq, Repr

/-- The integer whose description breaks down. -/
def Mark.fragile : Int := 666

instance : Payload Mark where
  describe m :=
    if m.value = Mark.fragile then .error ⟨some "debug poison"⟩ else .ok (toString m.value)

/-- The integer with the given residue modulo `2 ^ 64` in the signed 64-bit range. -/
def Mark.wrap (n : Int) : Mark := ⟨n.bmod UInt64.size⟩

/-! ## Tables -/

/-- When a message is due. -/
inductive Moment where
  /-- A number of seconds from now. -/
  | fromNow (secs : Binary64)
  /-- A number of seconds after the horizon. -/
  | fromHorizon (secs : Binary64)
  /-- At the given instant. -/
  | at (time : SimTime)
  deriving Repr

/-- Who receives a message. -/
inductive Addressee where
  /-- The given unit. -/
  | unit (id : UnitId)
  /-- The unit that many numbers further on, in a cycle of the given length. -/
  | hop (distance cycle : Nat)
  /-- The unit itself. -/
  | self
  deriving Repr

/-- What a message says. -/
inductive Saying where
  /-- The given payload. -/
  | exactly (m : Mark)
  /-- The payload in hand, changed by the given amount. -/
  | shifted (n : Int)
  deriving Repr

/-- One action. -/
inductive Action where
  /-- Sends a message, and remembers its handle in a slot if one is named. A refusal ends the call unless
  it is tolerated. -/
  | send (moment : Moment) (receiver : Addressee) (saying : Saying) (slot : Option Nat) (tolerant : Bool)
  /-- Withdraws the message whose handle is in the slot, if there is one. -/
  | cancelSlot (slot : Nat) (tolerant : Bool)
  /-- Withdraws the named message. -/
  | cancel (handle : Handle) (tolerant : Bool)
  /-- Ends the call with a complaint. -/
  | fail (what : String)
  /-- Breaks down. -/
  | crash (c : Crash)
  /-- Logs the view and the counts of the call. -/
  | note
  /-- Gives up the recorded refusal and logs it. -/
  | takeFault
  deriving Repr

/-- Actions for some payloads. -/
structure Rule where
  /-- The least payload that fits. -/
  least : Option Int
  /-- The greatest payload that fits. -/
  greatest : Option Int
  /-- A modulus, and the nonnegative remainder that fits. -/
  remainder : Option (Int × Int)
  /-- What is done. -/
  actions : List Action
  deriving Repr

/-- The nonnegative remainder of a division of 64-bit integers. -/
def remainderOf (p m : Int) : Except Crash Int :=
  if m = 0 then .error Crash.zeroDivisor
  else if p = -0x8000000000000000 ∧ m = -1 then .error Crash.remainderOverflow
  else .ok (p % m)

/-- The rule is for this payload. The remainder is looked at last. -/
def Rule.fits (r : Rule) (p : Int) : Except Crash Bool :=
  if r.least.all (· ≤ p) && r.greatest.all (p ≤ ·) then
    match r.remainder with
    | none => .ok true
    | some (m, k) => (remainderOf p m).map (· = k)
  else .ok false

/-- A line of a unit's log. -/
inductive LogEntry where
  /-- A message was received. -/
  | received (time : SimTime) (payload : Mark) (id : MessageId)
  /-- What the call saw and had sent. -/
  | noted (view : View) (produced cancelled : Nat)
  /-- The refusal that was given up. -/
  | fault (e : Option UnitError)
  deriving DecidableEq, Repr

/-- A unit that follows a table of rules. -/
structure RuleTable where
  /-- The lookahead that the unit declares. -/
  lookahead : SimTime
  /-- What it does when it starts. -/
  opening : List Action := []
  /-- What it does with messages. -/
  rules : List Rule := []
  /-- The handles it remembers. -/
  slots : Array (Option Handle) := Array.replicate 8 none
  /-- Its log. -/
  log : Array LogEntry := #[]

namespace RuleTable

/-- Writes to the log. -/
def write (e : LogEntry) (u : RuleTable) : RuleTable := { u with log := u.log.push e }

/-- The value of a computation. If it breaks down, so does the call. -/
def survive {α : Type} : Except Crash α → Routine RuleTable Mark α
  | .ok a => pure a
  | .error c => Routine.crash c

/-- The handle in a slot. There are only so many slots. -/
def held (slot : Nat) : Routine RuleTable Mark (Option Handle) := do
  let slots := (← Routine.state).slots
  match slots[slot]? with
  | some h => pure h
  | none => Routine.crash (Crash.beyondEnd slots.size slot)

/-- Remembers a handle in a slot. -/
def remember (slot : Nat) (h : Handle) : Routine RuleTable Mark Unit := do
  discard (held slot)
  Routine.update fun u => { u with slots := u.slots.setIfInBounds slot (some h) }

/-- The value of a reply, if it is not a refusal. A refusal ends the call unless it is tolerated. -/
def heed {α : Type} (tolerant : Bool) (reply : Except UnitError α) :
    Routine RuleTable Mark (Option α) :=
  match reply with
  | .ok a => pure (some a)
  | .error e => if tolerant then pure none else Routine.fail e

/-- The instant that is meant. -/
def instant (view : View) : Moment → SimTime
  | .fromNow secs => view.now.after secs
  | .fromHorizon secs => view.horizon.after secs
  | .at time => time

/-- The unit that is meant. -/
def addressee (view : View) : Addressee → Except Crash UnitId
  | .unit id => .ok id
  | .hop distance cycle =>
    if cycle = 0 then .error Crash.zeroDivisor
    else .ok (Id.ofNat ((view.unit.index + distance) % cycle))
  | .self => .ok view.unit

/-- The payload that is meant. -/
def saying (incoming : Int) : Saying → Mark
  | .exactly m => m
  | .shifted n => Mark.wrap (incoming + n)

/-- Carries out one action of a call whose payload in hand is `incoming`. -/
def perform (view : View) (incoming : Int) : Action → Routine RuleTable Mark Unit
  | .send moment receiver what slot tolerant => do
    let target ← survive (addressee view receiver)
    let reply ← Routine.schedule target (instant view moment) (saying incoming what)
    match ← heed tolerant reply, slot with
    | some h, some slot => remember slot h
    | _, _ => pure ()
  | .cancelSlot slot tolerant => do
    match ← held slot with
    | some h => discard (heed tolerant (← Routine.unschedule h))
    | none => pure ()
  | .cancel h tolerant => do discard (heed tolerant (← Routine.unschedule h))
  | .fail what => Routine.fail (.model what)
  | .crash c => Routine.crash c
  | .note => do
    let (produced, cancelled) ← Routine.counts
    Routine.update (write (.noted view produced cancelled))
  | .takeFault => do
    let e ← Routine.takeFault
    Routine.update (write (.fault e))

/-- Carries out actions in order. -/
def performAll (view : View) (incoming : Int) (actions : List Action) : Routine RuleTable Mark Unit :=
  actions.forM (perform view incoming)

/-- Logs a message, then carries out the first rule that fits its payload. -/
def react (m : Message Mark) (view : View) : Routine RuleTable Mark Unit := do
  Routine.update (write (.received m.time m.payload m.id))
  match ← survive ((← Routine.state).rules.findM? (·.fits m.payload.value)) with
  | some r => performAll view m.payload.value r.actions
  | none => pure ()

instance : SimUnit RuleTable Mark where
  lookahead u := u.lookahead
  start u view := (performAll view 0 u.opening).script u
  process u m view := (react m view).script u

end RuleTable

end EventSim
