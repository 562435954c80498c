import EventSim.Unit.Desk
import EventSim.Proofs.Staging

set_option autoImplicit false

/-!
# The accounts of a context

A request that is granted at a desk is posted at once. A request that is refused, or that breaks down,
leaves nothing behind but the refusal. So whatever is asked, in whatever order, the postbox gains exactly
what was granted, the counters count exactly what was granted, and the refusal that is given up is the
first one since the last was given up. The counters are words of 64 bits: they may pass the largest word, and
then go on from zero.

A single context that takes all the requests, and counts without bound, gives the same replies as long as its
running numbers are words, and what it has sent in the end is what the desk has posted.

## Main definitions

* `EventSim.UnitRequest.Answers` — whether a reply is the right one for a request.
* `EventSim.UnitRequest.Refusal` — why a message is not scheduled.
* `EventSim.Postbox.Gains` — a postbox gains envelopes and is not changed otherwise.
* `EventSim.Desk.Accounts` — what a desk owes its requests.
* `EventSim.Desk.Keeps` — a desk and a context have come to the same.

## Main results

* `EventSim.Desk.effect_ask` — all that one request can do.
* `EventSim.Desk.accounts_askAll` — the accounts of a desk are right, whatever it is asked.
* `EventSim.Desk.askAll_eq` — posting at once comes to the same as posting in the end.
-/

namespace EventSim

variable {P : Type}

/-! ## Requests and replies -/

namespace UnitReply

/-- The refusal. -/
def refusal? : UnitReply → Option UnitError
  | .refused e => some e
  | _ => none

/-- The recorded refusal was given up. -/
def isTaken : UnitReply → Bool
  | .taken _ => true
  | _ => false

/-- The first refusal since a refusal was given up, or since the beginning. -/
def firstRefusal? (as : List UnitReply) : Option UnitError :=
  (as.reverse.takeWhile fun a => !a.isTaken).reverse.findSome? refusal?

/-- One reply more is either the first refusal or forgets all that were there. -/
lemma firstRefusal?_append_singleton (as : List UnitReply) (a : UnitReply) :
    firstRefusal? (as ++ [a]) = if a.isTaken then none else (firstRefusal? as).or a.refusal? := by
  rw [firstRefusal?, List.reverse_append, List.reverse_singleton, List.singleton_append, List.takeWhile_cons]
  cases a.isTaken with
  | true => rfl
  | false =>
    simp only [Bool.not_false, ↓reduceIte, List.reverse_cons, List.findSome?_append, Bool.false_eq_true]
    rw [firstRefusal?, List.findSome?_singleton]

end UnitReply

/-- The unit has a route, to a worker that has an inbox. -/
def Postbox.Serves (b : Postbox P) (unit : UnitId) : Prop :=
  ∃ r, b.table.route? unit = some r ∧ r.worker.index < b.inboxes.size

namespace UnitRequest

/-- What a request sends, if that is the reply. -/
def envelope? (self : UnitId) : UnitRequest P → UnitReply → Option (Envelope P)
  | .schedule target time payload, .scheduled h => some (.deliver ⟨h.id, target, time, payload⟩)
  | .scheduleSelf time payload, .scheduled h => some (.deliver ⟨h.id, self, time, payload⟩)
  | .unschedule h, .withdrawn => some (.cancel h)
  | _, _ => none

/-- A message to the unit itself is sent as one to the unit of that number. -/
lemma envelope?_scheduleSelf (self : UnitId) (time : SimTime) (payload : P) (a : UnitReply) :
    envelope? self (.scheduleSelf time payload) a = envelope? self (.schedule self time payload) a := by
  cases a <;> rfl

/-- What requests send, in order. -/
def envelopes (self : UnitId) (rs : List (UnitRequest P)) (as : List UnitReply) : List (Envelope P) :=
  (rs.zip as).filterMap fun x => x.1.envelope? self x.2

/-- Why a message is not scheduled. Its time is checked before its target, so there is but one reason. -/
inductive Refusal [Payload P] (table : RoutingTable) (v : View) (target : UnitId) (time : SimTime)
    (payload : P) : UnitError → Prop where
  /-- Its time is not finite. -/
  | invalidTime (infinite : ¬ time.isFinite = true) : Refusal table v target time payload (.invalidTime time.secs)
  /-- It comes too early. The refusal describes it. -/
  | causality (text : String) (finite : time.isFinite = true) (early : time < v.horizon)
    (described : Payload.describe payload = .ok text) :
    Refusal table v target time payload (.causality v.unit target time v.horizon text)
  /-- Its target has no route. -/
  | unknownTarget (finite : time.isFinite = true) (inTime : v.horizon ≤ time)
    (unrouted : table.route? target = none) :
    Refusal table v target time payload (.unknownTarget target)

/-- The reply is the right one for a message to be scheduled. -/
structure AnswersSchedule [Payload P] (b : Postbox P) (v : View) (target : UnitId) (time : SimTime)
    (payload : P) (a : UnitReply) : Prop where
  /-- A message is scheduled just if its time is finite and not before the horizon and its target has
  a route to an inbox. -/
  scheduled_iff : (∃ id, a = .scheduled ⟨id, target, time⟩) ↔
    time.isFinite = true ∧ v.horizon ≤ time ∧ b.Serves target
  /-- Every reply is that the message is scheduled, a refusal or a crash. -/
  exhaustive : (∃ id, a = .scheduled ⟨id, target, time⟩) ∨ (∃ e, a = .refused e) ∨ ∃ c, a = .crashed c
  /-- A refusal says why. -/
  refused : ∀ e, a = .refused e → Refusal b.table v target time payload e
  /-- A request breaks down only if a message that comes too early cannot be described, or if the target
  has a route to a worker without an inbox. -/
  crashed : ∀ c, a = .crashed c → (time < v.horizon ∧ Payload.describe payload = .error c) ∨
    ((b.table.route? target).isSome ∧ ¬ b.Serves target)

/-- The reply is the right one for a message to be withdrawn. -/
structure AnswersUnschedule (b : Postbox P) (h : Handle) (a : UnitReply) : Prop where
  /-- A withdrawal is sent just if the target has a route to an inbox. -/
  withdrawn_iff : a = .withdrawn ↔ b.Serves h.target
  /-- Every reply is that the withdrawal is sent, a refusal or a crash. -/
  exhaustive : a = .withdrawn ∨ (∃ e, a = .refused e) ∨ ∃ c, a = .crashed c
  /-- A refusal says that the target has no route. -/
  refused : ∀ e, a = .refused e → b.table.route? h.target = none ∧ e = .unknownTarget h.target
  /-- A request breaks down only if the target has a route to a worker without an inbox. -/
  crashed : ∀ c, a = .crashed c → (b.table.route? h.target).isSome ∧ ¬ b.Serves h.target

/-- The reply is the right one for a request. -/
def Answers [Payload P] (b : Postbox P) (v : View) : UnitRequest P → UnitReply → Prop
  | .schedule target time payload, a => AnswersSchedule b v target time payload a
  | .scheduleSelf time payload, a => AnswersSchedule b v v.unit time payload a
  | .unschedule h, a => AnswersUnschedule b h a
  | .takeFault, a => ∃ e, a = .taken e

end UnitRequest

/-! ## Postboxes that gain envelopes -/

namespace Postbox

variable {b b' : Postbox P} {round : Nat} {es : List (Envelope P)}

/-- The second postbox arises from the first when envelopes are posted in a round, and by nothing else. -/
structure Gains (b : Postbox P) (round : Nat) (es : List (Envelope P)) (b' : Postbox P) : Prop where
  /-- The routes stay. -/
  table : b'.table = b.table
  /-- There are as many inboxes. -/
  size : b'.inboxes.size = b.inboxes.size
  /-- Every envelope has an inbox. -/
  served : ∀ e ∈ es, b.Serves e.target
  /-- The slot of the round is extended by what is for the worker, in order. -/
  staged : ∀ i < b.inboxes.size, ∀ round', round' % 2 = round % 2 →
    b'.staged i round' = b.staged i round' ++ es.filter fun e => b.table.owner? e.target = some i
  /-- The other slot stays. -/
  kept : ∀ i < b.inboxes.size, ∀ round', round' % 2 ≠ round % 2 → b'.staged i round' = b.staged i round'

/-- Which units have inboxes depends on the routes and on the number of inboxes. -/
lemma serves_congr (ht : b'.table = b.table) (hs : b'.inboxes.size = b.inboxes.size) (unit : UnitId) :
    b'.Serves unit ↔ b.Serves unit := by
  rw [Serves, Serves, ht, hs]

/-- Nothing is posted. -/
lemma Gains.refl (b : Postbox P) (round : Nat) : b.Gains round [] b :=
  ⟨rfl, rfl, by simp, by simp, fun _ _ _ _ => rfl⟩

/-- One envelope more is posted. -/
lemma Gains.deposit (h : b.Gains round es b') {e : Envelope P} (he : b.Serves e.target) :
    b.Gains round (es ++ [e]) (b'.deposit round e) where
  table := (table_deposit e).trans h.table
  size := (size_deposit e).trans h.size
  served := by
    intro x hx
    rcases List.mem_append.1 hx with hx | hx
    · exact h.served x hx
    · exact List.mem_singleton.1 hx ▸ he
  staged i hi round' hr := by
    rw [staged_deposit (h.size.symm ▸ hi), h.staged i hi round' hr, h.table, List.append_assoc,
      List.filter_append, List.filter_singleton]
    by_cases ho : b.table.owner? e.target = some i <;> simp [hr, ho]
  kept i hi round' hr := by
    rw [staged_deposit (h.size.symm ▸ hi), h.kept i hi round' hr]
    simp [hr]

/-- What a postbox gains determines what it becomes. -/
lemma Gains.unique {b'' : Postbox P} (h : b.Gains round es b') (h' : b.Gains round es b'') : b' = b'' := by
  have hstaged : ∀ i < b.inboxes.size, ∀ round', b'.staged i round' = b''.staged i round' := by
    intro i hi round'
    by_cases hr : round' % 2 = round % 2
    · rw [h.staged i hi round' hr, h'.staged i hi round' hr]
    · rw [h.kept i hi round' hr, h'.kept i hi round' hr]
  obtain ⟨table', inboxes'⟩ := b'
  obtain ⟨table'', inboxes''⟩ := b''
  obtain rfl : table' = table'' := h.table.trans h'.table.symm
  congr 1
  refine Array.ext (h.size.trans h'.size.symm) fun i hi' hi'' => ?_
  have hi : i < b.inboxes.size := lt_of_lt_of_eq hi' h.size
  have heven := hstaged i hi 0
  have hodd := hstaged i hi 1
  simp only [Postbox.staged, Array.getElem?_eq_getElem hi', Array.getElem?_eq_getElem hi'', Option.map_some,
    Option.getD_some, Array.toList_inj] at heven hodd
  exact congrArg₂ Inbox.mk heven hodd

end Postbox

/-! ## Desks -/

namespace Desk

/-- The desk of a call that begins. -/
def new (b : Postbox P) (v : View) (nextSeq : UInt64) : Desk P := { view := v, postbox := b, nextSeq }

/-! ## One request -/

/-- All that one request can do at a desk: the reply, the envelope that is sent, and the desk afterwards. -/
inductive Effect (d : Desk P) : UnitReply → Option (Envelope P) → Desk P → Prop where
  /-- A message is numbered, posted and counted. -/
  | scheduled (m : Message P) (number : m.id = ⟨d.view.unit, d.nextSeq.toNat⟩) (serves : d.postbox.Serves m.target) :
    Effect d (.scheduled m.handle) (some (.deliver m))
      { d with
        postbox := d.postbox.deposit d.view.round (.deliver m)
        nextSeq := d.nextSeq + 1
        produced := d.produced + 1 }
  /-- A withdrawal is posted and counted. -/
  | withdrawn (h : Handle) (serves : d.postbox.Serves h.target) :
    Effect d .withdrawn (some (.cancel h))
      { d with
        postbox := d.postbox.deposit d.view.round (.cancel h)
        cancelled := d.cancelled + 1 }
  /-- A refusal is recorded, unless one is recorded already. -/
  | refused (e : UnitError) : Effect d (.refused e) none { d with fault := d.fault.or (some e) }
  /-- The recorded refusal is given up. -/
  | taken : Effect d (.taken d.fault) none { d with fault := none }
  /-- Nothing changes. -/
  | crashed (c : Crash) : Effect d (.crashed c) none d

variable {d : Desk P}

/-- If nothing was sent, the counters stay. -/
lemma settle_nil (reply : UnitReply) (fault : Option UnitError) :
    d.settle reply { d.context with fault } = (reply, { d with fault }) := by
  simp [settle, context, pure, Except.pure]

/-- Where there is a route, what is posted arrives just if there is an inbox. -/
lemma settle_cases {t : UnitId} {r : Route} (hr : d.postbox.table.route? t = some r) {e : Envelope P}
    (he : e.target = t) {c : Context P} (hc : c.sent = #[e]) (reply : UnitReply) :
    (d.postbox.Serves t ∧ d.settle reply c = (reply, {
        view := d.view
        postbox := d.postbox.deposit d.view.round e
        nextSeq := UInt64.ofNat c.nextSeq
        produced := d.produced + UInt64.ofNat c.produced
        cancelled := d.cancelled + UInt64.ofNat c.cancelled
        fault := c.fault })) ∨
      (¬ d.postbox.Serves t ∧ ∃ crash, d.settle reply c = (.crashed crash, d)) := by
  by_cases hi : r.worker.index < d.postbox.inboxes.size
  · refine Or.inl ⟨⟨r, hr, hi⟩, ?_⟩
    simp [settle, hc, Postbox.stage, he, hr, hi, bind, Except.bind, pure, Except.pure]
  · refine Or.inr ⟨?_, Crash.beyondEnd d.postbox.inboxes.size r.worker.index, ?_⟩
    · rintro ⟨r', hr', hlt⟩
      exact hi (Option.some.inj (hr.symm.trans hr') ▸ hlt)
    · simp [settle, hc, Postbox.stage, he, hr, hi, bind, Except.bind]

/-- A unit without a route has no inbox. -/
lemma not_serves_of_route?_eq_none {b : Postbox P} {t : UnitId} (h : b.table.route? t = none) : ¬ b.Serves t := by
  rintro ⟨r, hr, _⟩
  cases h.symm.trans hr

/-- The reply to a message that is refused is the right one, if there is a reason. -/
lemma answersSchedule_refused [Payload P] {b : Postbox P} {v : View} {target : UnitId} {time : SimTime}
    {payload : P} {e : UnitError} (h : UnitRequest.Refusal b.table v target time payload e) :
    UnitRequest.AnswersSchedule b v target time payload (.refused e) where
  scheduled_iff := by
    refine iff_of_false (by simp) fun ⟨hfinite, hle, hserves⟩ => ?_
    cases h with
    | invalidTime infinite => exact infinite hfinite
    | causality text finite early described => exact not_le.2 early hle
    | unknownTarget finite inTime unrouted => exact not_serves_of_route?_eq_none unrouted hserves
  exhaustive := Or.inr (Or.inl ⟨e, rfl⟩)
  refused e' he := by cases he; exact h
  crashed c hc := by cases hc

/-- The reply to a message whose scheduling breaks down is the right one, if it may do so. -/
lemma answersSchedule_crashed [Payload P] {b : Postbox P} {v : View} {target : UnitId} {time : SimTime}
    {payload : P} {c : Crash} (h : (time < v.horizon ∧ Payload.describe payload = .error c) ∨
      ((b.table.route? target).isSome ∧ ¬ b.Serves target)) :
    UnitRequest.AnswersSchedule b v target time payload (.crashed c) where
  scheduled_iff := by
    refine iff_of_false (by simp) fun ⟨_, hle, hserves⟩ => ?_
    rcases h with ⟨hlt, _⟩ | ⟨_, hnot⟩
    · exact not_le.2 hlt hle
    · exact hnot hserves
  exhaustive := Or.inr (Or.inr ⟨c, rfl⟩)
  refused e he := by cases he
  crashed c' hc := by cases hc; exact h

/-- **Scheduling a message** is answered rightly, and does what the reply says. -/
lemma schedule_cases [Payload P] (target : UnitId) (time : SimTime) (payload : P) : ∃ a d',
    d.settle (d.context.askSchedule target time payload).1 (d.context.askSchedule target time payload).2 = (a, d') ∧
      UnitRequest.AnswersSchedule d.postbox d.view target time payload a ∧
      Effect d a (UnitRequest.envelope? d.view.unit (.schedule target time payload) a) d' := by
  by_cases hfinite : time.isFinite = true
  case neg =>
    have hschedule : d.context.schedule target time payload =
        .ok (d.context.refuse (.invalidTime time.secs)) := by simp [Context.schedule, hfinite]
    exact ⟨_, _, by rw [Context.askSchedule, hschedule]; exact settle_nil _ _,
      answersSchedule_refused (.invalidTime hfinite), .refused _⟩
  by_cases hlate : time < d.view.horizon
  · cases hdescribe : Payload.describe payload with
    | error c =>
      have hschedule : d.context.schedule target time payload = .error c := by
        simp [Context.schedule, context, hfinite, hlate, hdescribe]
      exact ⟨_, _, by rw [Context.askSchedule, hschedule]; exact settle_nil _ _,
        answersSchedule_crashed (Or.inl ⟨hlate, hdescribe⟩), .crashed c⟩
    | ok text =>
      have hschedule : d.context.schedule target time payload = .ok (d.context.refuse
          (.causality d.view.unit target time d.view.horizon text)) := by
        simp [Context.schedule, context, hfinite, hlate, hdescribe]
      exact ⟨_, _, by rw [Context.askSchedule, hschedule]; exact settle_nil _ _,
        answersSchedule_refused (.causality text hfinite hlate hdescribe), .refused _⟩
  cases hroute : d.postbox.table.route? target with
  | none =>
    have hschedule : d.context.schedule target time payload =
        .ok (d.context.refuse (.unknownTarget target)) := by
      simp [Context.schedule, context, hfinite, hlate, RoutingTable.route, hroute, UnknownUnit.toUnitError]
    exact ⟨_, _, by rw [Context.askSchedule, hschedule]; exact settle_nil _ _,
      answersSchedule_refused (.unknownTarget hfinite (not_lt.1 hlate) hroute), .refused _⟩
  | some r =>
    let m : Message P := ⟨⟨d.view.unit, d.nextSeq.toNat⟩, target, time, payload⟩
    have hschedule : d.context.schedule target time payload = .ok (.ok m.handle,
        { d.context with
          nextSeq := d.nextSeq.toNat + 1
          sent := #[.deliver m]
          produced := 1 }) := by
      simp [Context.schedule, context, hfinite, hlate, RoutingTable.route, hroute, m]
    rw [Context.askSchedule, hschedule]
    rcases settle_cases hroute (e := .deliver m) rfl (c := { d.context with
        nextSeq := d.nextSeq.toNat + 1, sent := #[.deliver m], produced := 1 }) rfl (.scheduled m.handle) with
      ⟨hserves, hsettle⟩ | ⟨hserves, crash, hsettle⟩
    · refine ⟨_, _, hsettle, ?_, ?_⟩
      · exact ⟨iff_of_true ⟨m.id, rfl⟩ ⟨hfinite, not_lt.1 hlate, hserves⟩, Or.inl ⟨m.id, rfl⟩,
          fun e he => (by cases he), fun c hc => (by cases hc)⟩
      · simpa [context, UnitRequest.envelope?, Message.handle, m] using Effect.scheduled (d := d) m rfl hserves
    · exact ⟨_, _, hsettle, answersSchedule_crashed (Or.inr ⟨by simp [hroute], hserves⟩), .crashed crash⟩

/-- **Withdrawing a message** is answered rightly, and does what the reply says. -/
lemma unschedule_cases (h : Handle) : ∃ a d',
    d.settle (d.context.askUnschedule h).1 (d.context.askUnschedule h).2 = (a, d') ∧
      UnitRequest.AnswersUnschedule d.postbox h a ∧
      Effect d a (UnitRequest.envelope? d.view.unit (.unschedule h) a) d' := by
  cases hroute : d.postbox.table.route? h.target with
  | none =>
    have hunschedule : d.context.unschedule h = d.context.refuse (.unknownTarget h.target) := by
      simp [Context.unschedule, context, RoutingTable.route, hroute, UnknownUnit.toUnitError]
    have hserves := not_serves_of_route?_eq_none hroute
    exact ⟨_, _, by rw [Context.askUnschedule, hunschedule]; exact settle_nil _ _,
      ⟨iff_of_false (by simp) hserves, Or.inr (Or.inl ⟨_, rfl⟩), fun e he => by cases he; exact ⟨hroute, rfl⟩,
        fun c hc => (by cases hc)⟩, .refused _⟩
  | some r =>
    have hunschedule : d.context.unschedule h =
        (.ok (), { d.context with sent := #[.cancel h], cancelled := 1 }) := by
      simp [Context.unschedule, context, RoutingTable.route, hroute]
    rw [Context.askUnschedule, hunschedule]
    rcases settle_cases hroute (e := .cancel h) rfl
        (c := { d.context with sent := #[.cancel h], cancelled := 1 }) rfl .withdrawn with
      ⟨hserves, hsettle⟩ | ⟨hserves, crash, hsettle⟩
    · refine ⟨_, _, hsettle, ⟨iff_of_true rfl hserves, Or.inl rfl, fun e he => (by cases he),
        fun c hc => (by cases hc)⟩, ?_⟩
      simpa [context, UnitRequest.envelope?] using Effect.withdrawn (d := d) h hserves
    · exact ⟨_, _, hsettle, ⟨iff_of_false (by simp) hserves, Or.inr (Or.inr ⟨crash, rfl⟩),
        fun e he => (by cases he), fun _ _ => ⟨by simp [hroute], hserves⟩⟩, .crashed crash⟩

/-- **All that one request can do.** It is answered rightly, and does what the reply says. -/
theorem effect_ask [Payload P] (r : UnitRequest P) :
    r.Answers d.postbox d.view (d.ask r).1 ∧
      Effect d (d.ask r).1 (r.envelope? d.view.unit (d.ask r).1) (d.ask r).2 := by
  cases r with
  | schedule target time payload =>
    obtain ⟨a, d', hask, hanswers, heffect⟩ := schedule_cases (d := d) target time payload
    rw [ask, Context.ask, hask]
    exact ⟨hanswers, heffect⟩
  | scheduleSelf time payload =>
    obtain ⟨a, d', hask, hanswers, heffect⟩ := schedule_cases (d := d) d.view.unit time payload
    rw [ask, Context.ask, show d.context.view.unit = d.view.unit from rfl, hask, UnitRequest.envelope?_scheduleSelf]
    exact ⟨hanswers, heffect⟩
  | unschedule h =>
    obtain ⟨a, d', hask, hanswers, heffect⟩ := unschedule_cases (d := d) h
    rw [ask, Context.ask, hask]
    exact ⟨hanswers, heffect⟩
  | takeFault =>
    have htaken : d.ask .takeFault = (.taken d.fault, { d with fault := none }) := settle_nil _ _
    rw [htaken]
    exact ⟨⟨_, rfl⟩, .taken⟩

/-! ### What a request changes -/

namespace Effect

variable {d' : Desk P} {a : UnitReply} {e : Option (Envelope P)}

/-- The view stays. -/
lemma view (h : Effect d a e d') : d'.view = d.view := by
  cases h <;> rfl

/-- A message that is scheduled takes a number and is counted. -/
lemma numbers (h : Effect d a e d') :
    d'.nextSeq = d.nextSeq + UInt64.ofNat a.handle?.toList.length ∧
      d'.produced = d.produced + UInt64.ofNat a.handle?.toList.length ∧
      ∀ handle ∈ a.handle?, handle.id = ⟨d.view.unit, d.nextSeq.toNat⟩ := by
  cases h with
  | scheduled m number serves => exact ⟨rfl, rfl, fun handle hh => by cases hh; exact number⟩
  | _ => exact ⟨(UInt64.add_zero _).symm, (UInt64.add_zero _).symm, fun handle hh => by cases hh⟩

/-- A withdrawal that is sent is counted. -/
lemma cancelled (h : Effect d a e d') : d'.cancelled = d.cancelled + UInt64.ofNat ([a].count .withdrawn) := by
  cases h with
  | withdrawn => rfl
  | _ => exact (UInt64.add_zero _).symm

/-- A refusal is recorded unless one is recorded, until it is given up. -/
lemma fault (h : Effect d a e d') :
    d'.fault = (if a.isTaken then none else d.fault.or a.refusal?) ∧ ∀ f, a = .taken f → f = d.fault := by
  cases h with
  | taken => exact ⟨rfl, fun f hf => by cases hf; rfl⟩
  | refused e => exact ⟨rfl, fun f hf => by cases hf⟩
  | _ => exact ⟨Option.or_none.symm, fun f hf => by cases hf⟩

/-- The postbox gains what is sent. -/
lemma gains (h : Effect d a e d') {b : Postbox P} {es : List (Envelope P)}
    (hb : b.Gains d.view.round es d.postbox) : b.Gains d.view.round (es ++ e.toList) d'.postbox := by
  have hserves := fun unit => (Postbox.serves_congr hb.table hb.size unit).1
  cases h with
  | scheduled m number serves => exact hb.deposit (hserves _ serves)
  | withdrawn handle serves => exact hb.deposit (hserves _ serves)
  | _ => exact (List.append_nil es).symm ▸ hb

end Effect

/-! ## Any requests -/

/-- What a desk owes the requests that were made at it since a call began. Sums of words are meant, so a
counter that passes the largest word goes on from zero. -/
structure Accounts [Payload P] (b : Postbox P) (v : View) (start : UInt64) (rs : List (UnitRequest P))
    (as : List UnitReply) (d : Desk P) : Prop where
  /-- The view stays. -/
  view : d.view = v
  /-- Every request is answered, and rightly. -/
  answers : List.Forall₂ (UnitRequest.Answers b v) rs as
  /-- The postbox gains what was granted, in order, and does not change otherwise. -/
  postbox : b.Gains v.round (UnitRequest.envelopes v.unit rs as) d.postbox
  /-- Every message that is scheduled takes a number. -/
  nextSeq : d.nextSeq = start + UInt64.ofNat (as.filterMap UnitReply.handle?).length
  /-- Every message that is scheduled is counted. -/
  produced : d.produced = UInt64.ofNat (as.filterMap UnitReply.handle?).length
  /-- The numbers are consecutive. -/
  ids : (as.filterMap UnitReply.handle?).map (·.id) =
    (List.range (as.filterMap UnitReply.handle?).length).map fun k => ⟨v.unit, (start + UInt64.ofNat k).toNat⟩
  /-- Every withdrawal that is sent is counted. -/
  cancelled : d.cancelled = UInt64.ofNat (as.count .withdrawn)
  /-- What is given up is the first refusal since the last was given up. -/
  taken : ∀ i e, as[i]? = some (.taken e) → e = UnitReply.firstRefusal? (as.take i)
  /-- What is recorded is the first refusal since the last was given up. -/
  fault : d.fault = UnitReply.firstRefusal? as

/-- Whether a reply is right depends on the routes and on the number of inboxes. -/
lemma answers_congr [Payload P] {b b' : Postbox P} (ht : b'.table = b.table)
    (hs : b'.inboxes.size = b.inboxes.size) {v : View} {r : UnitRequest P} {a : UnitReply}
    (h : r.Answers b' v a) : r.Answers b v a := by
  have hserves : b'.Serves = b.Serves := funext fun unit => propext (Postbox.serves_congr ht hs unit)
  have hschedule : ∀ {target time payload}, UnitRequest.AnswersSchedule b' v target time payload a →
      UnitRequest.AnswersSchedule (P := P) b v target time payload a := fun h =>
    ⟨hserves ▸ h.scheduled_iff, h.exhaustive, ht ▸ h.refused, hserves ▸ ht ▸ h.crashed⟩
  cases r with
  | schedule target time payload => exact hschedule h
  | scheduleSelf time payload => exact hschedule h
  | unschedule handle => exact ⟨hserves ▸ h.withdrawn_iff, h.exhaustive, ht ▸ h.refused, hserves ▸ ht ▸ h.crashed⟩
  | takeFault => exact h

section Accounts

variable [Payload P] {b : Postbox P} {v : View} {start : UInt64} {rs : List (UnitRequest P)}
  {as : List UnitReply}

/-- When a call begins nothing is owed. -/
lemma accounts_new (b : Postbox P) (v : View) (start : UInt64) : Accounts b v start [] [] (new b v start) where
  view := rfl
  answers := .nil
  postbox := .refl b v.round
  nextSeq := (UInt64.add_zero start).symm
  produced := rfl
  ids := rfl
  cancelled := rfl
  taken i e h := by simp at h
  fault := rfl

/-- The handles that one reply more gives. -/
lemma filterMap_handle?_concat (as : List UnitReply) (a : UnitReply) :
    (as ++ [a]).filterMap UnitReply.handle? = as.filterMap UnitReply.handle? ++ a.handle?.toList := by
  rw [List.filterMap_append]
  exact congrArg _ (by cases ha : a.handle? <;> simp [ha])

/-- **One request keeps the accounts right.** -/
theorem Accounts.ask (h : Accounts b v start rs as d) (r : UnitRequest P) :
    Accounts b v start (rs ++ [r]) (as ++ [(d.ask r).1]) (d.ask r).2 := by
  obtain ⟨hanswers, heffect⟩ := effect_ask (d := d) r
  have hanswers := answers_congr h.postbox.table h.postbox.size hanswers
  rw [h.view] at hanswers heffect
  have henvelopes : UnitRequest.envelopes v.unit (rs ++ [r]) (as ++ [(d.ask r).1]) =
      UnitRequest.envelopes v.unit rs as ++ (r.envelope? v.unit (d.ask r).1).toList := by
    rw [UnitRequest.envelopes, List.zip_append h.answers.length_eq, List.filterMap_append]
    exact congrArg _ (by cases hr : r.envelope? v.unit (d.ask r).1 <;> simp [hr])
  have hfaults : ∀ i e, (as ++ [(d.ask r).1])[i]? = some (.taken e) →
      e = UnitReply.firstRefusal? ((as ++ [(d.ask r).1]).take i) := by
    intro i e hi
    rcases Nat.lt_trichotomy i as.length with hlt | rfl | hgt
    · rw [List.getElem?_append_left hlt] at hi
      rw [List.take_append_of_le_length (le_of_lt hlt)]
      exact h.taken i e hi
    · rw [List.getElem?_concat_length] at hi
      rw [List.take_left, ← h.fault]
      exact heffect.fault.2 e (Option.some.inj hi)
    · rw [List.getElem?_eq_none (by simp; omega)] at hi
      cases hi
  have hbefore := h.postbox
  rw [← h.view] at hbefore
  have hgains := heffect.gains hbefore
  rw [h.view, ← henvelopes] at hgains
  obtain ⟨hnextSeq, hproduced, hid⟩ := heffect.numbers
  rw [h.nextSeq, h.view] at hid
  exact {
    view := heffect.view.trans h.view
    answers := List.rel_append h.answers (.cons hanswers .nil)
    postbox := hgains
    nextSeq := by
      rw [hnextSeq, h.nextSeq, filterMap_handle?_concat, List.length_append, UInt64.ofNat_add, UInt64.add_assoc]
    produced := by rw [hproduced, h.produced, filterMap_handle?_concat, List.length_append, UInt64.ofNat_add]
    ids := by
      rw [filterMap_handle?_concat, List.map_append, h.ids]
      cases ha : (d.ask r).1.handle? with
      | none => simp
      | some handle => simp [List.range_succ, hid handle (ha ▸ rfl)]
    cancelled := by rw [heffect.cancelled, h.cancelled, List.count_append, UInt64.ofNat_add]
    taken := hfaults
    fault := by rw [heffect.fault.1, h.fault, UnitReply.firstRefusal?_append_singleton] }

/-- Requests one after another keep the accounts right. -/
theorem Accounts.askAll (h : Accounts b v start rs as d) (more : List (UnitRequest P)) :
    Accounts b v start (rs ++ more) (as ++ (d.askAll more).1) (d.askAll more).2 := by
  induction more generalizing rs as d with
  | nil =>
    rw [Desk.askAll, List.append_nil, List.append_nil]
    exact h
  | cons r more ih =>
    have hmore := ih (h.ask r)
    rwa [List.append_assoc, List.append_assoc] at hmore

/-- A sum of words that stays below the bound of words is a sum of numbers. -/
lemma toNat_add_ofNat {n : Nat} (h : start.toNat + n < UInt64.size) :
    (start + UInt64.ofNat n).toNat = start.toNat + n := by
  rw [UInt64.toNat_add, UInt64.toNat_ofNat', Nat.mod_eq_of_lt (a := n) (Nat.lt_of_le_of_lt (Nat.le_add_left _ _) h),
    Nat.mod_eq_of_lt h]

/-- As long as no counter passes the largest word, the accounts are sums of numbers. -/
theorem Accounts.toNat_eq (h : Accounts b v start rs as d)
    (hlt : start.toNat + (as.filterMap UnitReply.handle?).length < UInt64.size) :
    d.nextSeq.toNat = start.toNat + (as.filterMap UnitReply.handle?).length ∧
      d.produced.toNat = (as.filterMap UnitReply.handle?).length ∧
      (as.filterMap UnitReply.handle?).map (·.id) =
        (List.range' start.toNat (as.filterMap UnitReply.handle?).length).map (MessageId.mk v.unit) := by
  refine ⟨by rw [h.nextSeq, toNat_add_ofNat hlt], ?_, ?_⟩
  · rw [h.produced, UInt64.toNat_ofNat', Nat.mod_eq_of_lt (Nat.lt_of_le_of_lt (Nat.le_add_left _ _) hlt)]
  · rw [h.ids, List.range'_eq_map_range, List.map_map]
    refine List.map_congr_left fun k hk => ?_
    have hk := List.mem_range.1 hk
    rw [Function.comp_apply, toNat_add_ofNat (by omega)]

end Accounts

/-- **The accounts of a context are right, whatever is asked of it.** A message is scheduled just if its
time is finite and not before the horizon and its target has a route; the postbox gains what was
granted, in order, and does not change otherwise; the counters count what was granted, and the messages
take consecutive numbers; and what is given up is the first refusal since the last was given up. So a
request that is refused leaves no trace but the refusal, and one that breaks down leaves none at all. The
counters start anywhere. They are words; as long as none passes the largest word they are numbers.

**Proof sketch.** All that a request can do is one of five things. Each of them keeps the accounts right,
and they are right when the call begins. -/
theorem accounts_askAll [Payload P] (b : Postbox P) (v : View) (start : UInt64) (rs : List (UnitRequest P)) :
    let (as, d) := (new b v start).askAll rs
    Accounts b v start rs as d ∧
      (start.toNat + (as.filterMap UnitReply.handle?).length < UInt64.size →
        d.nextSeq.toNat = start.toNat + (as.filterMap UnitReply.handle?).length ∧
        d.produced.toNat = (as.filterMap UnitReply.handle?).length ∧
        (as.filterMap UnitReply.handle?).map (·.id) =
          (List.range' start.toNat (as.filterMap UnitReply.handle?).length).map (MessageId.mk v.unit)) :=
  have h := (accounts_new b v start).askAll rs
  ⟨h, h.toNat_eq⟩

end Desk

/-! ## One context for all requests -/

namespace Context

variable {c : Context P}

/-- A context for the next request, as if nothing had been sent. -/
def fresh (c : Context P) : Context P where
  view := c.view
  table := c.table
  nextSeq := c.nextSeq
  fault := c.fault

/-- What two contexts send one after the other, when the second one begins where the first one stops. -/
def followedBy (c c' : Context P) : Context P :=
  { c' with
    sent := c.sent ++ c'.sent
    produced := c.produced + c'.produced
    cancelled := c.cancelled + c'.cancelled }

/-- **A request does not depend on what was sent before.** -/
lemma ask_eq_followedBy [Payload P] (r : UnitRequest P) :
    c.ask r = ((c.fresh.ask r).1, c.followedBy (c.fresh.ask r).2) := by
  have hschedule : ∀ target time payload, c.askSchedule target time payload =
      ((c.fresh.askSchedule target time payload).1, c.followedBy (c.fresh.askSchedule target time payload).2) := by
    intro target time payload
    unfold askSchedule schedule
    by_cases hfinite : time.isFinite = true
    case neg => simp [hfinite, refuse, record, fresh, followedBy]
    by_cases hlate : time < c.view.horizon
    · cases hdescribe : Payload.describe payload <;> simp [hfinite, hlate, refuse, record, fresh, followedBy]
    · cases hroute : c.table.route target <;> simp [hfinite, hlate, hroute, refuse, record, fresh, followedBy]
  cases r with
  | schedule target time payload => exact hschedule target time payload
  | scheduleSelf time payload => exact hschedule c.view.unit time payload
  | unschedule h =>
    simp only [ask, askUnschedule, unschedule]
    cases hroute : c.table.route h.target <;> simp [hroute, refuse, record, fresh, followedBy]
  | takeFault => simp [ask, takeFault, fresh, followedBy]

/-- What a request leaves: the view and the routes stay, at most one number is taken, and everything that is sent
has a route. -/
lemma of_ask [Payload P] (r : UnitRequest P) (hc : c.sent = #[]) :
    (c.ask r).2.view = c.view ∧ (c.ask r).2.table = c.table ∧ (c.ask r).2.nextSeq ≤ c.nextSeq + 1 ∧
      ∀ e ∈ (c.ask r).2.sent, (c.table.route? e.target).isSome := by
  have hrouted : ∀ {unit route}, c.table.route unit = .ok route → (c.table.route? unit).isSome := by
    intro unit route h
    unfold RoutingTable.route at h
    split at h
    · next hr => exact hr ▸ rfl
    · cases h
  have hschedule : ∀ target time payload,
      (c.askSchedule target time payload).2.view = c.view ∧ (c.askSchedule target time payload).2.table = c.table ∧
        (c.askSchedule target time payload).2.nextSeq ≤ c.nextSeq + 1 ∧
        ∀ e ∈ (c.askSchedule target time payload).2.sent, (c.table.route? e.target).isSome := by
    intro target time payload
    unfold askSchedule schedule
    by_cases hfinite : time.isFinite = true
    case neg => simp [hfinite, refuse, record, hc]
    by_cases hlate : time < c.view.horizon
    · cases hdescribe : Payload.describe payload <;> simp [hfinite, hlate, refuse, record, hc]
    · cases hroute : c.table.route target with
      | error e => simp [hfinite, hlate, refuse, record, hc]
      | ok route => simpa [hfinite, hlate, hc, Envelope.target] using hrouted hroute
  cases r with
  | schedule target time payload => exact hschedule target time payload
  | scheduleSelf time payload => exact hschedule c.view.unit time payload
  | unschedule h =>
    simp only [ask, askUnschedule, unschedule]
    cases hroute : c.table.route h.target with
    | error e => simp [refuse, record, hc]
    | ok route => simpa [hc, Envelope.target] using hrouted hroute
  | takeFault => simp [ask, takeFault, hc]

end Context

namespace Desk

variable {b : Postbox P} {d : Desk P} {c : Context P}

/-- A desk and a context that began with the postbox have come to the same. -/
structure Keeps (b : Postbox P) (d : Desk P) (c : Context P) : Prop where
  /-- They show the same view. -/
  view : d.view = c.view
  /-- The routes are those of the postbox. -/
  table : c.table = b.table
  /-- What the context has sent, posted in the end, makes the postbox of the desk. -/
  postbox : d.postbox = b.postAll c.view.round c.sent.toList
  /-- The number of the next message is the same word. -/
  nextSeq : d.nextSeq = UInt64.ofNat c.nextSeq
  /-- As many messages have been scheduled. -/
  produced : d.produced = UInt64.ofNat c.produced
  /-- As many withdrawals have been sent. -/
  cancelled : d.cancelled = UInt64.ofNat c.cancelled
  /-- The same refusal is recorded. -/
  fault : d.fault = c.fault

/-- Envelopes that all have inboxes are posted without breaking down. -/
lemma stageAll_eq_ok {round : Nat} {es : List (Envelope P)} (h : ∀ e ∈ es, b.Serves e.target) :
    es.foldlM (·.stage round ·) b = (.ok (b.postAll round es) : Except Crash (Postbox P)) := by
  induction es generalizing b with
  | nil => rfl
  | cons e es ih =>
    obtain ⟨r, hr, hi⟩ := h e List.mem_cons_self
    have hstage : b.stage round e = .ok (b.deposit round e) := by simp [Postbox.stage, hr, hi]
    have hrest := ih (b := b.deposit round e) fun e' he' =>
      (Postbox.serves_congr (Postbox.table_deposit e) (Postbox.size_deposit e) _).2 (h e' (List.mem_cons_of_mem e he'))
    rw [List.foldlM_cons, hstage]
    exact hrest

/-- **A request does the same at a desk and in a context**, if every route leads to an inbox and the number of the
next message is a word. -/
lemma Keeps.ask [Payload P] (hroutes : ∀ unit r, b.table.route? unit = some r → r.worker.index < b.inboxes.size)
    (h : Keeps b d c) (hlt : c.nextSeq < UInt64.size) (r : UnitRequest P) :
    (d.ask r).1 = (c.ask r).1 ∧ Keeps b (d.ask r).2 (c.ask r).2 ∧ (c.ask r).2.nextSeq ≤ c.nextSeq + 1 := by
  have htable : d.postbox.table = b.table := h.postbox ▸ Postbox.table_postAll _
  have hcontext : d.context = c.fresh := by
    rw [context, Context.fresh, h.view, htable, h.table, h.nextSeq, h.fault, UInt64.toNat_ofNat',
      Nat.mod_eq_of_lt hlt]
  obtain ⟨hview, htable', hnext, hrouted⟩ := Context.of_ask (c := c.fresh) r rfl
  have hserved : ∀ e ∈ (c.fresh.ask r).2.sent.toList, d.postbox.Serves e.target := by
    intro e he
    obtain ⟨route, hr⟩ := Option.isSome_iff_exists.1 (hrouted e (Array.mem_toList_iff.1 he))
    have hr : b.table.route? e.target = some route := h.table ▸ hr
    have hsize : d.postbox.inboxes.size = b.inboxes.size := h.postbox ▸ Postbox.size_postAll _
    exact (Postbox.serves_congr htable hsize _).2 ⟨route, hr, hroutes _ _ hr⟩
  rw [Context.ask_eq_followedBy, Desk.ask, hcontext, settle, stageAll_eq_ok hserved]
  refine ⟨rfl, ⟨h.view.trans hview.symm, htable'.trans h.table, ?_, rfl, ?_, ?_, rfl⟩, hnext⟩
  · show d.postbox.postAll d.view.round (c.fresh.ask r).2.sent.toList =
      b.postAll (c.fresh.ask r).2.view.round (c.sent ++ (c.fresh.ask r).2.sent).toList
    rw [h.postbox, h.view, hview, Array.toList_append]
    exact List.foldl_append.symm
  · show d.produced + _ = UInt64.ofNat (c.produced + _)
    rw [h.produced, UInt64.ofNat_add]
  · show d.cancelled + _ = UInt64.ofNat (c.cancelled + _)
    rw [h.cancelled, UInt64.ofNat_add]

/-- Requests one after another do the same. -/
lemma Keeps.askAll [Payload P] (hroutes : ∀ unit r, b.table.route? unit = some r → r.worker.index < b.inboxes.size)
    (h : Keeps b d c) (rs : List (UnitRequest P)) (hle : c.nextSeq + rs.length ≤ UInt64.size) :
    (d.askAll rs).1 = (c.askAll rs).1 ∧ Keeps b (d.askAll rs).2 (c.askAll rs).2 := by
  induction rs generalizing d c with
  | nil => exact ⟨rfl, h⟩
  | cons r rs ih =>
    rw [List.length_cons] at hle
    obtain ⟨hreply, hkeeps, hnext⟩ := h.ask hroutes (by omega) r
    obtain ⟨hreplies, hall⟩ := ih hkeeps (by omega)
    exact ⟨congrArg₂ List.cons hreply hreplies, hall⟩

/-- **Posting at once comes to the same as posting in the end.** A context that takes all the requests of a call, and
counts without bound, gives the replies of the desk, and what it has sent in the end makes of the postbox what
the requests made of it: if every route leads to an inbox, and no running number passes the largest word. -/
theorem askAll_eq [Payload P] (b : Postbox P)
    (hroutes : ∀ unit r, b.table.route? unit = some r → r.worker.index < b.inboxes.size) (v : View) (start : UInt64)
    (rs : List (UnitRequest P)) (hle : start.toNat + rs.length ≤ UInt64.size) :
    let c : Context P := { view := v, table := b.table, nextSeq := start.toNat }
    ((new b v start).askAll rs).1 = (c.askAll rs).1 ∧ Keeps b ((new b v start).askAll rs).2 (c.askAll rs).2 :=
  have hnew : Keeps b (new b v start) { view := v, table := b.table, nextSeq := start.toNat } :=
    ⟨rfl, rfl, rfl, UInt64.ofNat_toNat.symm, rfl, rfl, rfl⟩
  hnew.askAll hroutes rs hle

end Desk

end EventSim
