import EventSim.Proofs.HandBack
import EventSim.Proofs.Heedless
import EventSim.Proofs.Lookahead
import EventSim.Proofs.Scenarios

set_option autoImplicit false

/-!
# The turns of roads

A road that is handed a vehicle in its first turn sends all vehicles off that depart from it. After that it lets one
vehicle pass in each turn. It complains about vehicles that are not routed over it; for any other the turn comes to
one of three: the vehicle arrives, or is sent on, or sending it on is refused.

## Main definitions

* `EventSim.Population.linkAt?`, `EventSim.Population.nextLink?` — the link that an event is about, and the one that
  follows.
* `EventSim.Road.Passage` — what may come of a vehicle that enters a road.
* `EventSim.Road.Sendoff` — what may come of the vehicles that depart from a road.
* `EventSim.Road.frame` — what no turn changes about a road.
* `EventSim.Visit.Passes` — what a road makes of a vehicle that enters without failure.
* `EventSim.Scheduler.visits` — the visits of a run.

## Main results

* `EventSim.Road.passage`, `EventSim.Road.sendoff` — nothing else may come of them.
* `EventSim.Turn.Leads.frame_eq` — a road stays the same road all its turns.
* `EventSim.Turn.Leads.of_passes` — what a road has counted and recorded after its turns.
* `EventSim.Scheduler.Sound.posted_induction` — what holds of all messages of a run.
* `EventSim.Scheduler.Sound.frame_of_mem_visits` — a vehicle enters a road that has been registered.
* `EventSim.Scheduler.Sound.exists_unit?_afterRun` — what becomes of a road in a run that finishes.
-/

namespace EventSim

/-! ## Trips -/

/-- The vehicle enters the next road of its route. -/
def TrafficEvent.onward (e : TrafficEvent) : TrafficEvent := ⟨e.vehicle, e.leg + 1⟩

namespace TrafficEvent

variable {e : TrafficEvent}

/-- The next leg has the next number. After the last word there is leg zero again. -/
lemma toNat_leg_onward (h : e.onward.leg ≠ 0) :
    e.onward.leg.toNat = e.leg.toNat + 1 := by
  have hsum : e.onward.leg.toNat = (e.leg.toNat + 1) % UInt32.size := UInt32.toNat_add ..
  have hlt : e.leg.toNat < UInt32.size := e.leg.toNat_lt_size
  have hne : e.onward.leg.toNat ≠ 0 := fun hzero => h (UInt32.toNat_inj.1 hzero)
  by_cases hlast : e.leg.toNat + 1 = UInt32.size
  · rw [hlast, Nat.mod_self] at hsum
    exact absurd hsum hne
  · rwa [Nat.mod_eq_of_lt (by omega)] at hsum

/-- Different events are followed by different ones. -/
lemma onward_injective : Function.Injective onward := fun e e' h => by
  obtain ⟨v, k⟩ := e
  obtain ⟨v', k'⟩ := e'
  simpa [onward] using h

/-- Every event would follow some event. -/
lemma exists_onward_eq (e : TrafficEvent) : ∃ e' : TrafficEvent, e'.onward = e :=
  ⟨⟨e.vehicle, e.leg - 1⟩, by rw [onward, UInt32.sub_add_cancel]⟩

end TrafficEvent

namespace Population

variable {p : Population} {e : TrafficEvent}

/-- The link that an event is about: that leg of the vehicle's route. -/
def linkAt? (p : Population) (e : TrafficEvent) : Option LinkId :=
  (p.vehicle? e.vehicle).bind (·.route[e.leg.toNat]?)

/-- The link that follows in the vehicle's route. -/
def nextLink? (p : Population) (e : TrafficEvent) : Option LinkId :=
  (p.vehicle? e.vehicle).bind (·.route[e.leg.toNat + 1]?)

/-- Unless it is leg zero again, the next event is about the link that follows. -/
lemma linkAt?_onward (p : Population) (h : e.onward.leg ≠ 0) : p.linkAt? e.onward = p.nextLink? e := by
  rw [linkAt?, TrafficEvent.toNat_leg_onward h]
  rfl

/-- It is leg zero only if a route has more legs than there are words. -/
lemma leg_onward_ne_zero (hlegs : ∀ vehicle ∈ p.vehicle? e.vehicle, vehicle.route.length ≤ UInt32.size)
    (h : (p.nextLink? e).isSome) : e.onward.leg ≠ 0 := by
  obtain ⟨l, hl⟩ := Option.isSome_iff_exists.1 h
  obtain ⟨vehicle, hvehicle, hnext⟩ := Option.bind_eq_some_iff.1 hl
  have hlt : e.leg.toNat + 1 < vehicle.route.length := (List.getElem?_eq_some_iff.1 hnext).1
  have hleg : e.onward.leg.toNat = e.leg.toNat + 1 :=
    (UInt32.toNat_add ..).trans (Nat.mod_eq_of_lt (lt_of_lt_of_le hlt (hlegs vehicle hvehicle)))
  intro hzero
  rw [hzero] at hleg
  cases hleg

end Population

/-! ## Requests -/

namespace Context

/-- The context when a message has been scheduled. -/
def posting {P : Type} (c : Context P) (target : UnitId) (time : SimTime) (payload : P) : Context P :=
  { c with
    nextSeq := c.nextSeq + 1
    sent := c.sent.push (.deliver ⟨⟨c.view.unit, c.nextSeq⟩, target, time, payload⟩)
    produced := c.produced + 1 }

variable {c : Context TrafficEvent} {target : UnitId} {time : SimTime} {e : TrafficEvent}

/-- The message could not be scheduled: its time is infinite or a NaN, or before the horizon, or there is no such
target. -/
def Bars {P : Type} (c : Context P) (target : UnitId) (time : SimTime) : Prop :=
  time.isFinite = false ∨ time < c.view.horizon ∨ c.table.route? target = none

/-- An event is scheduled, or refused for a reason. The first reason is the time itself. -/
lemma schedule_event (c : Context TrafficEvent) (target : UnitId) (time : SimTime) (e : TrafficEvent) :
    ¬ c.Bars target time ∧
        c.schedule target time e = .ok (.ok ⟨⟨c.view.unit, c.nextSeq⟩, target, time⟩, c.posting target time e) ∨
      c.Bars target time ∧ ∃ err, c.schedule target time e = .ok (.error err, c.record err) ∧
        (time.isFinite = false → err = .invalidTime time.secs) := by
  unfold schedule
  by_cases hfinite : time.isFinite = true
  · rw [if_neg (by simp [hfinite])]
    by_cases hearly : time < c.view.horizon
    · rw [if_pos hearly]
      exact Or.inr ⟨Or.inr (Or.inl hearly), _, rfl, by simp [hfinite]⟩
    · rw [if_neg hearly]
      unfold RoutingTable.route
      cases hroute : c.table.route? target with
      | none => exact Or.inr ⟨Or.inr (Or.inr hroute), _, rfl, by simp [hfinite]⟩
      | some r =>
        refine Or.inl ⟨?_, rfl⟩
        rintro (h | h | h)
        · cases hfinite.symm.trans h
        · exact hearly h
        · cases hroute.symm.trans h
  · rw [if_pos (by simpa using hfinite)]
    exact Or.inr ⟨Or.inl (Bool.eq_false_of_not_eq_true hfinite), _, rfl, fun _ => rfl⟩

end Context

namespace Road

variable {r : Road} {m : Message TrafficEvent} {c : Context TrafficEvent} {u : UnitId}

/-! ## A vehicle that enters -/

/-- The road after a vehicle has entered whose trip ends here. -/
def leave (r : Road) (m : Message TrafficEvent) : Road :=
  { r.enter m.time with arrivals := r.arrivals.push ⟨m.payload.vehicle, r.link, r.exitTime m.time⟩ }

/-- What may come of a vehicle that enters a road. -/
inductive Passage (r : Road) (m : Message TrafficEvent) (c : Context TrafficEvent) :
    Call Road TrafficEvent → Prop
  /-- The vehicle is not routed here, or there is no such vehicle. The road complains. -/
  | strays {text : String} (hlink : r.population.linkAt? m.payload ≠ some r.link) :
    Passage r m c ⟨r, .failed (.model text), c⟩
  /-- This is the last link of its route. The vehicle arrives. -/
  | arrives (hlink : r.population.linkAt? m.payload = some r.link)
    (hlast : r.population.nextLink? m.payload = none) : Passage r m c ⟨r.leave m, .completed, c⟩
  /-- It is sent on to the next link. -/
  | proceeds {next : LinkId} (hlink : r.population.linkAt? m.payload = some r.link)
    (hnext : r.population.nextLink? m.payload = some next)
    (hfree : ¬ c.Bars (Id.ofNat next.index) (r.exitTime m.time)) :
    Passage r m c ⟨r.enter m.time, .completed,
      c.posting (Id.ofNat next.index) (r.exitTime m.time) m.payload.onward⟩
  /-- It cannot be sent on. -/
  | stuck {next : LinkId} {e : UnitError} (hlink : r.population.linkAt? m.payload = some r.link)
    (hnext : r.population.nextLink? m.payload = some next)
    (hbars : c.Bars (Id.ofNat next.index) (r.exitTime m.time))
    (he : (r.exitTime m.time).isFinite = false → e = .invalidTime (r.exitTime m.time).secs) :
    Passage r m c ⟨r.enter m.time, .failed e, c.record e⟩

/-- **Nothing else may come of a vehicle that enters a road.** -/
theorem passage (r : Road) (m : Message TrafficEvent) (c : Context TrafficEvent) :
    r.Passage m c (((pass m).script r).run c) := by
  obtain ⟨id, target, time, ⟨v, leg⟩⟩ := m
  change r.Passage _ c ((pass ⟨id, target, time, ⟨v, leg⟩⟩ r fun _ r => .stop r .completed).run c)
  cases hv : r.population.vehicle? v with
  | none =>
    have hlink : r.population.linkAt? ⟨v, leg⟩ = none := by rw [Population.linkAt?, hv, Option.bind_none]
    simp only [pass, Routine.state, bind, hv]
    exact .strays (by simp [hlink])
  | some vehicle =>
    have hlink : r.population.linkAt? ⟨v, leg⟩ = vehicle.route[leg.toNat]? := by
      rw [Population.linkAt?, hv, Option.bind_some]
    have hfollow : r.population.nextLink? ⟨v, leg⟩ = vehicle.route[leg.toNat + 1]? := by
      rw [Population.nextLink?, hv, Option.bind_some]
    by_cases hhere : vehicle.route[leg.toNat]? = some r.link
    · cases hnext : vehicle.route[leg.toNat + 1]? with
      | none =>
        simp only [pass, Routine.state, bind, hv, hhere, hnext, ne_eq, not_true_eq_false, ↓reduceIte]
        exact .arrives (hlink.trans hhere) (hfollow.trans hnext)
      | some next =>
        simp only [pass, Routine.state, bind, hv, hhere, hnext, ne_eq, not_true_eq_false, ↓reduceIte,
          Routine.update, Routine.schedule, Script.run]
        rcases c.schedule_event (Id.ofNat next.index) (r.exitTime time) ⟨v, leg + 1⟩ with
          ⟨hfree, heq⟩ | ⟨hbars, e, heq, he⟩ <;> rw [heq]
        · exact .proceeds (hlink.trans hhere) (hfollow.trans hnext) hfree
        · exact .stuck (hlink.trans hhere) (hfollow.trans hnext) hbars he
    · simp only [pass, Routine.state, bind, hv, hhere, ne_eq, not_false_eq_true, ↓reduceIte]
      exact .strays (by rw [hlink]; exact hhere)

/-! ## Vehicles that depart -/

/-- What may come of vehicles that are to depart from a road. -/
inductive Sendoff (r : Road) (u : UnitId) (vs : List VehicleId) (c : Context TrafficEvent) :
    Call Road TrafficEvent → Prop
  /-- Each of them enters the road at the beginning of its route. -/
  | departs (ms : List (Message TrafficEvent)) {c' : Context TrafficEvent} (hfault : c'.fault = c.fault)
    (hsent : c'.sent.toList = c.sent.toList ++ ms.map .deliver)
    (hms : ms.map (fun m => (m.target, m.payload)) = vs.map fun v => (u, ⟨v, 0⟩)) :
    Sendoff r u vs c ⟨r, .completed, c'⟩
  /-- One of them is not there, or cannot depart. -/
  | stays {v : VehicleId} {e : UnitError} {c' : Context TrafficEvent} (hv : v ∈ vs)
    (hbars : ∀ vehicle ∈ r.population.vehicle? v, c.Bars u vehicle.departure) :
    Sendoff r u vs c ⟨r, .failed e, c'⟩

/-- The first of some vehicles departs and the others follow, or it is not there or cannot depart, and nothing more is
sent. -/
lemma run_depart_cons (r : Road) (u : UnitId) (v : VehicleId) (vs : List VehicleId) (c : Context TrafficEvent) :
    (∃ vehicle, r.population.vehicle? v = some vehicle ∧ (((v :: vs).forM (depart u)).script r).run c =
        ((vs.forM (depart u)).script r).run (c.posting u vehicle.departure ⟨v, 0⟩)) ∨
      (∀ vehicle ∈ r.population.vehicle? v, c.Bars u vehicle.departure) ∧ ∃ e c', c'.sent = c.sent ∧
        (((v :: vs).forM (depart u)).script r).run c = ⟨r, .failed e, c'⟩ := by
  have hcons : ((v :: vs).forM (depart u)).script r = depart u v r fun _ r => (vs.forM (depart u)).script r := rfl
  rw [hcons]
  cases hv : r.population.vehicle? v with
  | none =>
    simp only [depart, Routine.state, bind, hv]
    exact Or.inr ⟨by simp, _, c, rfl, rfl⟩
  | some vehicle =>
    simp only [depart, Routine.state, bind, hv, Routine.schedule, Script.run]
    rcases c.schedule_event u vehicle.departure ⟨v, 0⟩ with ⟨_, heq⟩ | ⟨hbars, e, heq, _⟩ <;> rw [heq]
    · exact Or.inl ⟨vehicle, rfl, rfl⟩
    · refine Or.inr ⟨fun vehicle' hvehicle => ?_, _, c.record e, rfl, rfl⟩
      cases hvehicle
      exact hbars

/-- **Nothing else may come of vehicles that are to depart from a road.** -/
theorem sendoff (r : Road) (u : UnitId) (vs : List VehicleId) (c : Context TrafficEvent) :
    r.Sendoff u vs c (((vs.forM (depart u)).script r).run c) := by
  induction vs generalizing c with
  | nil => exact .departs [] rfl (by simp) rfl
  | cons v vs ih =>
    rcases r.run_depart_cons u v vs c with ⟨vehicle, _, hrun⟩ | ⟨hbars, e, c', _, hrun⟩ <;> rw [hrun]
    · have hrest := ih (c.posting u vehicle.departure ⟨v, 0⟩)
      generalize ((vs.forM (depart u)).script r).run (c.posting u vehicle.departure ⟨v, 0⟩) = k at hrest ⊢
      cases hrest with
      | departs ms hfault hsent hms =>
        refine .departs (⟨⟨c.view.unit, c.nextSeq⟩, u, vehicle.departure, ⟨v, 0⟩⟩ :: ms) hfault ?_ ?_
        · rw [hsent, Context.posting, Array.toList_push, List.append_assoc]
          rfl
        · rw [List.map_cons, List.map_cons, hms]
      | stays hv' hbars => exact .stays (List.mem_cons_of_mem _ hv') hbars
    · exact .stays List.mem_cons_self hbars

/-! ## What stays the same -/

/-- What no turn changes about a road: its link, the vehicles, and its free travel time. -/
def frame (r : Road) : LinkId × Population × Binary64 := (r.link, r.population, r.freeTravel)

lemma Passage.frame_eq {k : Call Road TrafficEvent} (h : r.Passage m c k) : k.unit.frame = r.frame := by
  cases h <;> rfl

lemma Sendoff.unit_eq {vs : List VehicleId} {u : UnitId} {k : Call Road TrafficEvent} (h : r.Sendoff u vs c k) :
    k.unit = r := by
  cases h <;> rfl

end Road

/-! ## Turns -/

/-- The next event of a vehicle's trip, unless the given one is its last. -/
def Population.next? (p : Population) (e : TrafficEvent) : Option TrafficEvent :=
  if (p.nextLink? e).isSome then some e.onward else none

section Calls

variable {s : Setting} {x : Slot Road} {m : Message TrafficEvent} {v : Visit Road TrafficEvent}

/-- What comes of a message for a road. -/
lemma Slot.passage (s : Setting) (x : Slot Road) (m : Message TrafficEvent) : x.unit.Passage m
    { view := ⟨x.id, m.time, s.horizon, s.round⟩, table := s.table, nextSeq := x.nextSeq } (x.call s m) :=
  x.unit.passage m _

/-- What comes of the start of a road. -/
lemma Slot.sendoff (table : RoutingTable) (start : SimTime) (x : Slot Road) :
    x.unit.Sendoff x.id x.unit.departures
      { view := ⟨x.id, start, start, 0⟩, table, nextSeq := x.nextSeq } (x.startCall table start) :=
  x.unit.sendoff x.id x.unit.departures _

/-- The trip that ends with a visit. -/
def Visit.arrival? (v : Visit Road TrafficEvent) : Option Arrival :=
  if (v.slot.unit.population.nextLink? v.message.payload).isSome then none
  else some ⟨v.message.payload.vehicle, v.slot.unit.link, v.slot.unit.exitTime v.message.time⟩

/-- What a road makes of a vehicle that enters without failure: it is one vehicle more, and its trip goes on or it
has arrived. -/
structure Visit.Passes (s : Setting) (v : Visit Road TrafficEvent) : Prop where
  /-- The vehicle is routed here. -/
  linkAt?_eq : v.slot.unit.population.linkAt? v.message.payload = some v.slot.unit.link
  /-- Its next event is scheduled, if there is one, and nothing else. -/
  sent : (Envelope.messages (v.handled s).sent).map (·.payload) =
    (v.slot.unit.population.next? v.message.payload).toList
  /-- Nothing is withdrawn. -/
  plain : Envelope.handles (v.handled s).sent = []
  /-- What is scheduled is for the road of the link that follows. -/
  routed : ∀ n ∈ Envelope.messages (v.handled s).sent, n.payload = v.message.payload.onward ∧
    v.slot.unit.population.nextLink? v.message.payload = some n.target.link
  /-- Its arrival is recorded, if its trip ends here, and no other. -/
  arrivals : (v.slot.handle s v.message).1.unit.arrivals.toList = v.slot.unit.arrivals.toList ++ v.arrival?.toList
  /-- It has entered. -/
  entered : (v.slot.handle s v.message).1.unit.entered = v.slot.unit.entered + 1

/-- **A vehicle passes** unless the call for it fails. -/
theorem Visit.passes (h : (v.handled s).failure = none) : v.Passes s := by
  have hfailure : Worker.failure s.worker v.message (v.slot.call s v.message) = none := h
  have hend := (Slot.of_failure_eq_none hfailure).1
  have hpass := Slot.passage s v.slot v.message
  have hsent : (v.handled s).sent = (v.slot.call s v.message).context.sent.toList := rfl
  have hunit : (v.slot.handle s v.message).1.unit = (v.slot.call s v.message).unit := rfl
  clear hfailure
  generalize v.slot.call s v.message = k at hpass hsent hunit hend
  cases hpass with
  | strays hlink => cases hend
  | arrives hlink hlast =>
    refine ⟨hlink, ?_, ?_, ?_, ?_, ?_⟩
    · rw [hsent, Population.next?, hlast]
      rfl
    · rw [hsent]
      rfl
    · rw [hsent]
      exact fun n hn => absurd hn List.not_mem_nil
    · rw [hunit, arrival?, hlast]
      exact Array.toList_push
    · rw [hunit]
      rfl
  | @proceeds next hlink hnext hfree =>
    refine ⟨hlink, ?_, ?_, ?_, ?_, ?_⟩
    · rw [hsent, Population.next?, hnext]
      rfl
    · rw [hsent]
      rfl
    · rw [hsent]
      intro n hn
      obtain rfl := List.mem_singleton.1 hn
      exact ⟨rfl, hnext.trans (congrArg some (Id.link_ofNat next).symm)⟩
    · rw [hunit, arrival?, hnext]
      exact (List.append_nil _).symm
    · rw [hunit]
      rfl
  | stuck hlink hnext hbars he => cases hend

end Calls

namespace Turn

/-- The visit, if a message is handled in the turn. -/
def visit? {U P : Type} : Turn U P → Option (Visit U P)
  | .start _ _ _ => none
  | .visit v _ => some v

variable {x y : Slot Road} {cs : List (Turn Road TrafficEvent)}

/-- The start leaves a road as it is. -/
lemma unit_after_start (x : Slot Road) (table : RoutingTable) (time : SimTime) :
    (Turn.start x table time : Turn Road TrafficEvent).after.unit = x.unit := (x.sendoff table time).unit_eq

/-- A road stays the same road in a turn. -/
lemma frame_after (c : Turn Road TrafficEvent) : c.after.unit.frame = c.before.unit.frame := by
  cases c with
  | start x table time => exact congrArg Road.frame (unit_after_start x table time)
  | visit v s => exact (Slot.passage s v.slot v.message).frame_eq

/-- **A road stays the same road all its turns.** -/
theorem Leads.frame_eq (h : Leads x cs y) :
    y.unit.frame = x.unit.frame ∧ ∀ c ∈ cs, c.before.unit.frame = x.unit.frame := by
  induction cs generalizing x with
  | nil =>
    obtain rfl : x = y := h
    exact ⟨rfl, by simp⟩
  | cons c cs ih =>
    obtain ⟨rfl, h⟩ := h
    obtain ⟨hy, hcs⟩ := ih h
    refine ⟨hy.trans c.frame_after, List.forall_mem_cons.2 ⟨rfl, fun d hd => (hcs d hd).trans c.frame_after⟩⟩

/-- **A road counts the vehicles that enter it, and records the trips that end here**, if the calls for all of them
succeed. -/
theorem Leads.of_passes (h : Leads x cs y) (hcs : ∀ v s, .visit v s ∈ cs → v.Passes s) :
    y.unit.arrivals.toList = x.unit.arrivals.toList ++ (cs.filterMap visit?).filterMap Visit.arrival? ∧
      y.unit.entered = x.unit.entered + (cs.filterMap visit?).length := by
  induction cs generalizing x with
  | nil =>
    obtain rfl : x = y := h
    exact ⟨by simp, rfl⟩
  | cons c cs ih =>
    obtain ⟨rfl, h⟩ := h
    obtain ⟨harrivals, hentered⟩ := ih h fun v s hv => hcs v s (List.mem_cons_of_mem _ hv)
    cases c with
    | start x table time =>
      rw [unit_after_start] at harrivals hentered
      exact ⟨harrivals, hentered⟩
    | visit v s =>
      have hpass := hcs v s List.mem_cons_self
      rw [after, hpass.arrivals, List.append_assoc] at harrivals
      rw [after, hpass.entered] at hentered
      rw [List.filterMap_cons_some (show visit? (.visit v s) = some v from rfl), before]
      refine ⟨harrivals.trans ?_, hentered.trans ?_⟩
      · rw [List.filterMap_cons]
        cases v.arrival? <;> rfl
      · rw [List.length_cons]
        omega

end Turn

/-! ## Visits of a run -/

namespace Stage

variable {U P : Type} [Payload P] [SimUnit U P] {config : RunConfig} {t : Stage U P}

/-- What is handed over in a round is what the visits are for. -/
lemma delivered_eq_map_visits (hc : t.engine.Coherent t.past) :
    t.delivered config = (t.visits config).map (·.message) := by
  have houtline : (t.record config).handled.map Slot.outline =
      (t.visits config).map (Slot.outline <| ·.handled t.setting) := (map_outline_handled hc).1
  have hmessage := congrArg (List.map fun o => o.1) houtline
  rw [List.map_map, List.map_map] at hmessage
  exact hmessage

/-- What is sent in a round is sent in the visits. -/
lemma sent_eq_flatMap_visits (hc : t.engine.Coherent t.past) : (t.record config).sent =
    (t.visits config).flatMap fun v => (v.handled t.setting).sent := by
  rw [sent_eq hc, List.flatMap_map]
  exact List.flatMap_congr fun v _ => (Slot.sent_handle t.setting v.slot v.message).symm

/-- In a round without fault no call fails. -/
lemma failure_eq_none_of_mem_visits (hc : t.engine.Coherent t.past) (hf : (t.record config).fault = none)
    {v : Visit U P} (hv : v ∈ t.visits config) : (v.handled t.setting).failure = none := by
  obtain ⟨h, hh, houtline⟩ := exists_handled_of_mem_visits hc hv
  have hsome : h.failure.isSome = (v.handled t.setting).failure.isSome := congrArg (·.2.2) houtline
  rw [Engine.failure_eq_none_of_success hf hh] at hsome
  simpa using hsome.symm

end Stage

namespace Scheduler

section Units

variable {U P : Type} [Payload P] [SimUnit U P] {s : Scheduler U P} {u : UnitId}

/-- The visits of a run, round by round. -/
def visits (s : Scheduler U P) : List (Visit U P) := s.stages.flatMap (·.visits s.config)

/-- In a first turn no message is handled. -/
lemma visit?_of_mem_starts {c : Turn U P} (hc : c ∈ s.starts) : c.visit? = none := by
  rw [starts] at hc
  split at hc
  · obtain ⟨xs, _, hc⟩ := List.mem_flatMap.1 hc
    obtain ⟨x, _, rfl⟩ := List.mem_map.1 hc
    rfl
  · cases hc

/-- The visits among the turns of a unit are its visits in the run. -/
lemma filterMap_visit?_turnsOf (s : Scheduler U P) (u : UnitId) :
    (s.turnsOf u).filterMap Turn.visit? = s.visits.filter (·.slot.id = u) := by
  have hstarts : (s.starts.filter (·.before.id = u)).filterMap Turn.visit? = [] :=
    List.filterMap_eq_nil_iff.2 fun c hc => visit?_of_mem_starts (List.mem_of_mem_filter hc)
  rw [turnsOf, turns, List.filter_append, List.filterMap_append, hstarts, List.nil_append, visits,
    List.filter_flatMap, List.filter_flatMap, List.filterMap_flatMap]
  refine List.flatMap_congr fun t _ => ?_
  rw [Stage.turns, List.filter_map, List.filterMap_map]
  exact List.filterMap_some

/-- What a visit handles has been posted before the round. -/
lemma Sound.mem_posted_of_mem_visits (hs : s.Sound) {ts rest : List (Stage U P)} {t : Stage U P}
    (h : s.stages = ts ++ t :: rest) {v : Visit U P} (hv : v ∈ t.visits s.config) : v.message ∈ s.posted ts :=
  hs.mem_posted_of_mem_pending h (hs.of_mem_visits h hv).1

/-- **What holds of the first messages and is passed on in visits holds of all messages.** -/
theorem Sound.posted_induction (hs : s.Sound) {motive : Message P → Prop}
    (first : ∀ m ∈ Envelope.messages s.opening, motive m)
    (next : ∀ t ∈ s.stages, ∀ v ∈ t.visits s.config, motive v.message →
      ∀ m ∈ Envelope.messages (v.handled t.setting).sent, motive m)
    {ts us : List (Stage U P)} (h : s.stages = ts ++ us) : ∀ m ∈ s.posted ts, motive m := by
  induction ts using List.reverseRecOn generalizing us with
  | nil =>
    intro m hm
    exact first m ((List.mem_append.1 hm).resolve_right List.not_mem_nil)
  | append_singleton ts t ih =>
    rw [List.append_assoc, List.singleton_append] at h
    have ht : t ∈ s.stages := h ▸ List.mem_append_right _ List.mem_cons_self
    intro m hm
    rw [posted_append, List.flatMap_singleton, RoundRecord.accepted,
      Stage.sent_eq_flatMap_visits (hs.coherent_of_mem ht), Envelope.messages_flatMap] at hm
    rcases List.mem_append.1 hm with hm | hm
    · exact ih h m hm
    · obtain ⟨v, hv, hm⟩ := List.mem_flatMap.1 hm
      exact next t ht v hv (ih h _ (hs.mem_posted_of_mem_visits h hv)) m hm

/-- A run that finishes hands the units back. -/
lemma Sound.returns_afterRun (hs : s.Sound) {stats : RunStats} (hstats : s.outcome = .finished stats) :
    s.Returns s.afterRun :=
  (hs.exit Engine.keepRecords #[]).returns hs fun c hcrashed => by cases hstats.symm.trans hcrashed

end Units

variable {s : Scheduler Road TrafficEvent} {u : UnitId} {r : Registered Road}

/-- In a round without fault every vehicle passes. -/
lemma Sound.passes_of_mem_visits (hs : s.Sound) {t : Stage Road TrafficEvent} (ht : t ∈ s.stages)
    (hf : (t.record s.config).fault = none) {v : Visit Road TrafficEvent} (hv : v ∈ t.visits s.config) :
    v.Passes t.setting :=
  Visit.passes (Stage.failure_eq_none_of_mem_visits (hs.coherent_of_mem ht) hf hv)

/-- **A vehicle enters a road that has been registered.** -/
theorem Sound.frame_of_mem_visits (hs : s.Sound) {t : Stage Road TrafficEvent} (ht : t ∈ s.stages)
    {v : Visit Road TrafficEvent} (hv : v ∈ t.visits s.config) :
    ∃ r, s.registered? v.slot.id = some r ∧ v.slot.unit.frame = r.unit.frame := by
  obtain ⟨ts, rest, hstages⟩ := List.append_of_mem ht
  obtain ⟨r, hr⟩ := Option.isSome_iff_exists.1 (hs.of_mem_visits hstages hv).2
  have hturn : Turn.visit v t.setting ∈ s.turnsOf v.slot.id :=
    List.mem_filter.2 ⟨List.mem_append_right _ (List.mem_flatMap.2 ⟨t, ht, List.mem_map_of_mem hv⟩),
      decide_eq_true rfl⟩
  rcases stages_eq_nil_or_append s with ⟨hnil, _⟩ | ⟨ts', l, hlast⟩
  · rw [hnil] at ht
    cases ht
  · obtain ⟨y, _, hleads⟩ := hs.leads_after hlast (slot?_of_registered? hr)
    exact ⟨r, hr, hleads.frame_eq.2 _ hturn⟩

/-- **What becomes of a road in a run that finishes**: it counts the vehicles that have entered, and has recorded the
trips that have ended. -/
theorem Sound.exists_unit?_afterRun (hs : s.Sound) {stats : RunStats} (hstats : s.outcome = .finished stats)
    (hr : s.registered? u = some r) : ∃ r', s.afterRun.unit? u = some r' ∧ r'.frame = r.unit.frame ∧
      r'.arrivals.toList = r.unit.arrivals.toList ++ (s.visits.filter (·.slot.id = u)).filterMap Visit.arrival? ∧
      r'.entered = r.unit.entered + (s.visits.filter (·.slot.id = u)).length := by
  obtain ⟨y, hy, hleads⟩ := (hs.returns_afterRun hstats).unit u _ (slot?_of_registered? hr)
  have hpasses : ∀ v s', .visit v s' ∈ s.turnsOf u → v.Passes s' := by
    intro v s' hv
    rcases List.mem_append.1 (List.mem_of_mem_filter hv) with hv | hv
    · cases visit?_of_mem_starts hv
    · obtain ⟨t, ht, hv⟩ := List.mem_flatMap.1 hv
      obtain ⟨v', hv', heq⟩ := List.mem_map.1 hv
      cases heq
      exact hs.passes_of_mem_visits ht (fault_eq_none_of_finished hstats t ht) hv'
  obtain ⟨harrivals, hentered⟩ := hleads.of_passes hpasses
  rw [filterMap_visit?_turnsOf] at harrivals hentered
  obtain ⟨r', hr', rfl⟩ := Option.map_eq_some_iff.1 hy
  exact ⟨r'.unit, by rw [unit?, hr', Option.map_some], hleads.frame_eq.1, harrivals, hentered⟩

end Scheduler

end EventSim
