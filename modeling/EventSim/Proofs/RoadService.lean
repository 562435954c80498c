import EventSim.Proofs.RoadTurns
import EventSim.Proofs.SequentialRefinement
import Mathlib.Data.List.Forall2
import Mathlib.Order.Bounds.Basic

set_option autoImplicit false

/-!
# The service of a road

A road serves the vehicles in the order in which they enter: none leaves before it has travelled, and none within a
headway of the one before it. The exits that the road gives are the earliest with these two properties. So each of them
is the latest of the times that the vehicles up to it ask for, which is to travel and then to wait a headway for every
vehicle that enters later. Times may be negative and need not be in order, and sums are rounded.

## Main definitions

* `EventSim.Road.exitTimes` — the recursion of exits.
* `EventSim.Road.Keeps` — exits with the two properties.
* `EventSim.Road.demands` — the times that vehicles ask for.
* `EventSim.Road.ServiceLaw` — what the exits of a road are like.
* `EventSim.Visit.Released` — what becomes of a vehicle at its exit.

## Main results

* `EventSim.Road.serviceLaw_exitTimes` — the recursion gives the earliest exits.
* `EventSim.Turn.Leads.map_exit` — the exits of vehicles that enter a road follow the recursion.
* `EventSim.Turn.Leads.serviceLaw` — the service law of a road.
-/

namespace EventSim

namespace Road

variable {travel headway : Binary64} {free exit exit' : SimTime} {entries exits : List SimTime} {k : Nat}

/-! ## Exits -/

/-- The exits of vehicles that enter a road at the given times, one after another, when the first of them may not leave
before some time. -/
def exitTimes (travel headway : Binary64) : SimTime → List SimTime → List SimTime
  | _, [] => []
  | free, entry :: entries =>
    max (entry.after travel) free ::
      exitTimes travel headway ((max (entry.after travel) free).after headway) entries

/-- Exits that a road may give to vehicles that enter at the given times. -/
structure Keeps (travel headway : Binary64) (entries exits : List SimTime) : Prop where
  /-- No vehicle leaves before it has travelled. -/
  travel_le : List.Forall₂ (fun entry exit => entry.after travel ≤ exit) entries exits
  /-- No vehicle leaves within a headway of the one before it. -/
  headway_le : exits.IsChain fun exit exit' => exit.after headway ≤ exit'

/-- The times that the vehicles up to a given one ask for as its exit: each of them travels, and then a headway passes
for every vehicle after it, up to the given one. -/
def demands (travel headway : Binary64) (entries : List SimTime) (k : Nat) : Set SimTime :=
  {t | ∃ j entry, j ≤ k ∧ entries[j]? = some entry ∧ t = (·.after headway)^[k - j] (entry.after travel)}

/-- What the exits from a road are like. -/
structure ServiceLaw (travel headway : Binary64) (entries exits : List SimTime) : Prop where
  /-- Each of them is the latest that is asked for. -/
  isGreatest : ∀ k exit, exits[k]? = some exit → IsGreatest (demands travel headway entries k) exit
  /-- Vehicles leave in the order in which they have entered. -/
  sorted : exits.Pairwise (· ≤ ·)
  /-- Each of them has travelled, and leaves a headway after the one before it. -/
  keeps : Keeps travel headway entries exits
  /-- No exit could be earlier. -/
  le_of_keeps : ∀ exits', Keeps travel headway entries exits' → List.Forall₂ (· ≤ ·) exits exits'

/-- No vehicle leaves before the road is free. -/
lemma free_le_head (hexit : exit ∈ (exitTimes travel headway free entries).head?) : free ≤ exit := by
  cases entries with
  | nil => cases hexit
  | cons entry entries =>
    obtain rfl : max (entry.after travel) free = exit := Option.some.inj hexit
    exact le_max_right ..

/-- The exits of the recursion have the two properties. -/
lemma keeps_exitTimes (travel headway : Binary64) (free : SimTime) (entries : List SimTime) :
    Keeps travel headway entries (exitTimes travel headway free entries) := by
  induction entries generalizing free with
  | nil => exact ⟨.nil, .nil⟩
  | cons entry entries ih =>
    obtain ⟨htravel, hheadway⟩ := ih ((max (entry.after travel) free).after headway)
    exact ⟨.cons (le_max_left ..) htravel, List.isChain_cons.2 ⟨fun _ => free_le_head, hheadway⟩⟩

/-- After the first exit, each one depends on the one before it. -/
lemma exists_of_getElem?_succ (h : (exitTimes travel headway free entries)[k + 1]? = some exit') :
    ∃ exit entry, (exitTimes travel headway free entries)[k]? = some exit ∧ entries[k + 1]? = some entry ∧
      exit' = max (entry.after travel) (exit.after headway) := by
  induction entries generalizing free k with
  | nil => cases h
  | cons entry entries ih =>
    rw [exitTimes, List.getElem?_cons_succ] at h
    cases k with
    | zero =>
      cases entries with
      | nil => cases h
      | cons entry' entries => exact ⟨_, entry', rfl, rfl, (Option.some.inj h).symm⟩
    | succ k => exact ih h

/-- At first the road is free. -/
lemma max_negInfinity {t : SimTime} (h : (max t ⟨Binary64.negInfinity⟩).isFinite = true) :
    max t ⟨Binary64.negInfinity⟩ = t := by
  refine (max_choice t ⟨Binary64.negInfinity⟩).resolve_right fun heq => ?_
  rw [heq] at h
  cases h

/-- What the first vehicle asks for. -/
lemma demands_zero {entry : SimTime} (h : entries[0]? = some entry) :
    demands travel headway entries 0 = {entry.after travel} := by
  refine Set.eq_singleton_iff_unique_mem.2 ⟨⟨0, entry, le_refl _, h, rfl⟩, ?_⟩
  rintro _ ⟨j, entry', hj, hentry', rfl⟩
  obtain rfl := Nat.le_zero.1 hj
  rw [Option.some.inj (hentry'.symm.trans h)]
  rfl

/-- What the vehicles ask for up to the next one: it asks for its own exit, and the others for a headway more. -/
lemma demands_succ {entry : SimTime} (h : entries[k + 1]? = some entry) :
    demands travel headway entries (k + 1) =
      insert (entry.after travel) ((·.after headway) '' demands travel headway entries k) := by
  have hwait : ∀ (j : Nat) (t : SimTime), j ≤ k →
      (·.after headway)^[k + 1 - j] t = ((·.after headway)^[k - j] t).after headway := fun j t hj => by
    rw [Nat.succ_sub hj, Function.iterate_succ_apply']
  ext t
  rw [Set.mem_insert_iff, Set.mem_image]
  constructor
  · rintro ⟨j, entry', hj, hentry', rfl⟩
    rcases Nat.le_succ_iff.1 hj with hj | rfl
    · exact Or.inr ⟨_, ⟨j, entry', hj, hentry', rfl⟩, (hwait j _ hj).symm⟩
    · rw [Option.some.inj (hentry'.symm.trans h), Nat.sub_self]
      exact Or.inl rfl
  · rintro (rfl | ⟨_, ⟨j, entry', hj, hentry', rfl⟩, rfl⟩)
    · exact ⟨k + 1, entry, le_refl _, h, by rw [Nat.sub_self]; rfl⟩
    · exact ⟨j, entry', Nat.le_succ_of_le hj, hentry', (hwait j _ hj).symm⟩

/-- **Each exit is the latest that is asked for**, if no vehicle has been on the road before.

**Proof sketch.** Induction on the number of the vehicle. The next exit is the later of two times: that of the vehicle
itself, and a headway after the exit before. To wait a headway is monotone, so that the second one is the latest of what
the others ask for. -/
theorem isGreatest_exitTimes (hheadway : Binary64.zero.numericLt headway = true)
    (hfinite : ∀ exit ∈ exitTimes travel headway ⟨Binary64.negInfinity⟩ entries, exit.isFinite = true)
    (hexit : (exitTimes travel headway ⟨Binary64.negInfinity⟩ entries)[k]? = some exit) :
    IsGreatest (demands travel headway entries k) exit := by
  have hexitFinite := hfinite exit (List.mem_of_getElem? hexit)
  induction k generalizing exit with
  | zero =>
    cases entries with
    | nil => cases hexit
    | cons entry entries =>
      obtain rfl : max (entry.after travel) ⟨Binary64.negInfinity⟩ = exit := Option.some.inj hexit
      have hfirst : (entry :: entries)[0]? = some entry := rfl
      rw [demands_zero hfirst, max_negInfinity hexitFinite]
      exact isGreatest_singleton
  | succ k ih =>
    obtain ⟨before, entry, hbefore, hentry, rfl⟩ := exists_of_getElem?_succ hexit
    have hbeforeFinite := hfinite before (List.mem_of_getElem? hbefore)
    obtain ⟨hmem, hupper⟩ := ih hbefore hbeforeFinite
    have hpositive := SimTime.isPositiveFinite_of_after_le hheadway hbeforeFinite hexitFinite (le_max_right ..)
    rw [demands_succ hentry]
    refine IsGreatest.insert _ ⟨Set.mem_image_of_mem _ hmem, ?_⟩
    rintro _ ⟨t, ht, rfl⟩
    exact SimTime.after_le_after hpositive (Or.inr hbeforeFinite) (hupper ht)

/-- **No exit could be earlier.**

**Proof sketch.** Induction on the vehicles. If the road is free by the other exit of the first one, then its exit is no
later than the other one, and so the road is free again by the other exit of the next. -/
theorem le_of_keeps (hheadway : Binary64.zero.numericLt headway = true)
    (hfinite : ∀ exit ∈ exitTimes travel headway free entries, exit.isFinite = true)
    (hkeeps : Keeps travel headway entries exits) (hfree : ∀ exit ∈ exits.head?, free ≤ exit) :
    List.Forall₂ (· ≤ ·) (exitTimes travel headway free entries) exits := by
  obtain ⟨htravel, hchain⟩ := hkeeps
  induction htravel generalizing free with
  | nil => exact .nil
  | @cons entry exit entries exits hle htravel ih =>
    obtain ⟨hhead, hchain⟩ := List.isChain_cons.1 hchain
    obtain ⟨hfirst, hrest⟩ := List.forall_mem_cons.1 hfinite
    have hexit : max (entry.after travel) free ≤ exit := max_le hle (hfree exit rfl)
    refine .cons hexit (ih hrest (fun next hnext => ?_) hchain)
    -- there is a next vehicle, so the headway is finite
    obtain ⟨entry', entries, rfl⟩ : ∃ entry' entries', entries = entry' :: entries' := by
      cases htravel with
      | nil => cases hnext
      | cons => exact ⟨_, _, rfl⟩
    have hpositive := SimTime.isPositiveFinite_of_after_le hheadway hfirst (hrest _ List.mem_cons_self)
      (le_max_right ..)
    exact (SimTime.after_le_after hpositive (Or.inl hfirst) hexit).trans (hhead next hnext)

/-- Exits that keep the headway are in order. -/
lemma sorted_of_headway_le (hheadway : Binary64.zero.numericLt headway = true)
    (hfinite : ∀ exit ∈ exits, exit.isFinite = true)
    (hchain : exits.IsChain fun exit exit' => exit.after headway ≤ exit') : exits.Pairwise (· ≤ ·) := by
  refine List.IsChain.pairwise ?_
  induction exits with
  | nil => exact .nil
  | cons exit exits ih =>
    obtain ⟨hhead, hchain⟩ := List.isChain_cons.1 hchain
    obtain ⟨hexit, hrest⟩ := List.forall_mem_cons.1 hfinite
    refine List.isChain_cons.2 ⟨fun next hnext => ?_, ih hrest hchain⟩
    have hpositive := SimTime.isPositiveFinite_of_after_le hheadway hexit (hrest next (List.mem_of_mem_head? hnext))
      (hhead next hnext)
    exact (SimTime.le_after hexit hpositive).trans (hhead next hnext)

/-- **The recursion gives the earliest exits**, if all of them are finite and no vehicle has been on the road before. -/
theorem serviceLaw_exitTimes (hheadway : Binary64.zero.numericLt headway = true)
    (hfinite : ∀ exit ∈ exitTimes travel headway ⟨Binary64.negInfinity⟩ entries, exit.isFinite = true) :
    ServiceLaw travel headway entries (exitTimes travel headway ⟨Binary64.negInfinity⟩ entries) where
  isGreatest _ _ hexit := isGreatest_exitTimes hheadway hfinite hexit
  sorted := sorted_of_headway_le hheadway hfinite (keeps_exitTimes ..).headway_le
  keeps := keeps_exitTimes ..
  le_of_keeps exits hkeeps := by
    refine le_of_keeps hheadway hfinite hkeeps fun exit hexit => ?_
    cases hkeeps.travel_le with
    | nil => cases hexit
    | @cons entry first entries _ hle =>
      obtain rfl : first = exit := Option.some.inj hexit
      have hfirst := max_negInfinity (hfinite _ List.mem_cons_self)
      exact (max_eq_left_iff.1 hfirst).trans hle

end Road

/-! ## Vehicles that enter a road -/

/-- When the vehicle of a visit leaves the road. -/
def Visit.exit (v : Visit Road TrafficEvent) : SimTime := v.slot.unit.exitTime v.message.time

/-- What becomes of a vehicle at its exit from a road that it is routed over. -/
inductive Visit.Released (s : Setting) (v : Visit Road TrafficEvent) : Prop
  /-- Its trip ends here. Its arrival is recorded for its exit, and nothing is sent. -/
  | arrives (hlast : v.slot.unit.population.nextLink? v.message.payload = none)
    (hok : (v.handled s).failure = none) (hsent : (v.handled s).sent = [])
    (harrivals : (v.slot.handle s v.message).1.unit.arrivals =
      v.slot.unit.arrivals.push ⟨v.message.payload.vehicle, v.slot.unit.link, v.exit⟩)
  /-- It is sent on to the next link, which it enters at its exit. -/
  | proceeds {next : LinkId} {id : MessageId}
    (hnext : v.slot.unit.population.nextLink? v.message.payload = some next)
    (hok : (v.handled s).failure = none)
    (hsent : (v.handled s).sent = [.deliver ⟨id, Id.ofNat next.index, v.exit, v.message.payload.onward⟩])
    (harrivals : (v.slot.handle s v.message).1.unit.arrivals = v.slot.unit.arrivals)
  /-- It cannot be sent on: its exit is infinite, a NaN or before the horizon, or the next road does not exist. -/
  | refused {next : LinkId} (hnext : v.slot.unit.population.nextLink? v.message.payload = some next)
    (hbars : v.exit.isFinite = false ∨ v.exit < s.horizon ∨ s.table.route? (Id.ofNat next.index) = none)
    (hfailed : (v.handled s).failure.isSome) (hsent : (v.handled s).sent = [])
    (harrivals : (v.slot.handle s v.message).1.unit.arrivals = v.slot.unit.arrivals)

/-- **A vehicle that is routed over a road is released at its exit.** -/
theorem Visit.released {s : Setting} {v : Visit Road TrafficEvent}
    (hlink : v.slot.unit.population.linkAt? v.message.payload = some v.slot.unit.link) : v.Released s := by
  have hpass := Slot.passage s v.slot v.message
  have hsent : (v.handled s).sent = (v.slot.call s v.message).context.sent.toList := rfl
  have hfailure : (v.handled s).failure = Worker.failure s.worker v.message (v.slot.call s v.message) := rfl
  have harrivals : (v.slot.handle s v.message).1.unit.arrivals = (v.slot.call s v.message).unit.arrivals := rfl
  generalize v.slot.call s v.message = k at hpass hsent hfailure harrivals
  cases hpass with
  | strays hstray => exact absurd hlink hstray
  | arrives _ hlast => exact .arrives hlast hfailure hsent harrivals
  | proceeds _ hnext _ => exact .proceeds hnext hfailure hsent harrivals
  | stuck _ hnext hbars _ => exact .refused hnext hbars (by rw [hfailure]; rfl) hsent harrivals

/-- A road is free again a headway after the exit of a vehicle that is routed over it. -/
lemma Road.Passage.nextFreeExit_eq {r : Road} {m : Message TrafficEvent} {c : Context TrafficEvent}
    {k : Call Road TrafficEvent} (h : r.Passage m c k) (hlink : r.population.linkAt? m.payload = some r.link) :
    k.unit.headway = r.headway ∧ k.unit.nextFreeExit = (r.exitTime m.time).after r.headway := by
  cases h with
  | strays hstray => exact absurd hlink hstray
  | arrives => exact ⟨rfl, rfl⟩
  | proceeds => exact ⟨rfl, rfl⟩
  | stuck => exact ⟨rfl, rfl⟩

namespace Turn

variable {x y : Slot Road} {cs : List (Turn Road TrafficEvent)}

/-- **The exits of vehicles that enter a road follow the recursion.** -/
theorem Leads.map_exit (h : Leads x cs y)
    (hlink : ∀ v ∈ cs.filterMap visit?, x.unit.population.linkAt? v.message.payload = some x.unit.link) :
    (cs.filterMap visit?).map Visit.exit = Road.exitTimes x.unit.freeTravel x.unit.headway x.unit.nextFreeExit
      ((cs.filterMap visit?).map (·.message.time)) := by
  induction cs generalizing x with
  | nil => rfl
  | cons c cs ih =>
    obtain ⟨rfl, h⟩ := h
    cases c with
    | start x table time =>
      have hrest := ih h (by rwa [unit_after_start])
      rwa [unit_after_start] at hrest
    | visit v s =>
      obtain ⟨hv, hrest⟩ := List.forall_mem_cons.1 hlink
      obtain ⟨hheadway, hfree⟩ := (Slot.passage s v.slot v.message).nextFreeExit_eq hv
      have hframe := frame_after (.visit v s)
      simp only [Road.frame, Prod.mk.injEq] at hframe
      obtain ⟨hlink', hpopulation, htravel⟩ := hframe
      have hexits := ih h fun w hw => by
        rw [hpopulation, hlink']
        exact hrest w hw
      rw [htravel, show (Turn.visit v s).after.unit.headway = v.slot.unit.headway from hheadway,
        show (Turn.visit v s).after.unit.nextFreeExit = _ from hfree] at hexits
      rw [List.filterMap_cons_some (show visit? (.visit v s) = some v from rfl), List.map_cons, List.map_cons, hexits]
      rfl

/-- **The service law of a road.** A road takes turns, and in each of them it is handed a vehicle that is routed over
it. If the headway is positive and all exits are finite, then the exits are the earliest that the road could give, and
each of them is the latest that the vehicles up to it ask for. At its exit a vehicle arrives or enters the next road,
unless that is refused. The entries need not be in order, and nothing is asked of the free travel time.

**Proof sketch.** Each turn takes the road to the next step of the recursion (`Leads.map_exit`). The first exit is
finite, so that the road was free at first. A headway between two finite exits is finite, and to wait that long is
monotone even for entries that are not finite (`SimTime.after_le_after`). -/
theorem Leads.serviceLaw {u : UnitId} {id : LinkId} {link : Link} {p : Population} {ds : List VehicleId} {seq : Nat}
    (h : Leads ⟨u, Road.ofLink id link p ds, seq⟩ cs y) (hheadway : Binary64.zero.numericLt link.headway = true)
    (hlink : ∀ v ∈ cs.filterMap visit?, p.linkAt? v.message.payload = some id)
    (hfinite : ∀ v ∈ cs.filterMap visit?, v.exit.isFinite = true) :
    Road.ServiceLaw link.freeTravel link.headway ((cs.filterMap visit?).map (·.message.time))
        ((cs.filterMap visit?).map Visit.exit) ∧
      ∀ v s, .visit v s ∈ cs → v.Released s := by
  have hexits := h.map_exit hlink
  constructor
  · rw [hexits]
    refine Road.serviceLaw_exitTimes hheadway fun exit hexit => ?_
    change exit ∈ Road.exitTimes (Road.ofLink id link p ds).freeTravel (Road.ofLink id link p ds).headway
      (Road.ofLink id link p ds).nextFreeExit _ at hexit
    rw [← hexits] at hexit
    obtain ⟨v, hv, rfl⟩ := List.mem_map.1 hexit
    exact hfinite v hv
  · intro v s hv
    have hframe := h.frame_eq.2 _ hv
    simp only [Road.frame, before, Prod.mk.injEq] at hframe
    refine Visit.released ?_
    rw [hframe.2.1, hframe.1]
    exact hlink v (List.mem_filterMap.2 ⟨_, hv, rfl⟩)

/-! ### A queue -/

/-- The turns of a unit that handles messages one after another. -/
def ofMessages {U P : Type} [Payload P] [SimUnit U P] (s : Setting) : Slot U → List (Message P) → List (Turn U P)
  | _, [] => []
  | x, m :: ms => .visit ⟨x, m⟩ s :: ofMessages s (x.handle s m).1 ms

lemma exists_leads_ofMessages {U P : Type} [Payload P] [SimUnit U P] (s : Setting) (x : Slot U)
    (ms : List (Message P)) : ∃ y, Leads x (ofMessages s x ms) y := by
  induction ms generalizing x with
  | nil => exact ⟨x, rfl⟩
  | cons m ms ih =>
    obtain ⟨y, hy⟩ := ih (x.handle s m).1
    exact ⟨y, rfl, hy⟩

/-- Three commuters enter a street. The second one is close behind the first one, and the trip of the third one ends
here. -/
def queue : List (Turn Road TrafficEvent) :=
  ofMessages ⟨Id.ofNat 0, Scheduler.streets.table, 1, SimTime.zero⟩ ⟨Id.ofNat 0, Scheduler.street (Id.ofNat 0), 0⟩
    [⟨⟨Id.ofNat 0, 0⟩, Id.ofNat 0, ⟨-Binary64.ofNat 5⟩, ⟨Id.ofNat 0, 0⟩⟩,
      ⟨⟨Id.ofNat 0, 1⟩, Id.ofNat 0, ⟨-Binary64.ofNat 4⟩, ⟨Id.ofNat 2, 0⟩⟩,
      ⟨⟨Id.ofNat 1, 0⟩, Id.ofNat 0, ⟨Binary64.ofNat 6⟩, ⟨Id.ofNat 1, 1⟩⟩]

/-- They enter at -5, -4 and 6. To travel takes ten seconds, and the headway is two seconds. So the second one has to
wait, and they leave at 5, 7 and 16. -/
theorem serviceLaw_queue :
    (queue.filterMap visit?).map (·.message.time) = [⟨-Binary64.ofNat 5⟩, ⟨-Binary64.ofNat 4⟩, ⟨Binary64.ofNat 6⟩] ∧
      (queue.filterMap visit?).map Visit.exit = [⟨Binary64.ofNat 5⟩, ⟨Binary64.ofNat 7⟩, ⟨Binary64.ofNat 16⟩] ∧
      Road.ServiceLaw (Binary64.ofNat 10) (Binary64.ofNat 2) ((queue.filterMap visit?).map (·.message.time))
        ((queue.filterMap visit?).map Visit.exit) ∧
      ∀ v s, .visit v s ∈ queue → v.Released s := by
  have htravel : (Scheduler.street (Id.ofNat 0)).freeTravel = Binary64.ofNat 10 := by decide +kernel
  have hheadway : (Scheduler.street (Id.ofNat 0)).headway = Binary64.ofNat 2 := by decide +kernel
  obtain ⟨y, hy⟩ : ∃ y, Leads ⟨Id.ofNat 0, Scheduler.street (Id.ofNat 0), 0⟩ queue y := exists_leads_ofMessages ..
  obtain ⟨hlaw, hreleased⟩ := Leads.serviceLaw hy (show Binary64.zero.numericLt (Scheduler.street _).headway = true by
    rw [hheadway]; decide) (by decide +kernel) (by decide +kernel)
  refine ⟨by decide +kernel, by decide +kernel, ?_, hreleased⟩
  rw [← htravel, ← hheadway]
  exact hlaw

end Turn

end EventSim
