import EventSim.Proofs.Adjacency
import EventSim.Proofs.RoadMessages
import EventSim.Proofs.SequentialRefinement
import EventSim.Proofs.TravelTimes
import Mathlib.Algebra.GroupWithZero.Nat

set_option autoImplicit false

/-!
# Trips

In a run of a scheduler that holds roads, every event of a trip but the last is followed by the next one. So when the
run finishes a vehicle has arrived at the end of its route, once, or just one of its events is left. Without an end
time nothing is left, every leg of every route has been driven once, and all vehicles have arrived.

## Main definitions

* `EventSim.Population.legs` — all legs of all routes.
* `EventSim.Scheduler.Conveyed` — what becomes of a vehicle.
* `EventSim.Scheduler.ConservesTrips` — what becomes of all vehicles.
* `EventSim.Scheduler.crowd` — more trips than there are vehicle numbers.

## Main results

* `EventSim.Population.Numbered.perm_legs` — events that follow each other from the outset are all legs.
* `EventSim.Scheduler.HoldsRoads.perm_flow` — the events of a run follow each other.
* `EventSim.Scheduler.HoldsRoads.perm_arrivals` — the arrivals that are found after a run.
* `EventSim.Scheduler.conservesTrips` — no trip gets lost, as long as no two vehicles share a number.
* `EventSim.Scheduler.HoldsRoads.size_le_of_conservesTrips` — that is needed.
-/

namespace EventSim

/-! ### Internal helpers: elements with keys of their own -/

/-- An element with a key of its own is found by it. -/
lemma filter_eq_singleton {α β : Type} [DecidableEq β] {f : α → β} {xs : List α} (hn : (xs.map f).Nodup) {x : α}
    (hx : x ∈ xs) : xs.filter (f · = f x) = [x] := by
  refine List.perm_singleton.1
    ((List.perm_ext_iff_of_nodup (hn.of_map.filter _) (List.nodup_singleton x)).2 fun y => ?_)
  rw [List.mem_filter, decide_eq_true_eq, List.mem_singleton]
  constructor
  · exact fun ⟨hy, heq⟩ => List.inj_on_of_nodup_map hn hy hx heq
  · rintro rfl
    exact ⟨hx, rfl⟩

/-- Nothing is found by a key that no element has. -/
lemma filter_eq_nil_of_not_mem {α β : Type} [DecidableEq β] {f : α → β} {xs : List α} {b : β}
    (h : b ∉ xs.map f) : xs.filter (f · = b) = [] :=
  List.filter_eq_nil_iff.2 fun _ hx heq => h (List.mem_map.2 ⟨_, hx, of_decide_eq_true heq⟩)

/-- A key occurs as often as elements are found by it. -/
lemma count_map_eq_length_filter {α β : Type} [DecidableEq β] (f : α → β) (xs : List α) (b : β) :
    (xs.map f).count b = (xs.filter (f · = b)).length := by
  rw [List.count_eq_countP, List.countP_map, ← List.countP_eq_length_filter]
  rfl

/-! ## Legs -/

namespace Population

variable {p : Population} {vehicle : Vehicle} {e : TrafficEvent} {es : List TrafficEvent}

/-- All legs of all routes. -/
def legs (p : Population) : List TrafficEvent :=
  p.vehicles.toList.flatMap fun vehicle =>
    (List.range vehicle.route.length).map fun k => ⟨vehicle.id, UInt32.ofNat k⟩

/-- Routes have as many legs as links. -/
lemma length_legs (p : Population) : p.legs.length = (p.vehicles.toList.map (·.route.length)).sum := by
  rw [legs, List.length_flatMap]
  simp only [List.length_map, List.length_range]

/-- The link of a leg is found in the route of its vehicle. -/
lemma Numbered.linkAt?_eq (hp : p.Numbered) (hv : vehicle ∈ p.vehicles.toList) (k : UInt32) :
    p.linkAt? ⟨vehicle.id, k⟩ = vehicle.route[k.toNat]? := by
  rw [linkAt?, hp.vehicle?_iff.2 ⟨hv, rfl⟩, Option.bind_some]

/-- So is the link that follows. -/
lemma Numbered.nextLink?_eq (hp : p.Numbered) (hv : vehicle ∈ p.vehicles.toList) (k : UInt32) :
    p.nextLink? ⟨vehicle.id, k⟩ = vehicle.route[k.toNat + 1]? := by
  rw [nextLink?, hp.vehicle?_iff.2 ⟨hv, rfl⟩, Option.bind_some]

section Words

variable (hlegs : ∀ vehicle ∈ p.vehicles.toList, vehicle.route.length ≤ UInt32.size)

include hlegs

/-- Legs have words of their own. -/
lemma toNat_ofNat_of_lt (hv : vehicle ∈ p.vehicles.toList) {k : Nat} (hk : k < vehicle.route.length) :
    (UInt32.ofNat k).toNat = k :=
  UInt32.toNat_ofNat_of_lt' (hk.trans_le (hlegs vehicle hv))

/-- An event about a link is a leg. -/
lemma Numbered.mem_legs_iff (hp : p.Numbered) : e ∈ p.legs ↔ (p.linkAt? e).isSome := by
  simp only [legs, List.mem_flatMap, List.mem_map, List.mem_range]
  constructor
  · rintro ⟨vehicle, hv, k, hk, rfl⟩
    rw [hp.linkAt?_eq hv, toNat_ofNat_of_lt hlegs hv hk, List.getElem?_eq_getElem hk]
    rfl
  · intro h
    obtain ⟨l, hl⟩ := Option.isSome_iff_exists.1 h
    obtain ⟨vehicle, hv, hid, hleg⟩ := hp.linkAt?_eq_some_iff.1 hl
    exact ⟨vehicle, hv, e.leg.toNat, (List.getElem?_eq_some_iff.1 hleg).1, by rw [hid, UInt32.ofNat_toNat]⟩

/-- No leg is listed twice. -/
lemma Numbered.nodup_legs (hp : p.Numbered) : p.legs.Nodup := by
  refine List.nodup_flatMap.2 ⟨fun vehicle hv => ?_, ?_⟩
  · refine List.nodup_range.map_on fun i hi j hj heq => ?_
    have hword : UInt32.ofNat i = UInt32.ofNat j := congrArg TrafficEvent.leg heq
    rw [← toNat_ofNat_of_lt hlegs hv (List.mem_range.1 hi), hword, toNat_ofNat_of_lt hlegs hv (List.mem_range.1 hj)]
  · refine (List.pairwise_map.1 hp.nodup_id).imp fun hne e he he' => ?_
    obtain ⟨_, _, rfl⟩ := List.mem_map.1 he
    obtain ⟨_, _, heq⟩ := List.mem_map.1 he'
    exact hne (congrArg TrafficEvent.vehicle heq).symm

/-- The links of all legs are those of all routes. -/
lemma Numbered.map_linkAt?_legs (hp : p.Numbered) :
    p.legs.map p.linkAt? = (p.vehicles.toList.flatMap (·.route)).map some := by
  rw [legs, List.map_flatMap, List.map_flatMap]
  refine List.flatMap_congr fun vehicle hv => ?_
  rw [List.map_map]
  refine List.ext_getElem (by simp) fun k hk _ => ?_
  rw [List.length_map, List.length_range] at hk
  rw [List.getElem_map, List.getElem_map, List.getElem_range, Function.comp_apply, hp.linkAt?_eq hv,
    toNat_ofNat_of_lt hlegs hv hk, List.getElem?_eq_getElem hk]

end Words

/-- The link of the last leg is the last link of the route. -/
lemma Numbered.exists_getLast? {l : LinkId} (hp : p.Numbered) (hl : p.linkAt? e = some l)
    (hend : ¬ (p.nextLink? e).isSome) :
    ∃ vehicle ∈ p.vehicles.toList, vehicle.id = e.vehicle ∧ vehicle.route.getLast? = some l := by
  obtain ⟨vehicle, hv, hid, hleg⟩ := hp.linkAt?_eq_some_iff.1 hl
  have hnext : p.nextLink? e = vehicle.route[e.leg.toNat + 1]? := by
    rw [← hp.nextLink?_eq hv, hid]
  rw [hnext, Option.not_isSome_iff_eq_none, List.getElem?_eq_none_iff] at hend
  have hlt := (List.getElem?_eq_some_iff.1 hleg).1
  have hlast : vehicle.route.length - 1 = e.leg.toNat := by omega
  exact ⟨vehicle, hv, hid, by rw [List.getLast?_eq_getElem?, hlast, hleg]⟩

/-- A vehicle sets out for the first leg of its route. -/
lemma Numbered.mem_outset_iff (hp : p.Numbered) : e ∈ p.outset ↔ e.leg = 0 ∧ (p.linkAt? e).isSome := by
  obtain ⟨v, k⟩ := e
  rw [outset, List.mem_map]
  constructor
  · rintro ⟨vehicle, hv, heq⟩
    cases heq
    rw [hp.linkAt?_eq hv, UInt32.toNat_zero,
      List.getElem?_eq_getElem (List.length_pos_iff.2 (hp.route_ne_nil vehicle hv))]
    exact ⟨rfl, rfl⟩
  · rintro ⟨rfl, hlink⟩
    obtain ⟨l, hl⟩ := Option.isSome_iff_exists.1 hlink
    obtain ⟨vehicle, hv, rfl, _⟩ := hp.linkAt?_eq_some_iff.1 hl
    exact ⟨vehicle, hv, rfl⟩

/-- No vehicle sets out twice. -/
lemma Numbered.nodup_outset (hp : p.Numbered) : p.outset.Nodup := by
  refine List.Nodup.of_map TrafficEvent.vehicle ?_
  rw [outset, List.map_map]
  exact hp.nodup_id

/-! ### Events that follow each other -/

/-- The event of a leg follows that of the leg before it, if there is such a leg, and no other event. -/
lemma count_filterMap_next? (es : List TrafficEvent) (e : TrafficEvent) :
    (es.filterMap p.next?).count e.onward = if (p.nextLink? e).isSome then es.count e else 0 := by
  rw [List.count_filterMap]
  split
  · rename_i hnext
    rw [List.count_eq_countP]
    refine List.countP_congr fun e' _ => ?_
    rw [beq_iff_eq, beq_iff_eq, next?, Option.ite_none_right_eq_some, Option.some.injEq]
    constructor
    · exact fun h => TrafficEvent.onward_injective h.2
    · rintro rfl
      exact ⟨hnext, rfl⟩
  · rename_i hnext
    rw [List.countP_eq_zero]
    intro e' _ h
    rw [beq_iff_eq, next?, Option.ite_none_right_eq_some, Option.some.injEq] at h
    obtain rfl := TrafficEvent.onward_injective h.2
    exact hnext h.1

/-- First legs follow nothing, if there are words for all legs of the route. -/
lemma count_filterMap_next?_of_leg_eq_zero (es : List TrafficEvent) (hzero : e.leg = 0)
    (hlegs : ∀ vehicle ∈ p.vehicle? e.vehicle, vehicle.route.length ≤ UInt32.size) :
    (es.filterMap p.next?).count e = 0 := by
  obtain ⟨e', rfl⟩ := e.exists_onward_eq
  have hlegs : ∀ vehicle ∈ p.vehicle? e'.vehicle, vehicle.route.length ≤ UInt32.size := hlegs
  rw [count_filterMap_next?, if_neg fun hnext => leg_onward_ne_zero hlegs hnext hzero]

section Flow

variable (hp : p.Numbered) (h : es.Perm (p.outset ++ es.filterMap p.next?))

include hp h

/-- Events that are not first legs are as many as those of the legs before them. -/
lemma Numbered.count_onward (hleg : e.onward.leg ≠ 0) :
    es.count e.onward = if (p.nextLink? e).isSome then es.count e else 0 := by
  have hout : e.onward ∉ p.outset := fun hmem => hleg (hp.mem_outset_iff.1 hmem).1
  rw [List.perm_iff_count.1 h, List.count_append, List.count_eq_zero_of_not_mem hout, Nat.zero_add,
    count_filterMap_next?]

/-- When every event is followed by the next one, there are words for all legs: otherwise a vehicle would come round to
leg zero, and as often as it has set out there would be one event more of that leg. -/
lemma Numbered.length_route_le (hv : vehicle ∈ p.vehicles.toList) : vehicle.route.length ≤ UInt32.size := by
  by_contra hlong
  have hnext : ∀ k : UInt32, (p.nextLink? ⟨vehicle.id, k⟩).isSome := fun k => by
    have hlt : k.toNat < UInt32.size := k.toNat_lt_size
    rw [hp.nextLink?_eq hv, List.getElem?_eq_getElem (by omega)]
    rfl
  -- all legs have as many events as the first one
  have hsame : ∀ (n : Nat) (k : UInt32), k.toNat = n → es.count ⟨vehicle.id, k⟩ = es.count ⟨vehicle.id, 0⟩ := by
    intro n
    induction n with
    | zero =>
      intro k hk
      rw [UInt32.toNat_inj.1 (hk.trans UInt32.toNat_zero.symm)]
    | succ n ih =>
      intro k hk
      obtain ⟨⟨v, j⟩, heq⟩ := TrafficEvent.exists_onward_eq ⟨vehicle.id, k⟩
      obtain rfl : v = vehicle.id := congrArg TrafficEvent.vehicle heq
      have hword : (TrafficEvent.onward ⟨vehicle.id, j⟩).leg = k := congrArg TrafficEvent.leg heq
      have hleg : (TrafficEvent.onward ⟨vehicle.id, j⟩).leg ≠ 0 := fun hzero => by
        rw [← hword, hzero] at hk
        cases hk
      have hj := TrafficEvent.toNat_leg_onward hleg
      rw [hword, hk] at hj
      rw [← heq, hp.count_onward h hleg, if_pos (hnext j), ih j (Nat.succ.inj hj).symm]
  obtain ⟨⟨v, j⟩, heq⟩ := TrafficEvent.exists_onward_eq ⟨vehicle.id, 0⟩
  obtain rfl : v = vehicle.id := congrArg TrafficEvent.vehicle heq
  have hset : (⟨vehicle.id, 0⟩ : TrafficEvent) ∈ p.outset := List.mem_map.2 ⟨vehicle, hv, rfl⟩
  have hcount := List.perm_iff_count.1 h ⟨vehicle.id, 0⟩
  rw [List.count_append, hp.nodup_outset.count, if_pos hset, ← heq, count_filterMap_next?, if_pos (hnext j), heq,
    hsame _ j rfl] at hcount
  omega

/-- **Events that follow each other from the outset are all legs**, each once.

**Proof sketch.** Count the events of one vehicle, leg by leg: the first leg comes from the outset, and every other
one follows the leg before it. -/
theorem Numbered.perm_legs : es.Perm p.legs := by
  have hlegs : ∀ vehicle ∈ p.vehicles.toList, vehicle.route.length ≤ UInt32.size := fun vehicle =>
    hp.length_route_le h
  have hcount : ∀ (n : Nat) (e : TrafficEvent), e.leg.toNat = n →
      es.count e = if (p.linkAt? e).isSome then 1 else 0 := by
    intro n
    induction n with
    | zero =>
      intro e he
      have hzero : e.leg = 0 := UInt32.toNat_inj.1 (he.trans UInt32.toNat_zero.symm)
      rw [List.perm_iff_count.1 h, List.count_append, hp.nodup_outset.count,
        count_filterMap_next?_of_leg_eq_zero es hzero fun vehicle hvehicle =>
          hlegs vehicle (mem_of_vehicle? hvehicle), Nat.add_zero]
      simp only [hp.mem_outset_iff, hzero, true_and]
    | succ n ih =>
      intro e he
      obtain ⟨e', rfl⟩ := e.exists_onward_eq
      have hleg : e'.onward.leg ≠ 0 := fun hzero => by
        rw [hzero] at he
        cases he
      have he' := TrafficEvent.toNat_leg_onward hleg
      rw [he] at he'
      rw [hp.count_onward h hleg, p.linkAt?_onward hleg, ih e' (Nat.succ.inj he').symm]
      split
      · rename_i hnext
        -- a route that has a leg has the one before it
        obtain ⟨l, hl⟩ := Option.isSome_iff_exists.1 hnext
        obtain ⟨vehicle, hvehicle, hroute⟩ := Option.bind_eq_some_iff.1 hl
        have hlt : e'.leg.toNat + 1 < vehicle.route.length := (List.getElem?_eq_some_iff.1 hroute).1
        rw [linkAt?, hvehicle, Option.bind_some, List.getElem?_eq_getElem (Nat.lt_of_succ_lt hlt)]
        rfl
      · rfl
  refine List.perm_iff_count.2 fun e => ?_
  rw [hcount _ e rfl, (hp.nodup_legs hlegs).count]
  simp only [hp.mem_legs_iff hlegs]

end Flow

end Population

namespace Scheduler

/-! ## The events of a run -/

section Units

variable {U P : Type} [Payload P] [SimUnit U P] {s : Scheduler U P} {stats : RunStats}

/-- What a run delivers is what its visits are for. -/
lemma Sound.delivered_eq_map_visits (hs : s.Sound) : s.delivered s.stages = s.visits.map (·.message) := by
  rw [delivered, visits, List.map_flatMap]
  exact List.flatMap_congr fun t ht => Stage.delivered_eq_map_visits (hs.coherent_of_mem ht)

/-- In a run that finishes all units have started. -/
lemma Sound.starts_of_finished (hs : s.Sound) (hstats : s.outcome = .finished stats) :
    ∀ x ∈ s.placed, x.Starts s.table s.config.startTime := by
  intro x hx
  cases hfirst : s.firstStage? with
  | none =>
    rw [hs.placed_eq_nil (leastLookahead_eq_none_of_finished hstats hfirst)] at hx
    cases hx
  | some t =>
    obtain ⟨delta, _, _, hall, _⟩ := hs.firstStage?_eq_some_iff.1 hfirst
    exact hall x.id x (hs.mem_placed.1 hx)

/-- When nothing is withdrawn in a run that finishes, what is posted is delivered or left. -/
lemma Sound.perm_leftOver_of_plain (hs : s.Sound) (hstats : s.outcome = .finished stats)
    (hplain : Envelope.handles (s.envelopes s.stages) = []) :
    (s.posted s.stages).Perm (s.delivered s.stages ++ s.leftOver) := by
  obtain ⟨ms, hperm, _⟩ := hs.exists_perm_of_finished hstats
  have hleft := hs.perm_leftOver hperm
  rw [hs.withdrawn_stages_eq_nil hplain, List.nil_append] at hperm
  exact hperm.trans (hleft.symm.append_left _)

omit [Payload P] [SimUnit U P] in
/-- The units are listed by the numbers that have been given. -/
lemma Sound.flatMap_unitList {β : Type} (hs : s.Sound) {s' : Scheduler U P} (hcount : s'.unitCount = s.unitCount)
    (f : U → List β) : (s'.unitList.flatMap fun x => f x.2) = s.numbers.flatMap fun u =>
      ((s'.unit? u).map f).getD [] := by
  have hlist : ∀ (xs : List (Option (Registered U))) (k : Nat), ((xs.zipIdx k).filterMap fun x =>
      x.1.map fun r => ((Id.ofNat x.2 : UnitId), r.unit)).flatMap (fun x => f x.2) =
        xs.flatMap fun r => (r.map fun r => f r.unit).getD [] := by
    intro xs
    induction xs with
    | nil => exact fun _ => rfl
    | cons r xs ih =>
      intro k
      rw [List.zipIdx_cons, List.filterMap_cons, List.flatMap_cons, ← ih (k + 1)]
      cases r <;> rfl
  have hsize : s'.units.toList.length = s.unitCount := hcount
  refine (hlist s'.units.toList 0).trans ?_
  rw [← flatMap_range_getElem?, hsize, numbers, List.flatMap_map]
  refine List.flatMap_congr fun i hi => ?_
  rw [unit?, registered?_eq, hs.index_ofNat (List.mem_range.1 hi), Array.getElem?_toList]
  cases s'.units[i]? with
  | none => rfl
  | some r => cases r <;> rfl

end Units

namespace HoldsRoads

variable {s : Scheduler Road TrafficEvent} {p : Population} {stats : RunStats}

section Finished

variable (h : s.HoldsRoads p) (hstats : s.outcome = .finished stats)

include h hstats

/-- In a run that finishes nothing is withdrawn. -/
lemma handles_envelopes : Envelope.handles (s.envelopes s.stages) = [] := by
  have hsound := h.isSetUp.sound
  rw [envelopes, Envelope.handles, List.filterMap_append, List.append_eq_nil_iff]
  refine ⟨h.handles_opening (hsound.starts_of_finished hstats), List.filterMap_eq_nil_iff.2 fun y hy => ?_⟩
  obtain ⟨t, ht, hy⟩ := List.mem_flatMap.1 hy
  rw [Stage.sent_eq_flatMap_visits (hsound.coherent_of_mem ht)] at hy
  obtain ⟨v, hv, hy⟩ := List.mem_flatMap.1 hy
  have hpass := hsound.passes_of_mem_visits ht (fault_eq_none_of_finished hstats t ht) hv
  exact List.filterMap_eq_nil_iff.1 hpass.plain y hy

/-- What roads schedule are the next events of the vehicles that enter them. -/
lemma map_payload_accepted : (s.stages.flatMap fun t => (t.record s.config).accepted).map (·.payload) =
    (s.visits.map (·.message.payload)).filterMap p.next? := by
  have hsound := h.isSetUp.sound
  rw [visits, List.map_flatMap, List.map_flatMap, List.filterMap_flatMap]
  refine List.flatMap_congr fun t ht => ?_
  rw [RoundRecord.accepted, Stage.sent_eq_flatMap_visits (hsound.coherent_of_mem ht), Envelope.messages_flatMap,
    List.map_flatMap, List.filterMap_map, List.filterMap_eq_flatMap_toList]
  refine List.flatMap_congr fun v hv => ?_
  rw [(hsound.passes_of_mem_visits ht (fault_eq_none_of_finished hstats t ht) hv).sent, (h.of_mem_visits ht hv).2.1]
  rfl

/-- The events that roads send off when they start, and the next ones of those that are handled, are handled or left. -/
lemma perm_events : ((Envelope.messages s.opening).map (·.payload) ++
    (s.visits.map (·.message.payload)).filterMap p.next?).Perm
      (s.visits.map (·.message.payload) ++ s.leftOver.map (·.payload)) := by
  have hsound := h.isSetUp.sound
  have hperm := (hsound.perm_leftOver_of_plain hstats (h.handles_envelopes hstats)).map (·.payload)
  rwa [posted, List.map_append, List.map_append, h.map_payload_accepted hstats, hsound.delivered_eq_map_visits,
    List.map_map] at hperm

section Covered

variable (hcovers : s.CoversRoutes p) (hroutes : ∀ vehicle ∈ p.vehicles.toList, vehicle.route ≠ [])

include hcovers hroutes

/-- **The events of a run follow each other** from the outset, up to those that are left. -/
theorem perm_flow : (p.outset ++ (s.visits.map (·.message.payload)).filterMap p.next?).Perm
    (s.visits.map (·.message.payload) ++ s.leftOver.map (·.payload)) :=
  ((h.perm_opening (h.isSetUp.sound.starts_of_finished hstats) hcovers hroutes).symm.append_right _).trans
    (h.perm_events hstats)

end Covered

/-! ## Arrivals -/

/-- **What is found of a road after a run that finishes.** -/
theorem of_unit?_afterRun {u : UnitId} {r : Road} (hr : s.afterRun.unit? u = some r) : r.link = u.link ∧
    r.arrivals.toList = (s.visits.filter (·.slot.id = u)).filterMap Visit.arrival? ∧
      r.entered = (s.visits.filter (·.slot.id = u)).length := by
  have hsound := h.isSetUp.sound
  have hworker := (hsound.returns_afterRun hstats).worker u
  obtain ⟨r', hr', _⟩ := Option.map_eq_some_iff.1 hr
  rw [workerOf?, hr', Option.map_some] at hworker
  obtain ⟨r₀, hr₀, _⟩ := Option.map_eq_some_iff.1 hworker.symm
  obtain ⟨link, hunit, _⟩ := h.road u r₀ hr₀
  obtain ⟨r'', hr'', hframe, harrivals, hentered⟩ := hsound.exists_unit?_afterRun hstats hr₀
  cases hr.symm.trans hr''
  rw [hunit] at hframe harrivals hentered
  exact ⟨congrArg Prod.fst hframe, harrivals.trans (List.nil_append _), hentered.trans (Nat.zero_add _)⟩

/-- A road that a vehicle has entered is found after the run. -/
lemma exists_unit?_of_mem_visits {v : Visit Road TrafficEvent} (hv : v ∈ s.visits) :
    ∃ r, s.afterRun.unit? v.slot.id = some r := by
  obtain ⟨t, ht, hv⟩ := List.mem_flatMap.1 hv
  obtain ⟨_, _, r, hr, _⟩ := h.of_mem_visits ht hv
  obtain ⟨r', hr', _⟩ := h.isSetUp.sound.exists_unit?_afterRun hstats hr
  exact ⟨r', hr'⟩

/-- The roads that are listed after a run have recorded the arrivals of its visits. -/
lemma flatMap_arrivals : (s.afterRun.unitList.flatMap fun x => x.2.arrivals.toList) =
    (s.numbers.flatMap fun u => s.visits.filter (·.slot.id = u)).filterMap Visit.arrival? := by
  have hsound := h.isSetUp.sound
  rw [List.filterMap_flatMap]
  refine (hsound.flatMap_unitList (hsound.returns_afterRun hstats).count (·.arrivals.toList)).trans
    (List.flatMap_congr fun u _ => ?_)
  cases hr : s.afterRun.unit? u with
  | some r => exact (h.of_unit?_afterRun hstats hr).2.1
  | none =>
    -- no vehicle enters where there is no road
    have hnil : s.visits.filter (·.slot.id = u) = [] := List.filter_eq_nil_iff.2 fun v hv hid => by
      obtain ⟨r, hr'⟩ := h.exists_unit?_of_mem_visits hstats hv
      rw [of_decide_eq_true hid, hr] at hr'
      cases hr'
    rw [hnil]
    rfl

/-- **The arrivals that are found after a run** are those of its visits. -/
theorem perm_arrivals : s.afterRun.arrivals.Perm (s.visits.filterMap Visit.arrival?) := by
  have hsound := h.isSetUp.sound
  refine ((List.mergeSort_perm _ _).trans (List.Perm.of_eq (h.flatMap_arrivals hstats))).trans ?_
  refine (flatMap_filter_perm hsound.nodup_numbers _ fun v hv => ?_).filterMap _
  obtain ⟨t, ht, hv⟩ := List.mem_flatMap.1 hv
  obtain ⟨_, _, r, hr, _⟩ := h.of_mem_visits ht hv
  exact hsound.mem_numbers hr

/-- A vehicle enters the road that its event is about. -/
lemma linkAt?_of_mem_visits {v : Visit Road TrafficEvent} (hv : v ∈ s.visits) :
    v.slot.unit.link = v.slot.id.link ∧ v.slot.unit.population = p ∧
      p.linkAt? v.message.payload = some v.slot.id.link := by
  obtain ⟨t, ht, hv⟩ := List.mem_flatMap.1 hv
  obtain ⟨hlink, hpopulation, _⟩ := h.of_mem_visits ht hv
  have hhere := (h.isSetUp.sound.passes_of_mem_visits ht (fault_eq_none_of_finished hstats t ht) hv).linkAt?_eq
  rw [hpopulation, hlink] at hhere
  exact ⟨hlink, hpopulation, hhere⟩

/-- What departs by the end is routed where it departs from, even if vehicles share numbers. -/
lemma linkAt?_of_mem_departingFrom {x : Slot Road} (hx : x ∈ s.placed) {v : VehicleId}
    (hv : v ∈ p.departingFrom x.id.link)
    (hdue : ∀ vehicle ∈ p.vehicle? v, ∀ finish ∈ s.config.endTime, vehicle.departure ≤ finish) :
    p.linkAt? ⟨v, 0⟩ = some x.id.link := by
  have hsound := h.isSetUp.sound
  have hpair : (x.id, (⟨v, 0⟩ : TrafficEvent)) ∈
      (Envelope.messages s.opening).map fun m => (m.target, m.payload) := by
    rw [h.map_messages_opening (hsound.starts_of_finished hstats)]
    exact List.mem_flatMap.2 ⟨x, hx, List.mem_map_of_mem hv⟩
  obtain ⟨m, hm, heq⟩ := List.mem_map.1 hpair
  obtain ⟨htarget, hpayload⟩ := Prod.mk.inj heq
  -- the event is delivered
  obtain ⟨vehicle, hvehicle, -, htime⟩ := h.departure_of_mem_opening hm
  rw [hpayload] at hvehicle
  have hdelivered := ((h.isSetUp.serves hstats).served m (List.mem_append_left _ hm)
    (htime ▸ hdue vehicle hvehicle)).resolve_right fun hwithdrawn => by
      rw [hsound.withdrawn_stages_eq_nil (h.handles_envelopes hstats)] at hwithdrawn
      cases hwithdrawn
  rw [hsound.delivered_eq_map_visits] at hdelivered
  obtain ⟨visit, hvisit, rfl⟩ := List.mem_map.1 hdelivered
  obtain ⟨t, ht, hmem⟩ := List.mem_flatMap.1 hvisit
  have hslot := (Stage.map_outline_handled (hsound.coherent_of_mem ht)).2 visit hmem
  rw [← hpayload, (h.linkAt?_of_mem_visits hstats hvisit).2.2, hslot, htarget]

/-- An arrival is that of a vehicle at the end of its route, and recorded there. -/
lemma of_mem_arrivals (hp : p.Numbered) {a : Arrival} (ha : a ∈ s.afterRun.arrivals) :
    ∃ vehicle ∈ p.vehicles.toList, vehicle.id = a.vehicle ∧ vehicle.route.getLast? = some a.link ∧
      ∃ r, s.afterRun.unit? (Id.ofNat a.link.index) = some r ∧ r.link = a.link ∧ a ∈ r.arrivals.toList := by
  obtain ⟨v, hv, harrival⟩ := List.mem_filterMap.1 ((h.perm_arrivals hstats).subset ha)
  obtain ⟨r, hr⟩ := h.exists_unit?_of_mem_visits hstats hv
  obtain ⟨hrlink, hrecorded, _⟩ := h.of_unit?_afterRun hstats hr
  have hmem : a ∈ r.arrivals.toList := by
    rw [hrecorded]
    exact List.mem_filterMap.2 ⟨v, List.mem_filter.2 ⟨hv, decide_eq_true rfl⟩, harrival⟩
  obtain ⟨hlink, hpopulation, hhere⟩ := h.linkAt?_of_mem_visits hstats hv
  rw [Visit.arrival?, hpopulation, hlink] at harrival
  split at harrival
  · cases harrival
  rename_i hend
  cases harrival
  obtain ⟨vehicle, hvehicle, hid, hlast⟩ := hp.exists_getLast? hhere hend
  exact ⟨vehicle, hvehicle, hid, hlast, r, by rw [Id.ofNat_link, hr], hrlink, hmem⟩

omit hstats in
/-- Every vehicle that enters a road goes on or arrives. -/
lemma perm_vehicles_visits : (s.visits.map (·.message.payload.vehicle)).Perm
    (((s.visits.map (·.message.payload)).filterMap p.next?).map (·.vehicle) ++
      (s.visits.filterMap Visit.arrival?).map (·.vehicle)) := by
  have hpopulation : ∀ v ∈ s.visits, v.slot.unit.population = p := fun v hv => by
    obtain ⟨t, ht, hv⟩ := List.mem_flatMap.1 hv
    exact (h.of_mem_visits ht hv).2.1
  clear h
  generalize s.visits = vs at hpopulation
  induction vs with
  | nil => exact List.Perm.refl _
  | cons v vs ih =>
    obtain ⟨hv, hvs⟩ := List.forall_mem_cons.1 hpopulation
    rw [List.map_cons, List.map_cons, List.filterMap_cons, List.filterMap_cons, Population.next?, Visit.arrival?, hv]
    by_cases hnext : (p.nextLink? v.message.payload).isSome
    · rw [if_pos hnext, if_pos hnext]
      exact (ih hvs).cons _
    · rw [if_neg hnext, if_neg hnext]
      exact ((ih hvs).cons _).trans List.perm_middle.symm

/-- **Every vehicle has arrived or is under way**, and not twice. -/
theorem perm_vehicles (hcovers : s.CoversRoutes p) (hroutes : ∀ vehicle ∈ p.vehicles.toList, vehicle.route ≠ []) :
    (p.vehicles.toList.map (·.id)).Perm
    (s.afterRun.arrivals.map (·.vehicle) ++ s.leftOver.map (·.payload.vehicle)) := by
  have hflow := (h.perm_flow hstats hcovers hroutes).map (·.vehicle)
  rw [List.map_append, List.map_append, List.map_map, List.map_map, Population.outset, List.map_map] at hflow
  have harrivals := (h.perm_arrivals hstats).map (·.vehicle)
  refine (List.Perm.trans ?_ (harrivals.symm.append_right _))
  -- the vehicles that go on are on both sides
  refine (List.perm_append_left_iff
    (((s.visits.map (·.message.payload)).filterMap p.next?).map (·.vehicle))).1 ?_
  rw [← List.append_assoc]
  exact (List.perm_append_comm.trans hflow).trans (h.perm_vehicles_visits.append_right _)

end Finished

end HoldsRoads

/-! ## What becomes of vehicles -/

/-- What becomes of a vehicle in a run. -/
inductive Conveyed (s : Scheduler Road TrafficEvent) (vehicle : Vehicle) : Prop
  /-- It has arrived, once. The arrival is that at the end of its route, and recorded there. Nothing is left of the
  trip. -/
  | arrived {a : Arrival} {r : Road} (harrived : s.afterRun.arrivals.filter (·.vehicle = vehicle.id) = [a])
    (hlast : vehicle.route.getLast? = some a.link) (hroad : s.afterRun.unit? (Id.ofNat a.link.index) = some r)
    (hlink : r.link = a.link) (hrecorded : a ∈ r.arrivals.toList)
    (hleft : s.leftOver.filter (·.payload.vehicle = vehicle.id) = [])
  /-- It is under way, and has not arrived. Just one of its events is left. -/
  | underway {m : Message TrafficEvent} (harrived : s.afterRun.arrivals.filter (·.vehicle = vehicle.id) = [])
    (hleft : s.leftOver.filter (·.payload.vehicle = vehicle.id) = [m])

/-- What becomes of all vehicles in a run that finishes with the given figures. -/
structure ConservesTrips (s : Scheduler Road TrafficEvent) (p : Population) (stats : RunStats) : Prop where
  /-- Every vehicle has arrived or is under way. -/
  conveyed : ∀ vehicle ∈ p.vehicles.toList, s.Conveyed vehicle
  /-- The figures count the vehicles that are under way, and the others have arrived. -/
  total : stats.undelivered = s.leftOver.length ∧ s.afterRun.arrivals.length + stats.undelivered = p.size
  /-- Without an end all vehicles have arrived, and are listed in order. -/
  arrivals : s.config.endTime = none → s.afterRun.arrivals.map (·.vehicle.index) = List.range p.size
  /-- Without an end every road has been entered as often as the routes lead over its link. -/
  entered : s.config.endTime = none → ∀ u r, s.afterRun.unit? u = some r →
    r.link.index = u.index ∧ r.entered = (p.vehicles.toList.flatMap (·.route)).count r.link
  /-- Without an end every leg of every route has been delivered. -/
  delivered : s.config.endTime = none → stats.delivered = (p.vehicles.toList.map (·.route.length)).sum

namespace HoldsRoads

variable {s : Scheduler Road TrafficEvent} {p : Population} {stats : RunStats}

section Finished

variable (h : s.HoldsRoads p) (hcovers : s.CoversRoutes p) (hp : p.Numbered) (hstats : s.outcome = .finished stats)

include h hcovers hp hstats

/-- Every vehicle has arrived or is under way. -/
lemma conveyed {vehicle : Vehicle} (hv : vehicle ∈ p.vehicles.toList) : s.Conveyed vehicle := by
  have hperm := h.perm_vehicles hstats hcovers hp.route_ne_nil
  have hnodup := hperm.nodup_iff.1 hp.nodup_id
  obtain ⟨harrivals, hleft, hdisjoint⟩ := List.nodup_append.1 hnodup
  rcases List.mem_append.1 (hperm.subset (List.mem_map_of_mem hv)) with hmem | hmem
  · obtain ⟨a, ha, hid⟩ := List.mem_map.1 hmem
    obtain ⟨vehicle', hv', hid', hlast, r, hroad, hlink, hrecorded⟩ := h.of_mem_arrivals hstats hp ha
    obtain rfl := List.inj_on_of_nodup_map hp.nodup_id hv' hv (hid'.trans hid)
    refine .arrived (hid' ▸ filter_eq_singleton harrivals ha) hlast hroad hlink hrecorded
      (filter_eq_nil_of_not_mem fun hmem' => ?_)
    exact hdisjoint _ hmem _ hmem' rfl
  · obtain ⟨m, hm, hid⟩ := List.mem_map.1 hmem
    refine .underway (filter_eq_nil_of_not_mem fun hmem' => ?_) (hid ▸ filter_eq_singleton hleft hm)
    exact hdisjoint _ hmem' _ hmem rfl

omit hp in
/-- Where no trip gets lost no two vehicles share a number: every vehicle is found once among those that have arrived
and those under way. -/
lemma size_le_of_conservesTrips (hroutes : ∀ vehicle ∈ p.vehicles.toList, vehicle.route ≠ [])
    (hall : s.ConservesTrips p stats) : p.size ≤ UInt32.size := by
  have hperm := h.perm_vehicles hstats hcovers hroutes
  refine Population.size_le_of_nodup (List.nodup_iff_count_le_one.2 fun v => ?_)
  by_cases hv : v ∈ p.vehicles.toList.map (·.id)
  · obtain ⟨vehicle, hvehicle, rfl⟩ := List.mem_map.1 hv
    rw [hperm.count_eq, List.count_append, count_map_eq_length_filter, count_map_eq_length_filter]
    cases hall.conveyed vehicle hvehicle with
    | arrived harrived _ _ _ _ hleft => rw [harrived, hleft, List.length_singleton, List.length_nil]
    | underway harrived hleft => rw [harrived, hleft, List.length_singleton, List.length_nil]
  · rw [List.count_eq_zero_of_not_mem hv]
    exact Nat.zero_le 1

/-- Without an end every event of a run that is not a first one follows another. -/
lemma perm_next (hend : s.config.endTime = none) : (s.visits.map (·.message.payload)).Perm
    (p.outset ++ (s.visits.map (·.message.payload)).filterMap p.next?) := by
  have hflow := h.perm_flow hstats hcovers hp.route_ne_nil
  rw [(h.isSetUp.serves hstats).none_left hend |>.1, List.map_nil, List.append_nil] at hflow
  exact hflow.symm

/-- Without an end all vehicles have arrived, and are listed in order. -/
lemma map_index_arrivals (hend : s.config.endTime = none) :
    s.afterRun.arrivals.map (·.vehicle.index) = List.range p.size := by
  have hperm := (h.perm_vehicles hstats hcovers hp.route_ne_nil).map (·.index)
  rw [((h.isSetUp.serves hstats).none_left hend).1, List.map_nil, List.append_nil, List.map_map, List.map_map,
    show p.vehicles.toList.map ((·.index) ∘ (·.id)) = List.range p.size from hp.map_index] at hperm
  have hsorted : s.afterRun.arrivals.Pairwise (·.vehicle.index ≤ ·.vehicle.index) := by
    refine (List.pairwise_mergeSort (fun a b c => ?_) (fun a b => ?_) _).imp of_decide_eq_true
    · simpa using Nat.le_trans
    · simpa using Nat.le_total _ _
  exact (List.Perm.eq_of_pairwise (fun a b _ _ => Nat.le_antisymm) (List.pairwise_le_range)
    (List.pairwise_map.2 hsorted) hperm).symm

/-- Without an end every road has been entered as often as the routes lead over its link. -/
lemma entered_eq (hend : s.config.endTime = none) {u : UnitId} {r : Road} (hr : s.afterRun.unit? u = some r) :
    r.link.index = u.index ∧ r.entered = (p.vehicles.toList.flatMap (·.route)).count r.link := by
  obtain ⟨hlink, _, hentered⟩ := h.of_unit?_afterRun hstats hr
  refine ⟨congrArg Id.index hlink, ?_⟩
  have hnext := h.perm_next hcovers hp hstats hend
  have hlinks := (hp.perm_legs hnext).map p.linkAt?
  rw [hp.map_linkAt?_legs fun vehicle => hp.length_route_le hnext, List.map_map] at hlinks
  rw [hentered, ← List.count_map_of_injective _ some (Option.some_injective _), ← hlinks.count_eq,
    ← List.countP_eq_length_filter, List.count_eq_countP, List.countP_map]
  refine List.countP_congr fun v hv => ?_
  rw [decide_eq_true_eq, Function.comp_apply, Function.comp_apply, (h.linkAt?_of_mem_visits hstats hv).2.2, beq_iff_eq,
    Option.some.injEq, hlink]
  exact ⟨congrArg Id.link, fun heq => by rw [← Id.ofNat_link v.slot.id, heq, Id.ofNat_link]⟩

/-- Without an end every leg of every route has been delivered. -/
lemma delivered_eq (hend : s.config.endTime = none) :
    stats.delivered = (p.vehicles.toList.map (·.route.length)).sum := by
  have hlegs := (hp.perm_legs (h.perm_next hcovers hp hstats hend)).length_eq
  rw [List.length_map, p.length_legs] at hlegs
  rw [← hlegs, ← List.length_map (·.message), ← h.isSetUp.sound.delivered_eq_map_visits]
  rcases stages_eq_nil_or_append s with ⟨hnil, hfirst⟩ | ⟨ts, t, hstages⟩
  · rw [stats_eq_of_finished hstats hfirst, hnil]
    rfl
  · obtain ⟨hf, _, _, hfigures⟩ := h.isSetUp.sound.stats_of_finished hstages hstats
    rw [hfigures, (length_delivered (fault_eq_none_of_finished hstats)).1, hstages]

end Finished

end HoldsRoads

end Scheduler

/-! ## Commuters -/

/-- A street between two crossings, to and fro. -/
def highStreet : Network where
  nodes := #[⟨Binary64.ofNat 0, Binary64.ofNat 0⟩, ⟨Binary64.ofNat 100, Binary64.ofNat 0⟩]
  links := #[⟨Id.ofNat 0, Id.ofNat 1, Binary64.ofNat 100, Binary64.ofNat 10, Binary64.ofNat 1800⟩,
    ⟨Id.ofNat 1, Id.ofNat 0, Binary64.ofNat 100, Binary64.ofNat 10, Binary64.ofNat 1800⟩]
  outStart := #[0, 1, 2]

lemma build_highStreet : NetworkBuilder.build ⟨highStreet.nodes, highStreet.links⟩ = .ok highStreet :=
  NetworkBuilder.build_of_pairwise (by decide +kernel) (by decide +kernel) (by decide +kernel) (by decide +kernel)

namespace Scheduler

/-- Two workers that skip idle rounds, with the given end. -/
def brisk (finish : Option SimTime) : RunConfig := { workers := 2, endTime := finish, skipIdleRounds := true }

/-- The street with its commuters. -/
def rushHour (finish : Option SimTime) : Scheduler Road TrafficEvent :=
  (({ config := brisk finish } : Scheduler Road TrafficEvent).registerRoads highStreet commuters
    [Id.ofNat 0, Id.ofNat 1]).2

lemma new_rushHour {finish : Option SimTime} (h : (brisk finish).check = .ok ()) :
    Scheduler.new (brisk finish) = .ok ({ config := brisk finish } : Scheduler Road TrafficEvent) := by
  rw [Scheduler.new, h]

lemma registerRoads_rushHour (finish : Option SimTime) :
    ({ config := brisk finish } : Scheduler Road TrafficEvent).registerRoads highStreet commuters
      [Id.ofNat 0, Id.ofNat 1] = (.ok (), rushHour finish) := rfl

lemma ofTrips_commuters :
    Population.ofTrips (commuters.vehicles.toList.map fun v => (v.route, v.departure)) = .ok commuters := rfl

lemma size_commuters : commuters.size ≤ UInt32.size := by decide

/-- One vehicle more than there are numbers. All of them depart after three seconds, and all but the last go over the
first link of the street. -/
def crowd (last : LinkId) : List (List LinkId × SimTime) :=
  List.replicate UInt32.size ([Id.ofNat 0], ⟨Binary64.ofNat 3⟩) ++ [([last], ⟨Binary64.ofNat 3⟩)]

/-- A scheduler for one worker that stops at the given end. -/
def curfew (finish : SimTime) : Scheduler Road TrafficEvent := { config := { endTime := some finish } }

lemma new_curfew {finish : SimTime} (h : (curfew finish).config.check = .ok ()) :
    Scheduler.new (curfew finish).config = .ok (curfew finish) := by
  rw [Scheduler.new, h]
  rfl

section Crowd

variable {last : LinkId} {finish : SimTime} {s : Scheduler Road TrafficEvent} {p : Population}
  (hnew : Scheduler.new (curfew finish).config = .ok (curfew finish))

/-- The trips of the crowd lead over one link, and begin after three seconds. -/
lemma of_mem_crowd {trip : List LinkId × SimTime} (h : trip ∈ crowd last) :
    (trip.1 = [Id.ofNat 0] ∨ trip.1 = [last]) ∧ trip.2 = ⟨Binary64.ofNat 3⟩ := by
  rw [crowd, List.mem_append, List.mem_singleton] at h
  rcases h with h | rfl
  · rw [List.eq_of_mem_replicate h]
    exact ⟨Or.inl rfl, rfl⟩
  · exact ⟨Or.inr rfl, rfl⟩

section Trips

variable (hp : Population.ofTrips (crowd last) = .ok p)

include hp

/-- So do those of its vehicles. -/
lemma of_mem_vehicles_crowd {vehicle : Vehicle} (hv : vehicle ∈ p.vehicles.toList) :
    (vehicle.route = [Id.ofNat 0] ∨ vehicle.route = [last]) ∧ vehicle.departure = ⟨Binary64.ofNat 3⟩ := by
  rw [(Population.vehicles_ofTrips hp).1] at hv
  obtain ⟨⟨trip, i⟩, hx, rfl⟩ := List.mem_map.1 hv
  exact of_mem_crowd (List.fst_mem_of_mem_zipIdx hx)

/-- There is one vehicle more than there are numbers. -/
lemma size_crowd : p.size = UInt32.size + 1 := by
  rw [Population.size, ← Array.length_toList, (Population.vehicles_ofTrips hp).1, List.length_map, List.length_zipIdx,
    crowd, List.length_append, List.length_replicate, List.length_singleton]

end Trips

include hnew

/-- A crowd can take to the street. -/
lemma exists_crowd (hlast : last.index < 2) : ∃ p s, Population.ofTrips (crowd last) = .ok p ∧
    (curfew finish).registerRoads highStreet p [Id.ofNat 0, Id.ofNat 0] = (.ok (), s) := by
  have hroutes : ∀ trip ∈ crowd last, trip.1 ≠ [] := fun trip htrip hnil => by
    rcases (of_mem_crowd htrip).1 with hroute | hroute <;> rw [hnil] at hroute <;> cases hroute
  obtain ⟨p, hp⟩ := Population.exists_ofTrips hroutes
  have hcheck : checkScenario highStreet p [Id.ofNat 0, Id.ofNat 0] = .ok () := by
    rw [checkScenario, if_neg (by decide)]
    refine forM_eq_ok_iff.2 fun vehicle hv => forM_eq_ok_iff.2 fun l hl => ?_
    have hlt : l.index < highStreet.linkCount := by
      rcases (of_mem_vehicles_crowd hp hv).1 with hroute | hroute <;> rw [hroute, List.mem_singleton] at hl <;> rw [hl]
      · decide
      · exact hlast
    rw [Network.checkLink, if_pos hlt]
    rfl
  have hworkers : ∀ w ∈ [Id.ofNat 0, Id.ofNat 0], (w : WorkerId).index < RunConfig.workers {} := by decide
  have hok : ((curfew finish).registerRoads highStreet p [Id.ofNat 0, Id.ofNat 0]).1 = .ok () :=
    registerRoads_eq_ok hnew hcheck hworkers (by decide) (by decide +kernel)
  exact ⟨p, _, hp, Prod.ext hok rfl⟩

variable (hp : Population.ofTrips (crowd last) = .ok p)
  (hroads : (curfew finish).registerRoads highStreet p [Id.ofNat 0, Id.ofNat 0] = (.ok (), s))

include hp hroads

/-- The crowd departs after the start. -/
lemma departure_crowd {vehicle : Vehicle} (hv : vehicle ∈ p.vehicles.toList) :
    vehicle.departure.isFinite = true ∧ s.config.startTime ≤ vehicle.departure := by
  obtain ⟨-, hconfig⟩ := holdsRoads_registerRoads hnew hroads
  rw [hconfig, (of_mem_vehicles_crowd hp hv).2]
  have hstart : RunConfig.startTime {} ≤ ⟨Binary64.ofNat 3⟩ := by decide +kernel
  exact ⟨by decide +kernel, hstart⟩

/-- When the end is earlier than the ten seconds that the street takes, there is one round. -/
lemma exists_stages_crowd (hle : RunConfig.startTime {} ≤ finish) (hlt : finish < ⟨Binary64.ofNat 10⟩) :
    ∃ t, s.stages = [t] ∧ ((t.record s.config).fault = none → ∃ stats, s.outcome = .finished stats) := by
  obtain ⟨h, hconfig⟩ := holdsRoads_registerRoads hnew hroads
  have hdelta : s.leastLookahead = some ⟨Binary64.ofNat 10⟩ := by
    rw [(registerListed_eq_ok (of_registerRoads hroads).2).1]
    change SimTime.earliest? [⟨(highStreet.links[0]).freeTravel⟩, ⟨(highStreet.links[1]).freeTravel⟩] = _
    decide +kernel
  have hfirst : (⟨Binary64.ofNat 10⟩ : SimTime) ≤
      (Horizon.first (RunConfig.startTime {}) ⟨Binary64.ofNat 10⟩).current := by
    decide +kernel
  have hstarts : ∀ u x, s.slot? u = some x → x.Starts s.table s.config.startTime := fun u x =>
    h.starts (fun vehicle => departure_crowd hnew hp hroads) fun vehicle => Population.isSome_vehicle?_of_ofTrips hp
  have hstart : s.config.startTime = RunConfig.startTime {} := (congrArg RunConfig.startTime hconfig).trans rfl
  have hend : finish ∈ s.config.endTime := congrArg RunConfig.endTime hconfig
  rw [← hstart] at hle hfirst
  exact h.isSetUp.sound.exists_stages_of_end_lt hdelta hstarts hend hle (lt_of_lt_of_le hlt hfirst)

end Crowd

end Scheduler

end EventSim
