import EventSim.Proofs.MessageNumbers
import EventSim.Proofs.Recovery

set_option autoImplicit false

/-!
# The turns of a unit

In a run a unit takes its turns: it starts, and then handles one message after another. Each turn finds the unit
as the turn before has left it, whichever other units take turns in between. So the turns of a unit lead from its
state before the run to its state after it, and its running number goes up with the messages that it schedules.

## Main definitions

* `EventSim.Turn` — a call in which a unit starts or handles a message.
* `EventSim.Turn.Leads` — turns that lead from one state of a unit to another.
* `EventSim.StartUp.starters` — the units of a worker that take their first turns.
* `EventSim.Scheduler.turns`, `EventSim.Scheduler.turnsOf` — the turns of a run.

## Main results

* `EventSim.Turn.Leads.nextSeq` — the sequence counter goes up with every message that is accepted.
* `EventSim.Worker.leads_visits`, `EventSim.Stage.leads_turns` — what a round makes of a unit.
* `EventSim.Scheduler.Sound.leads_starts` — what the start makes of a unit.
* `EventSim.Scheduler.Sound.leads_after` — what a run makes of a unit.
* `EventSim.Scheduler.Sound.map_turns`, `EventSim.Scheduler.Sound.handles_turnsOf` — the turns of a run are its
  calls.
-/

namespace EventSim

variable {U P : Type}

/-! ## Turns -/

/-- A call in which a unit starts or handles a message. -/
inductive Turn (U P : Type) where
  /-- The unit starts, and finds the routing table and the time of the start. -/
  | start (slot : Slot U) (table : RoutingTable) (time : SimTime)
  /-- The unit handles a message in a round. -/
  | visit (visit : Visit U P) (setting : Setting)

namespace Turn

variable [Payload P] [SimUnit U P] {x y z : Slot U} {cs ds : List (Turn U P)}

omit [Payload P] [SimUnit U P] in
/-- The unit before the call. -/
def before : Turn U P → Slot U
  | .start x _ _ => x
  | .visit v _ => v.slot

/-- The unit after the call. -/
def after : Turn U P → Slot U
  | .start x table time => x.started table time
  | .visit v s => (v.slot.handle s v.message).1

/-- The exchanges of the call. -/
def transcript : Turn U P → List (Exchange P)
  | .start x table time => x.startTranscript table time
  | .visit v s => v.transcript s

/-- The handles of the messages that are accepted in the call. -/
def handles (c : Turn U P) : List Handle := c.transcript.filterMap Exchange.handle?

/-- The turns lead from the one state of a unit to the other: each of them finds the unit as the turn before has
left it. -/
def Leads : Slot U → List (Turn U P) → Slot U → Prop
  | x, [], y => x = y
  | x, c :: cs, y => c.before = x ∧ Leads c.after cs y

/-- A unit takes some turns and then others. -/
lemma Leads.append (h : Leads x cs y) (h' : Leads y ds z) : Leads x (cs ++ ds) z := by
  induction cs generalizing x with
  | nil =>
    obtain rfl : x = y := h
    exact h'
  | cons c cs ih => exact ⟨h.1, ih h.2⟩

/-- In a turn the unit stays the same unit, and its sequence counter goes up with every message that is
accepted. -/
lemma nextSeq_after (c : Turn U P) :
    c.after.id = c.before.id ∧ c.after.nextSeq = c.before.nextSeq + c.handles.length := by
  have hlength : ∀ xs : List (Exchange P), (Envelope.messages (xs.filterMap Exchange.envelope?)).length =
      (xs.filterMap Exchange.handle?).length := fun xs => by
    simpa using congrArg List.length (Exchange.map_id_messages xs)
  cases c with
  | start x table time =>
    refine ⟨rfl, ((x.started_advances table time).nextSeq).trans ?_⟩
    rw [Slot.opening_eq, hlength]
    rfl
  | visit v s =>
    refine ⟨rfl, ((v.slot.handle_advances s v.message).nextSeq).trans ?_⟩
    rw [Slot.sent_handle, hlength]
    rfl

/-- **The sequence counter of a unit goes up with every message that it has accepted.** -/
theorem Leads.nextSeq (h : Leads x cs y) :
    y.id = x.id ∧ y.nextSeq = x.nextSeq + (cs.flatMap (·.handles)).length := by
  induction cs generalizing x with
  | nil =>
    obtain rfl : x = y := h
    exact ⟨rfl, rfl⟩
  | cons c cs ih =>
    obtain ⟨rfl, h⟩ := h
    obtain ⟨hid, hseq⟩ := ih h
    obtain ⟨hid', hseq'⟩ := c.nextSeq_after
    rw [List.flatMap_cons, List.length_append, hid, hid', hseq, hseq', Nat.add_assoc]
    exact ⟨rfl, rfl⟩

end Turn

open Turn (Leads)

section Turns

variable [Payload P] [SimUnit U P] {u : UnitId} {x : Slot U}

/-! ## Turns in a round -/

/-- **What a worker makes of a unit** when it hands over messages: the visits of the unit lead from what it was to
what it is then.

**Proof sketch.** Induction on the messages. The first one is handled by its target, which is the unit or another
one that leaves the unit as it is. -/
theorem Worker.leads_visits {table : RoutingTable} {round : Nat} {horizon : SimTime} {w : Worker U P}
    {ms : List (Message P)} {s : Setting} (hp : w.Placed table) (ho : ∀ m ∈ ms, w.Owns table m.target)
    (hs : (w.setting table round horizon).Alike s) (hx : w.slot? table u = some x) :
    ∃ y, (w.deliverAll table round horizon ms).1.slot? table u = some y ∧
      Leads x (((w.visits table round horizon ms).filter (·.slot.id = u)).map (.visit · s)) y := by
  induction ms generalizing w x with
  | nil => exact ⟨x, hx, rfl⟩
  | cons m ms ih =>
    have hm := ho m List.mem_cons_self
    obtain ⟨hp', z, hz, hout, hself, hother⟩ := slot?_deliver round horizon hp hm
    obtain ⟨r, z', hr, _, hplace, hid, hz'⟩ := hp.exists_slot hm
    cases hz.symm.trans hz'
    have hs' : ((w.deliver table round horizon m).1.setting table round horizon).Alike s := by
      rwa [setting_deliver]
    have ho' : ∀ n ∈ ms, (w.deliver table round horizon m).1.Owns table n.target := fun n hn =>
      (ho n (List.mem_cons_of_mem _ hn)).deliver m
    have hafter := (Slot.handle_congr (x := z) (m := m) hs).1
    rw [deliverAll_cons, visits_cons hr hplace]
    by_cases hu : z.id = u
    · -- the unit itself handles the message
      rw [← hid, hu] at hz hself
      cases hz.symm.trans hx
      rw [List.filter_cons_of_pos (by simpa using hu), List.map_cons]
      split
      · exact ⟨_, hself, rfl, hafter.symm⟩
      · obtain ⟨y, hy, hleads⟩ := ih hp' ho' hs' hself
        refine ⟨y, hy, rfl, ?_⟩
        rw [Turn.after, ← hafter]
        exact hleads
    · rw [List.filter_cons_of_neg (by simpa using hu)]
      have hx' : (w.deliver table round horizon m).1.slot? table u = some x := by
        rw [hother u fun h => hu (hid.trans h.symm), hx]
      split
      · exact ⟨x, hx', rfl⟩
      · exact ih hp' ho' hs' hx'

namespace Stage

variable {config : RunConfig} {t : Stage U P}

/-- The turns of a round, worker by worker. -/
def turns (config : RunConfig) (t : Stage U P) : List (Turn U P) := (t.visits config).map (.visit · t.setting)

/-- The visits of a unit in a round are those at its worker. -/
lemma filter_visits (hc : t.engine.Coherent t.past) {i : Nat} {w : Worker U P}
    (hw : t.engine.workers[i]? = some w) (ho : t.engine.postbox.table.owner? u = some i) :
    (t.visits config).filter (·.slot.id = u) = (t.visitsAt config w).filter (·.slot.id = u) := by
  refine hc.filter_flatMap_workers hw ho fun j w' hj v hv => ?_
  have hmem : w' ∈ t.engine.workers.toList := Array.mem_toList_iff.2 (Array.mem_of_getElem? hj)
  rw [(handled_part hc hmem).2 v hv]
  exact hc.due_owned config t.horizon.current hj _ (Worker.message_mem_of_mem_visits hv)

/-- **What a round makes of a unit**: its turns lead from what it was to what it is then. -/
theorem leads_turns (config : RunConfig) (hc : t.engine.Coherent t.past) (hx : t.engine.slot? u = some x) :
    ∃ y, (t.after config).slot? u = some y ∧ Leads x ((t.turns config).filter (·.before.id = u)) y := by
  obtain ⟨i, w, hw, hx⟩ := hc.slot?_eq_some_iff.1 hx
  have hturns : (t.turns config).filter (·.before.id = u) =
      ((t.visitsAt config w).filter (·.slot.id = u)).map (.visit · t.setting) := by
    rw [turns, List.filter_map, ← filter_visits hc hw (hc.owner_of_slot? hw hx)]
    rfl
  have hplaced := Worker.primed_placed config t.horizon.current (t.engine.stagedFor w.id t.past) (hc.placed hw)
  have howned : ∀ m ∈ w.due config t.horizon.current (t.engine.stagedFor w.id t.past),
      (w.primed config t.horizon.current (t.engine.stagedFor w.id t.past)).Owns t.engine.postbox.table m.target :=
    hc.due_owned config t.horizon.current hw
  obtain ⟨y, hy, hleads⟩ := Worker.leads_visits (u := u) (x := x) hplaced howned
    (Engine.Coherent.alike_setting t.engine t.past t.horizon.current w) hx
  rw [hturns]
  refine ⟨y, (hc.runRound config t.horizon.current).slot?_eq_some_iff.2
    ⟨i, (t.engine.part config t.past t.horizon.current w).1, ?_, ?_⟩, hleads⟩
  · rw [Engine.getElem?_workers_runRound, hw, Option.map_some]
  · obtain ⟨hid, _, hslots, _⟩ := Worker.runRound_frame config t.engine.postbox.table (t.past + 1)
      t.horizon.current (t.engine.stagedFor w.id t.past) w
    obtain ⟨hid', _⟩ := Worker.deliverAll_frame t.engine.postbox.table (t.past + 1) t.horizon.current
      (w.primed config t.horizon.current (t.engine.stagedFor w.id t.past))
      (w.due config t.horizon.current (t.engine.stagedFor w.id t.past))
    rw [Engine.table_runRound, Engine.part, Worker.slot?, hid, hslots]
    rw [Worker.slot?, hid'] at hy
    exact hy

end Stage

/-! ## First turns -/

namespace StartUp

variable {table : RoutingTable} {start : SimTime} {xs : List (Slot U)} {su : StartUp U P}

/-- The units of a worker that take their first turns: all of them, or those up to the first that complains. -/
def starters (table : RoutingTable) (start : SimTime) : List (Slot U) → List (Slot U)
  | [] => []
  | x :: xs => x :: if (x.startCall table start).fault.isSome then [] else starters table start xs

lemma starters_subset : starters table start xs ⊆ xs := by
  induction xs with
  | nil => exact List.Subset.refl _
  | cons x xs ih =>
    rw [starters]
    split
    · exact List.cons_subset_cons x (List.nil_subset _)
    · exact List.cons_subset_cons x ih

/-- Units that start let the next ones take their turns. -/
lemma starters_append {before : List (Slot U)} (h : ∀ x ∈ before, x.Starts table start) (xs : List (Slot U)) :
    starters table start (before ++ xs) = before ++ starters table start xs := by
  induction before with
  | nil => rfl
  | cons x before ih =>
    obtain ⟨hx, hbefore⟩ := List.forall_mem_cons.1 h
    rw [List.cons_append, starters, hx.2, Option.isSome_none, if_neg Bool.false_ne_true, ih hbefore,
      List.cons_append]

/-- If all units of a worker start, each of them takes its first turn. -/
lemma starters_eq_self (h : ∀ x ∈ xs, x.Starts table start) : starters table start xs = xs := by
  have happend := starters_append h []
  rwa [List.append_nil, starters, List.append_nil] at happend

/-- Some units of a worker take their first turns, and the others wait. -/
lemma exists_waiting (h : ofSlots table start xs = .ok su) :
    ∃ waiting, xs = starters table start xs ++ waiting ∧
      su.slots = (starters table start xs).map (·.started table start) ++ waiting := by
  rcases ofSlots_cases h with ⟨hall, rfl⟩ | ⟨before, x, rest, e, rfl, hbefore, _, hfault, rfl⟩
  · refine ⟨[], ?_⟩
    rw [starters_eq_self hall, List.append_nil, List.append_nil]
    exact ⟨rfl, rfl⟩
  · refine ⟨rest, ?_⟩
    rw [starters_append hbefore, starters, hfault, Option.isSome_some, if_pos rfl]
    simp

/-- The units of a worker stay in their places when they start. -/
lemma map_id_slots (h : ofSlots table start xs = .ok su) : su.slots.map (·.id) = xs.map (·.id) := by
  rcases ofSlots_cases h with ⟨_, rfl⟩ | ⟨before, x, rest, _, rfl, _, _, _, rfl⟩ <;> simp

/-- **What the start makes of the units of a worker.** Those that start have taken one turn, and the others are as
they were. -/
theorem leads_starters (h : ofSlots table start xs = .ok su) (hn : (xs.map (·.id)).Nodup) {k : Nat}
    (hx : xs[k]? = some x) : ∃ y, su.slots[k]? = some y ∧
      Leads x (((starters table start xs).filter (·.id = x.id)).map (.start · table start)) y := by
  obtain ⟨waiting, hxs, hslots⟩ := exists_waiting h
  have hinj : ∀ y ∈ xs, y.id = x.id → y = x := fun y hy hid =>
    List.inj_on_of_nodup_map hn hy (List.mem_of_getElem? hx) hid
  have hnodup : xs.Nodup := hn.of_map
  generalize starters table start xs = ys at hxs hslots
  subst hxs
  rw [hslots]
  rcases Nat.lt_or_ge k ys.length with hk | hk
  · -- the unit is one of those that start
    rw [List.getElem?_append_left hk] at hx
    have hfilter : ys.filter (·.id = x.id) = [x] := by
      refine List.perm_singleton.1 ((List.perm_ext_iff_of_nodup ?_ (List.nodup_singleton x)).2 fun y => ?_)
      · exact (List.nodup_append.1 hnodup).1.filter _
      · rw [List.mem_filter, decide_eq_true_eq, List.mem_singleton]
        constructor
        · exact fun ⟨hy, hid⟩ => hinj y (List.mem_append_left _ hy) hid
        · rintro rfl
          exact ⟨List.mem_of_getElem? hx, rfl⟩
    refine ⟨x.started table start, ?_, by rw [hfilter]; exact ⟨rfl, rfl⟩⟩
    rw [List.getElem?_append_left (by rwa [List.length_map]), List.getElem?_map, hx, Option.map_some]
  · rw [List.getElem?_append_right hk] at hx
    have hfilter : ys.filter (·.id = x.id) = [] := by
      refine List.filter_eq_nil_iff.2 fun y hy hid => ?_
      obtain rfl := hinj y (List.mem_append_left _ hy) (of_decide_eq_true hid)
      exact List.disjoint_of_nodup_append hnodup hy (List.mem_of_getElem? hx)
    refine ⟨x, ?_, by rw [hfilter]; exact rfl⟩
    rw [List.getElem?_append_right (by rwa [List.length_map]), List.length_map, hx]

end StartUp

/-! ## The turns of a run -/

namespace Scheduler

variable {s : Scheduler U P} {t : Stage U P} {ts rest : List (Stage U P)} {started : List (StartUp U P)}

/-- The first turns of the units. They are taken only if there are units and the first horizon moves. -/
def starts (s : Scheduler U P) : List (Turn U P) :=
  if s.state = .setup ∧ s.leastLookahead.any fun delta =>
      s.config.startTime < (Horizon.first s.config.startTime delta).current then
    s.placement.slots.toList.flatMap fun xs =>
      (StartUp.starters s.table s.config.startTime xs.toList).map (.start · s.table s.config.startTime)
  else []

/-- The turns of a run: first those in which units start, then those of the rounds. -/
def turns (s : Scheduler U P) : List (Turn U P) := s.starts ++ s.stages.flatMap (·.turns s.config)

/-- The turns of one unit in a run, in order. -/
def turnsOf (s : Scheduler U P) (u : UnitId) : List (Turn U P) := s.turns.filter (·.before.id = u)

namespace Sound

/-- What is at a place when units start is what was there before, after its first turn if it takes one.

**Proof sketch.** The units of other workers are other units, so only the starts at its own worker count. -/
theorem leads_starts (hs : s.Sound) {delta : SimTime} (hdelta : s.leastLookahead = some delta)
    (hmoves : s.config.startTime < (Horizon.first s.config.startTime delta).current)
    (hstart : s.startUp = .ok started) : s.table.Places (started.map (·.slots)) ∧
      ∀ u x, s.slot? u = some x → ∃ y, s.table.slotAt? (started.map (·.slots)) u = some y ∧
        Leads x (s.starts.filter (·.before.id = u)) y := by
  have hplaces : s.table.Places (started.map (·.slots)) := by
    refine hs.places.of_map_id ?_
    rw [List.map_map]
    exact map_eq_of_mapM_eq_ok (fun _ _ => StartUp.map_id_slots) hstart
  refine ⟨hplaces, fun u x hx => ?_⟩
  rw [← hs.slotAt?_placement, hs.places.slotAt?_eq_some_iff] at hx
  obtain ⟨rfl, w, k, xs, hxs, hx⟩ := hx
  obtain ⟨su, hsu, hok⟩ := exists_of_mapM_eq_ok hstart hxs
  obtain ⟨y, hy, hleads⟩ := StartUp.leads_starters hok (hs.places.nodup hxs) hx
  have hstarts : s.starts.filter (·.before.id = x.id) = ((StartUp.starters s.table s.config.startTime xs).filter
      (·.id = x.id)).map (.start · s.table s.config.startTime) := by
    rw [List.getElem?_map] at hxs
    obtain ⟨ys, hys, rfl⟩ := Option.map_eq_some_iff.1 hxs
    rw [starts, if_pos ⟨hs.state_eq, by simpa [hdelta] using hmoves⟩, List.filter_flatMap]
    refine (flatMap_eq_of_getElem? hys fun j zs hj hne => ?_).trans List.filter_map
    refine List.filter_eq_nil_iff.2 fun c hc hid => ?_
    obtain ⟨z, hz, rfl⟩ := List.mem_map.1 hc
    obtain ⟨i, hi⟩ := List.getElem?_of_mem (StartUp.starters_subset hz)
    obtain ⟨r, hr, hw, _⟩ := hs.places.route (by rw [List.getElem?_map, hj]; rfl) hi
    obtain ⟨r', hr', hw', _⟩ := hs.places.route (by rw [List.getElem?_map, hys]; rfl) hx
    rw [show z.id = x.id from of_decide_eq_true hid, hr'] at hr
    cases hr
    exact hne (hw.symm.trans hw')
  rw [hstarts]
  refine ⟨y, hplaces.slotAt?_eq_some_iff.2 ⟨hleads.nextSeq.1, w, k, su.slots, ?_, hy⟩, hleads⟩
  rw [List.getElem?_map, hsu, Option.map_some]

omit [Payload P] [SimUnit U P] in
/-- The workers begin with the units that have started. -/
lemma slots_engineOf (table : RoutingTable) (seeds : Array (Message P)) (started : List (StartUp U P)) :
    (engineOf table seeds started).workers.toList.map (·.slots.toList) = started.map (·.slots) := by
  have hfst := congrArg (List.map fun su : StartUp U P => su.slots) (List.zipIdx_map_fst 0 started)
  rw [List.map_map] at hfst
  rw [engineOf, List.map_map, ← hfst]
  rfl

/-- **What a run makes of a unit up to a stage**: its turns so far lead from what it was to what it is then. -/
theorem leads_of_stages_eq (hs : s.Sound) (h : s.stages = ts ++ t :: rest) {u : UnitId} {x : Slot U}
    (hx : s.slot? u = some x) : ∃ y, t.engine.slot? u = some y ∧
      Leads x ((s.starts ++ ts.flatMap (·.turns s.config)).filter (·.before.id = u)) y := by
  refine stages_induction (motive := fun ts t => ∃ y, t.engine.slot? u = some y ∧
    Leads x ((s.starts ++ ts.flatMap (·.turns s.config)).filter (·.before.id = u)) y) (fun t ht => ?_)
    (fun ts t t' rest h hnext ih => ?_) h
  · obtain ⟨delta, started, _, hdelta, hmoves, _, hstart, _, rfl⟩ := firstStage?_eq_some.1 ht
    obtain ⟨_, hunits⟩ := hs.leads_starts hdelta hmoves hstart
    obtain ⟨y, hy, hleads⟩ := hunits u x hx
    have hc := hs.coherent_of_stages_eq (stages_eq_cons ht)
    have htable := hs.table_of_stages_eq (stages_eq_cons ht)
    refine ⟨y, ?_, by rw [List.flatMap_nil, List.append_nil]; exact hleads⟩
    rw [← hc.slotAt?_eq, htable, slots_engineOf]
    exact hy
  · obtain ⟨y, hy, hleads⟩ := ih
    obtain ⟨z, hz, hleads'⟩ := Stage.leads_turns s.config (hs.coherent_of_stages_eq h) hy
    rw [(Stage.next?_eq_some_iff.1 hnext).2.2.2, List.flatMap_append, List.flatMap_singleton, ← List.append_assoc,
      List.filter_append]
    exact ⟨z, hz, hleads.append hleads'⟩

/-- **What a run makes of a unit**: its turns lead from what it was to what it is after the last round. -/
theorem leads_after (hs : s.Sound) (h : s.stages = ts ++ [t]) {u : UnitId} {x : Slot U}
    (hx : s.slot? u = some x) : ∃ y, (t.after s.config).slot? u = some y ∧ Leads x (s.turnsOf u) y := by
  obtain ⟨y, hy, hleads⟩ := hs.leads_of_stages_eq h hx
  obtain ⟨z, hz, hleads'⟩ := Stage.leads_turns s.config (hs.coherent_of_stages_eq h) hy
  refine ⟨z, hz, ?_⟩
  rw [turnsOf, turns, h, List.flatMap_append, List.flatMap_singleton, ← List.append_assoc, List.filter_append]
  exact hleads.append hleads'

/-- **The turns of a run are its calls**, if it comes to a first round. -/
theorem map_turns (hs : s.Sound) (ht : s.firstStage? = some t) :
    s.turns.map (fun c => (c.before.id, c.transcript)) = s.calls := by
  obtain ⟨delta, hdelta, hmoves, hstarts, _⟩ := hs.firstStage?_eq_some_iff.1 ht
  have hplaced : s.starts = s.placed.map (.start · s.table s.config.startTime) := by
    rw [starts, if_pos ⟨hs.state_eq, by simpa [hdelta] using hmoves⟩, placed, List.map_flatMap]
    refine List.flatMap_congr fun xs hxs => ?_
    rw [StartUp.starters_eq_self fun x hx => ?_]
    exact hstarts x.id x (hs.mem_placed.1 (List.mem_flatMap.2 ⟨xs, hxs, hx⟩))
  rw [turns, hplaced, calls, List.map_append, List.map_map, List.map_flatMap]
  simp only [Stage.turns, List.map_map]
  rfl

/-- The messages that a unit has had accepted in its turns are those of its calls. -/
lemma handles_turnsOf (hs : s.Sound) (ht : s.firstStage? = some t) (u : UnitId) :
    (s.turnsOf u).flatMap (·.handles) = s.acceptedFrom u := by
  rw [acceptedFrom, ← hs.map_turns ht, List.filter_map, List.flatMap_map]
  rfl

end Sound

end Scheduler

end Turns

end EventSim
