import EventSim.Proofs.Barriers
import EventSim.Proofs.SetupLog
import Mathlib.Data.Set.Function

set_option autoImplicit false

/-!
# Routing

The routing table of a run leads from the units that are registered to the places of the workers, one place for
each unit. Every envelope is posted by the table, and a worker looks up by the same table what it hands over. So
whatever waits at a worker is for one of its own units, and is handed to just that unit.

## Main definitions

* `EventSim.Thread.Routed` — a worker in the course of a round that has only messages for its own units.
* `EventSim.Worker.Reaches` — a worker hands a message to the unit that it is for.
* `EventSim.Scheduler.Routes` — the routing of a setup and of the runs that follow it.

## Main results

* `EventSim.Placement.size_slots_ofUnits` — how many places a worker has.
* `EventSim.Scheduler.Sound.bijOn_route?` — routes are one to one.
* `EventSim.Thread.Routed.step`, `EventSim.Scheduler.Barrier.routed` — what every step of every worker keeps.
* `EventSim.Scheduler.SetUpBy.routes` — routing in every run.
-/

namespace EventSim

variable {U P : Type}

/-! ## The places of a worker -/

/-- A worker has as many places as units are pinned to it. -/
lemma Placement.size_slots_ofUnits {units : Array (Option (Registered U))} {workers w : Nat} (hw : w < workers)
    (hu : ∀ r, some r ∈ units.toList → r.worker.index < workers) :
    ((ofUnits units workers).slots[w]?.map (·.size)) =
      some (units.toList.countP fun o => o.any (·.worker.index = w)) := by
  have hsize : ∀ us : List (Option (Registered U)),
      (us.foldl add ⟨#[], Array.replicate workers #[]⟩).slots.size = workers := by
    intro us
    induction us using List.reverseRecOn with
    | nil => simp
    | append_singleton us u ih =>
      rw [List.foldl_append, List.foldl_cons, List.foldl_nil]
      cases u with
      | none => exact ih
      | some r => simpa [add] using ih
  rw [ofUnits, ← Array.foldl_toList]
  generalize units.toList = us at hu
  induction us using List.reverseRecOn with
  | nil => simp [hw]
  | append_singleton us u ih =>
    have ih := ih fun r hr => hu r (List.mem_append_left _ hr)
    rw [List.foldl_append, List.foldl_cons, List.foldl_nil, List.countP_append]
    cases u with
    | none => simpa [add] using ih
    | some r =>
      obtain ⟨xs, hxs, hcount⟩ := Option.map_eq_some_iff.1 ih
      simp only [add, Array.getElem?_modify, hxs]
      by_cases hr : r.worker.index = w
      · simp [hr, hcount]
      · simp [hr, hcount]

namespace Scheduler

variable {s : Scheduler U P}

/-- As many units are listed for a worker as are pinned to it. -/
lemma Sound.countP_residents (hs : s.Sound) (w : WorkerId) :
    s.residents.countP (·.2 = w) = s.units.toList.countP fun o => o.any (·.worker.index = w.index) := by
  have hunits : s.units.toList = s.numbers.map s.registered? := by
    have hcount : s.units.size = s.unitCount := rfl
    apply List.ext_getElem?
    intro i
    rw [numbers, List.map_map, List.getElem?_map, Array.getElem?_toList]
    by_cases hi : i < s.unitCount
    · rw [List.getElem?_range hi, Option.map_some, Function.comp_apply, registered?_eq, hs.index_ofNat hi,
        Array.getElem?_eq_getElem hi]
      rfl
    · rw [Array.getElem?_eq_none (by omega), List.getElem?_eq_none (by rw [List.length_range]; omega)]
      rfl
  have hworker : ∀ r : Registered U, decide (r.worker = w) = decide (r.worker.index = w.index) := fun r =>
    decide_eq_decide.2 ⟨congrArg Id.index, Id.ext_index⟩
  rw [hunits, residents, List.countP_filterMap, List.countP_map]
  apply List.countP_congr
  intro u _
  rw [Function.comp_apply]
  cases s.registered? u with
  | none => simp
  | some r => simp [hworker]

namespace Sound

variable {u : UnitId} {r : Route}

/-- The places of a worker are numbered through, one for each of its units. -/
lemma isSome_slot?_iff (hs : s.Sound) : (s.placement.slot? r.worker.index r.slot).isSome ↔
    r.slot < s.residents.countP (·.2 = r.worker) := by
  by_cases hw : r.worker.index < s.config.workers
  · have hsize := Placement.size_slots_ofUnits hw fun _ => hs.worker_lt_of_mem
    obtain ⟨xs, hxs, hcount⟩ := Option.map_eq_some_iff.1 hsize
    rw [hs.countP_residents, ← hcount, Placement.slot?, placement, hxs, Option.bind_some]
    simp
  · apply iff_of_false
    · rw [Placement.slot?, Array.getElem?_eq_none (by rw [hs.describes.size_slots]; omega)]
      simp
    · -- no unit is pinned to a worker that is not there
      have hzero : s.residents.countP (·.2 = r.worker) = 0 := by
        apply List.countP_eq_zero.2
        rintro ⟨u, w⟩ hu hw'
        obtain ⟨x, hx, rfl⟩ := Option.map_eq_some_iff.1 (hs.mem_residents.1 hu)
        rw [← of_decide_eq_true hw'] at hw
        exact hw (hs.worker_lt u x hx)
      rw [hzero]
      exact Nat.not_lt_zero _

/-- A route leads from a unit to its worker, and to the place where the unit is. -/
lemma of_route? (hs : s.Sound) (hr : s.table.route? u = some r) : (u, r.worker) ∈ s.residents ∧
    ∃ unit, s.unit? u = some unit ∧ s.placement.slot? r.worker.index r.slot = some ⟨u, unit, 0⟩ := by
  obtain ⟨x, hx, hworker, hslot⟩ := hs.exists_of_route? hr
  refine ⟨hs.mem_residents.2 (by rw [workerOf?, hx, ← hworker]; rfl), x.unit, by rw [unit?, hx]; rfl, ?_⟩
  rw [hslot, hs.nextSeq_eq u x hx]

/-- **Routes are one to one**: they lead from the registered units to all places of all workers. -/
theorem bijOn_route? (hs : s.Sound) : Set.BijOn s.table.route? {u | ∃ w, (u, w) ∈ s.residents}
    (some '' {r : Route | r.slot < s.residents.countP (·.2 = r.worker)}) := by
  refine ⟨?_, ?_, ?_⟩
  · rintro u ⟨w, hu⟩
    obtain ⟨x, hx, rfl⟩ := Option.map_eq_some_iff.1 (hs.mem_residents.1 hu)
    obtain ⟨k, hk, hslot⟩ := hs.exists_route hx
    refine ⟨⟨x.worker, k⟩, hs.isSome_slot?_iff.1 ?_, hk.symm⟩
    rw [hslot]
    rfl
  · rintro u ⟨w, hu⟩ v _ huv
    obtain ⟨x, hx, rfl⟩ := Option.map_eq_some_iff.1 (hs.mem_residents.1 hu)
    obtain ⟨k, hk, _⟩ := hs.exists_route hx
    -- both units are in the same place
    obtain ⟨_, _, _, hslot⟩ := hs.of_route? hk
    obtain ⟨_, _, _, hslot'⟩ := hs.of_route? (huv.symm.trans hk)
    exact congrArg Slot.id (Option.some.inj (hslot.symm.trans hslot'))
  · rintro _ ⟨r, hr, rfl⟩
    obtain ⟨x, hx⟩ := Option.isSome_iff_exists.1 (hs.isSome_slot?_iff.2 hr)
    obtain ⟨y, hy, hworker, _, hroute⟩ := hs.of_slot hx
    have hworker : y.worker = r.worker := Id.ext_index hworker
    refine ⟨x.id, ⟨y.worker, hs.mem_residents.2 (by rw [workerOf?, hy]; rfl)⟩, ?_⟩
    rw [hroute, hworker]

end Sound

end Scheduler

/-! ## Workers at work -/

section Workers

variable [Payload P] [SimUnit U P] {table : RoutingTable} {round past k : Nat} {horizon : SimTime}
  {config : RunConfig}

/-- The worker looks up the target of the message at one of its own places, finds the target there, and lets
it handle the message. -/
structure Worker.Reaches (table : RoutingTable) (round : Nat) (horizon : SimTime) (w : Worker U P)
    (m : Message P) : Prop where
  /-- The target has its place at the worker, and handles the message. -/
  handle : ∃ place x, table.route? m.target = some ⟨w.id, place⟩ ∧ w.slots[place]? = some x ∧
    x.id = m.target ∧ (w.deliver table round horizon m).2 = (x.handle (w.setting table round horizon) m).2
  /-- The target is not said to be missing. -/
  known : ∀ u, (w.deliver table round horizon m).2.failure ≠ some (.reported (.unknownUnit u))

/-- A worker reaches the units that it owns. -/
lemma Worker.Placed.reaches {w : Worker U P} {m : Message P} (hp : w.Placed table)
    (ho : w.Owns table m.target) : w.Reaches table round horizon m := by
  obtain ⟨r, x, hr, hw, hx, hid, _⟩ := hp.exists_slot ho
  have hdeliver : (w.deliver table round horizon m).2 = (x.handle (w.setting table round horizon) m).2 :=
    congrArg Prod.snd (deliver_of_slot hr hx)
  refine ⟨⟨r.slot, x, by rw [hr, ← hw], hx, hid, hdeliver⟩, fun u => ?_⟩
  rw [hdeliver]
  exact Worker.failure_ne_unknownUnit

omit [Payload P] [SimUnit U P] in
/-- A report leaves units and queue as they are. -/
lemma Worker.conclude_eq (w : Worker U P) (removed : Nat) (handled : List (Handled P)) :
    ∃ stats, (w.conclude removed handled).1 = { w with stats } := by
  unfold Worker.conclude
  dsimp only
  split
  · exact ⟨w.stats, rfl⟩
  · exact ⟨_, rfl⟩

namespace Thread

omit [Payload P] [SimUnit U P] in
/-- The messages that the worker is still to hand over. -/
def inHand (x : Thread U P) : List (Message P) :=
  match x.activity with
  | .draining batch => batch
  | .calling _ batch => batch
  | _ => []

/-- The call is the one for its message, carried out so far, and the unit is the target. -/
structure Serves (table : RoutingTable) (round : Nat) (horizon : SimTime) (w : Worker U P)
    (call : OpenCall U P) : Prop where
  /-- The route of the target leads to the place of the unit. -/
  route : table.route? call.message.target = some ⟨w.id, call.place⟩
  /-- The unit is there. -/
  slot : w.slots[call.place]? = some call.slot
  /-- The unit is the target. -/
  target : call.slot.id = call.message.target
  /-- It handles the message. -/
  run : call.script.run call.context = call.slot.call (w.setting table round horizon) call.message

/-- All messages that the worker has are for its own units, and it has handed each one to the unit that it is
for. -/
structure Routed (table : RoutingTable) (round : Nat) (horizon : SimTime) (x : Thread U P) : Prop where
  /-- The units are in their places. -/
  placed : x.worker.Placed table
  /-- What waits in the queue is for the units of the worker. -/
  waiting : ∀ m ∈ x.worker.queue.entries, x.worker.Owns table m.target
  /-- So is what is to be handed over. -/
  inHand : ∀ m ∈ x.inHand, x.worker.Owns table m.target
  /-- A call that is under way is made by the target of its message. -/
  calling : ∀ {call batch}, x.activity = .calling call batch → Serves table round horizon x.worker call
  /-- What has been handed over, its target has handled. -/
  handled : ∀ h ∈ x.handled, ∃ y : Slot U, y.id = h.message.target ∧
    h = (y.handle (x.worker.setting table round horizon) h.message).2

variable {x : Thread U P} {b : Postbox P}

/-- Nothing that has been handed over is said to have a missing target. -/
lemma Routed.failure_ne_unknownUnit (hx : x.Routed table round horizon) {h : Handled P} (hh : h ∈ x.handled)
    (u : UnitId) : h.failure ≠ some (.reported (.unknownUnit u)) := by
  obtain ⟨y, _, hy⟩ := hx.handled h hh
  rw [hy]
  exact Worker.failure_ne_unknownUnit

/-- A worker begins with a batch for its own units, if what was staged for it is for these. -/
lemma Routed.step_idle (hx : x.Routed table (past + 1) horizon) (hidle : x.activity = .idle)
    (hstaged : ∀ z ∈ b.staged x.worker.id.index past, table.owner? z.target = some x.worker.id.index) :
    (x.step config (past + 1) horizon b).1.Routed table (past + 1) horizon := by
  have howned : ∀ m ∈ (x.worker.queue.merge (b.staged x.worker.id.index past)).2.entries,
      x.worker.Owns table m.target := by
    intro m hm
    rcases MessageQueue.mem_of_mem_merge hm with hm | hm
    · exact hx.waiting m hm
    · exact Engine.owns_iff.2 (hstaged _ hm)
  rw [step, hidle]
  refine ⟨⟨hx.placed.route_of_slot, hx.placed.slot_of_route⟩, fun m hm => ?_, fun m hm => ?_,
    (fun h => by cases h), List.forall_mem_nil _⟩
  · exact howned m (MessageQueue.mem_popUpTo.2.1 hm).1
  · exact howned m (MessageQueue.mem_popUpTo.1.1 hm).1

/-- A worker that hands over a batch finds the target of the next message, and reports in the end. -/
lemma Routed.step_draining (hx : x.Routed table round horizon) {batch : List (Message P)}
    (hbatch : x.activity = .draining batch) (htable : b.table = table) :
    (x.step config round horizon b).1.Routed table round horizon := by
  have howned := hx.inHand
  rw [Thread.inHand, hbatch] at howned
  cases batch with
  | nil =>
    obtain ⟨stats, hconclude⟩ := x.worker.conclude_eq x.removed x.handled
    simp only [step, hbatch, hconclude]
    exact ⟨⟨hx.placed.route_of_slot, hx.placed.slot_of_route⟩, hx.waiting, List.forall_mem_nil _,
      (fun h => by cases h), hx.handled⟩
  | cons m batch =>
    obtain ⟨r, y, hr, hw, hy, hid, _⟩ := hx.placed.exists_slot (howned m List.mem_cons_self)
    have hcall : x.worker.openCall? b.table round horizon m = some ⟨r.slot, y, m,
        SimUnit.process y.unit m ⟨y.id, m.time, horizon, round⟩,
        { view := ⟨y.id, m.time, horizon, round⟩, table, nextSeq := y.nextSeq }⟩ := by
      simp only [Worker.openCall?, htable, hr, Option.bind_some, hy, Option.map_some]
    simp only [step, hbatch, hcall]
    refine ⟨hx.placed, hx.waiting, fun n hn => howned n (List.mem_cons_of_mem _ hn), ?_, hx.handled⟩
    rintro call batch' heq
    cases heq
    exact ⟨by rw [hr, ← hw], hy, hid, rfl⟩

/-- A call that goes on stays the one for its message, and when it is over its unit has handled the message. -/
lemma Routed.step_calling (hx : x.Routed table round horizon) {call : OpenCall U P} {batch : List (Message P)}
    (hcalling : x.activity = .calling call batch) :
    (x.step config round horizon b).1.Routed table round horizon := by
  have howned := hx.inHand
  rw [Thread.inHand, hcalling] at howned
  have hserves := hx.calling hcalling
  rw [step, hcalling]
  dsimp only
  split
  · rename_i script context hadvance
    refine ⟨hx.placed, hx.waiting, howned, ?_, hx.handled⟩
    rintro call' batch' heq
    cases heq
    exact ⟨hserves.route, hserves.slot, hserves.target,
      (Script.run_of_advance hadvance).symm.trans hserves.run⟩
  · rename_i result hadvance
    have hresult := (Script.run_of_advance_eq_inr hadvance).1.symm.trans hserves.run
    refine ⟨?_, hx.waiting, fun m hm => ?_, (fun h => by cases h), fun h hh => ?_⟩
    · exact hx.placed.replace (n := result.context.produced) hserves.slot rfl
    · rw [Thread.inHand] at hm
      dsimp only at hm
      split at hm
      · cases hm
      · exact howned m hm
    · rcases List.mem_append.1 hh with hh | hh
      · exact hx.handled h hh
      · refine ⟨call.slot, ?_, ?_⟩
        · rw [List.mem_singleton.1 hh]
          exact hserves.target
        · rw [List.mem_singleton.1 hh, Worker.closeCall, hresult]
          rfl

/-- **Every step of a worker** keeps its messages with its own units. -/
theorem Routed.step (hx : x.Routed table (past + 1) horizon) (htable : b.table = table)
    (hstaged : x.isIdle = true → ∀ z ∈ b.staged x.worker.id.index past,
      table.owner? z.target = some x.worker.id.index) :
    (x.step config (past + 1) horizon b).1.Routed table (past + 1) horizon := by
  cases hactivity : x.activity with
  | idle => exact hx.step_idle hactivity (hstaged (by rw [isIdle, hactivity]))
  | draining batch => exact hx.step_draining hactivity htable
  | calling call batch => exact hx.step_calling hactivity
  | arrived report =>
    rw [Thread.step, hactivity]
    exact hx

end Thread

namespace Session

variable {e : Engine U P} {x : Session U P}

/-- When a round begins all workers have messages for their own units only. -/
lemma routed_ofEngine (hc : e.Coherent past) : ∀ y ∈ (ofEngine e).threads.toList,
    y.Routed e.postbox.table (past + 1) horizon := by
  intro y hy
  rw [ofEngine, Array.toList_map] at hy
  obtain ⟨w, hw, rfl⟩ := List.mem_map.1 hy
  obtain ⟨i, hi⟩ := List.getElem?_of_mem hw
  rw [Array.getElem?_toList] at hi
  refine ⟨hc.placed hi, fun m hm => ?_, List.forall_mem_nil _, (fun h => by cases h), List.forall_mem_nil _⟩
  rw [Engine.owns_iff, hc.index_eq hi]
  exact hc.waiting_owned hi m hm

/-- Every step of every worker keeps all messages at the right workers. -/
lemma During.routed_step (hc : e.Coherent past) (hx : During config past horizon e x)
    (hall : ∀ y ∈ x.threads.toList, y.Routed e.postbox.table (past + 1) horizon) (k : Nat) :
    ∀ y ∈ (x.step config (past + 1) horizon k).threads.toList,
      y.Routed e.postbox.table (past + 1) horizon := by
  cases hy : x.threads[k]? with
  | none =>
    rw [Session.step, hy]
    exact hall
  | some y =>
    have hmem : y ∈ x.threads.toList := List.mem_of_getElem? (by rw [Array.getElem?_toList, hy])
    rw [step_of_some hy, Array.toList_setIfInBounds]
    intro z hz
    rcases List.mem_or_eq_of_mem_set hz with hz | rfl
    · exact hall z hz
    · -- what was staged for the worker is there until it begins
      refine (hall y hmem).step hx.table_eq fun hidle m hm => ?_
      rw [hx.index_eq hy, hx.staged_past hy, if_pos hidle] at hm
      rw [hx.index_eq hy]
      exact hc.staged_owned hm

/-- Every schedule keeps all messages at the right workers. -/
lemma During.routed_run (hc : e.Coherent past) (hx : During config past horizon e x)
    (hall : ∀ y ∈ x.threads.toList, y.Routed e.postbox.table (past + 1) horizon) (schedule : List Nat) :
    ∀ y ∈ (x.run config (past + 1) horizon schedule).threads.toList,
      y.Routed e.postbox.table (past + 1) horizon := by
  induction schedule generalizing x with
  | nil => exact hall
  | cons k schedule ih => exact ih (hx.step k) (hx.routed_step hc hall k)

end Session

/-! ## Routing in every run -/

namespace Scheduler

variable {s : Scheduler U P} {b : Stage U P} {log : List (SetupStep U P)}

/-- **In every round that a run can reach**, whatever the schedules, all messages are at the right workers. -/
theorem Barrier.routed (hs : s.Sound) (hb : s.Barrier b) (schedule : List Nat) :
    (b.session s.config schedule).postbox.table = s.table ∧
      ∀ y ∈ (b.session s.config schedule).threads.toList, y.Routed s.table (b.past + 1) b.horizon.current := by
  obtain ⟨ts, t, rest, h, hbt⟩ := hb.exists_stage hs
  have hc : b.engine.Coherent b.past := hbt.engine.coherent (hbt.past ▸ hs.coherent_of_stages_eq h)
  have htable : b.engine.postbox.table = s.table := hbt.engine.table.trans (hs.table_of_stages_eq h)
  rw [← htable]
  exact ⟨(Stage.during_session hc s.config schedule).table_eq,
    (Session.During.start hc s.config b.horizon.current).routed_run hc (Session.routed_ofEngine hc) schedule⟩

/-- The routing of a setup with the given log, and of the runs that follow it. -/
structure Routes (s : Scheduler U P) (log : List (SetupStep U P)) : Prop where
  /-- The routing table leads one to one from the units that were registered and not taken away to the places of
  the workers. Each worker has as many places as such units were registered for it. -/
  bijective : Set.BijOn s.table.route? {u | ∃ w, (u, w) ∈ SetupStep.residents log}
    (some '' {r : Route | r.slot < (SetupStep.residents log).countP (·.2 = r.worker)})
  /-- No other number has a route. -/
  vacant : ∀ u, (∀ w, (u, w) ∉ SetupStep.residents log) → s.table.route? u = none
  /-- A route leads to the worker that the unit was registered for, and to a place with just that unit. -/
  place : ∀ u r, s.table.route? u = some r → (u, r.worker) ∈ SetupStep.residents log ∧
    ∃ unit, s.unit? u = some unit ∧ s.placement.slot? r.worker.index r.slot = some ⟨u, unit, 0⟩
  /-- The table is the same throughout the run. In the course of every round, whatever the schedules, everything
  that waits at a worker or that it is to hand over is for one of its units, and it would reach that unit. What
  the worker has handed over, has reached the unit that it is for. -/
  rounds : ∀ b, s.Barrier b → ∀ schedule, (b.session s.config schedule).postbox.table = s.table ∧
    ∀ y ∈ (b.session s.config schedule).threads.toList,
      y.Routed s.table (b.past + 1) b.horizon.current ∧
        (∀ m ∈ y.worker.queue.entries ++ y.inHand,
          y.worker.Reaches s.table (b.past + 1) b.horizon.current m) ∧
        ∀ h ∈ y.handled, ∀ u, h.failure ≠ some (.reported (.unknownUnit u))
  /-- No run fails because a unit is not there. -/
  known : ∀ u, s.outcome ≠ .failed (.unknownUnit u)

/-- **Routing is exact.** Whatever is registered and taken away before a run, the routing table is one to one
between the registered units and the places of the workers; and in all rounds of the run, however the workers go
on, no worker ever misses a target or hands a message to another unit than its target.

**Proof sketch.** When a unit is placed, its route is the end of the list of its worker, where the unit is put
(`Placement.describes_ofUnits`). Messages are posted to the owners of their targets, so at each barrier they are
staged and wait there (`Engine.Coherent`). Units keep their places when they handle messages, and so every step of
every worker finds the target (`Thread.Routed.step`). -/
theorem SetUpBy.routes (h : SetUpBy log s) : s.Routes log := by
  have hs := h.isSetUp.sound
  refine ⟨h.residents_eq ▸ hs.bijOn_route?, fun u hu => ?_, fun u r hr => h.residents_eq ▸ hs.of_route? hr,
    fun b hb schedule => ?_, hs.outcome_ne_unknownUnit⟩
  · by_contra hne
    obtain ⟨r, hr⟩ := Option.ne_none_iff_exists'.1 hne
    exact hu r.worker (h.residents_eq ▸ (hs.of_route? hr).1)
  · obtain ⟨htable, hall⟩ := hb.routed hs schedule
    refine ⟨htable, fun y hy => ⟨hall y hy, fun m hm => ?_, fun _ hh => (hall y hy).failure_ne_unknownUnit hh⟩⟩
    rcases List.mem_append.1 hm with hm | hm
    · exact (hall y hy).placed.reaches ((hall y hy).waiting m hm)
    · exact (hall y hy).placed.reaches ((hall y hy).inHand m hm)

end Scheduler

end Workers

namespace Scheduler

/-- The bureau before the first round. -/
def bureauAtStart : Stage RuleTable Mark := bureau.2.firstStage?.get (by decide +kernel)

lemma barrier_bureauAtStart : bureau.2.Barrier bureauAtStart := by
  have hstart : bureau.2.firstStage? = some bureauAtStart := (Option.some_get _).symm
  exact .first hstart (.refl _)

/-- Of three units the second has been taken away. The others have their places at two workers. In the first
round the second worker is in a call and the first has a message in hand. -/
theorem routes_bureau :
    SetUpBy bureau.1 bureau.2 ∧
      SetupStep.residents bureau.1 = [(Id.ofNat 0, Id.ofNat 0), (Id.ofNat 2, Id.ofNat 1)] ∧
      bureau.2.table.route? (Id.ofNat 1) = none ∧
      bureau.2.table.route? (Id.ofNat 2) = some ⟨Id.ofNat 1, 0⟩ ∧ bureau.2.Barrier bureauAtStart ∧
      ((bureauAtStart.session bureau.2.config [0, 1, 1]).threads.toList.map (·.inHand.length)) = [1, 0] ∧
      bureau.2.Routes bureau.1 :=
  ⟨setUpBy_bureau, by decide +kernel, by decide +kernel, by decide +kernel, barrier_bureauAtStart,
    by decide +kernel, setUpBy_bureau.routes⟩

end Scheduler

end EventSim
