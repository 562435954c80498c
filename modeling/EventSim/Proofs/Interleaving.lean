import EventSim.Proofs.SmallSteps
import Mathlib.Data.List.Perm.Basic
import Mathlib.Data.List.Sort

set_option autoImplicit false

/-!
# The workers of a round at the same time

In a session all workers do their part of one round at the same time. A schedule says which worker does the
next step. It is free to let any worker go on at any time, and so the workers post to the postbox that they
share in any order; only each worker does its own steps in order. The coordinator waits for one report of
each worker and puts the reports in order.

Whatever the schedule, a complete session ends as the round does in which one worker does its part after the
other, except that the envelopes in one slot of an inbox may be in another order.

## Main definitions

* `EventSim.Session`, `EventSim.Session.step`, `EventSim.Session.run` — workers at work, and schedules.
* `EventSim.Session.Complete`, `EventSim.Session.record` — the coordinator's view.
* `EventSim.Session.During` — what holds in the course of a round.
* `EventSim.Engine.Shuffle` — engines that differ in the order of staged envelopes only.

## Main results

* `EventSim.Session.During.step`, `EventSim.Session.During.run` — it is kept by every step of every worker.
* `EventSim.Session.During.shuffle_runRound`, `EventSim.Session.During.record_eq` — how a session ends.
* `EventSim.Session.exists_complete` — no session gets stuck.
-/

namespace EventSim

/-! ### Internal helpers: replacing an element -/

/-- If one element is replaced by one that contributes more, the sum grows by that. -/
lemma perm_flatMap_set {α β : Type} {xs : List α} {f : α → List β} {k : Nat} {x x' : α} {new : List β}
    (hx : xs[k]? = some x) (hx' : f x' = f x ++ new) :
    ((xs.set k x').flatMap f).Perm (xs.flatMap f ++ new) := by
  induction xs generalizing k with
  | nil => cases hx
  | cons y xs ih =>
    cases k with
    | zero =>
      cases hx
      rw [List.set_cons_zero, List.flatMap_cons, List.flatMap_cons, hx', List.append_assoc, List.append_assoc]
      exact List.perm_append_comm.append_left _
    | succ k =>
      rw [List.set_cons_succ, List.flatMap_cons, List.flatMap_cons, List.append_assoc]
      exact (ih hx).append_left _

/-- A place that is taken is given to another element. -/
lemma getElem?_setIfInBounds_of_some {α : Type} {xs : Array α} {k : Nat} {x : α} (hx : xs[k]? = some x)
    (x' : α) (j : Nat) : (xs.setIfInBounds k x')[j]? = if k = j then some x' else xs[j]? := by
  rw [Array.getElem?_setIfInBounds, if_pos (Array.getElem?_eq_some_iff.1 hx).1]

variable {U P : Type}

/-! ## The order of staged envelopes -/

/-- Two engines are the same up to the order of the envelopes in each slot of an inbox. -/
structure Engine.Shuffle (e e' : Engine U P) : Prop where
  /-- The workers are the same. -/
  workers : e.workers = e'.workers
  /-- The routing tables are the same. -/
  table : e.postbox.table = e'.postbox.table
  /-- There are as many inboxes. -/
  size : e.postbox.inboxes.size = e'.postbox.inboxes.size
  /-- The same envelopes are staged. -/
  staged : ∀ i round, (e.postbox.staged i round).Perm (e'.postbox.staged i round)

namespace Engine.Shuffle

variable {e e' : Engine U P}

lemma refl (e : Engine U P) : e.Shuffle e := ⟨rfl, rfl, rfl, fun _ _ => List.Perm.refl _⟩

/-- The same messages are staged. -/
lemma messages (h : e.Shuffle e') (round : Nat) :
    (e.postbox.messages round).Perm (e'.postbox.messages round) := by
  rw [Postbox.messages, Postbox.messages, h.size]
  exact List.Perm.flatMap_left _ fun i _ => (h.staged i round).filterMap _

/-- What the coordinator finds in the postbox is the same. -/
lemma figures (h : e.Shuffle e') (round : Nat) :
    e.postbox.pendingDeliveries round = e'.postbox.pendingDeliveries round ∧
      e.postbox.earliest round = e'.postbox.earliest round := by
  rw [e'.postbox.pendingDeliveries_eq, e'.postbox.earliest_eq]
  exact Postbox.figures_of_perm (h.messages round)

end Engine.Shuffle

/-! ## Sessions -/

/-- A round that the workers do at the same time. -/
structure Session (U P : Type) where
  /-- The workers, by worker number. -/
  threads : Array (Thread U P)
  /-- The postbox that they share. -/
  postbox : Postbox P
  /-- The reports, as they have been sent. -/
  reports : List (Report P)

namespace Session

/-- All workers have been released and none has begun. -/
def ofEngine (e : Engine U P) : Session U P := ⟨e.workers.map ({ worker := · }), e.postbox, []⟩

/-- As many reports have been sent as there are workers. -/
def Complete (x : Session U P) : Prop := x.reports.length = x.threads.size

instance (x : Session U P) : Decidable x.Complete := inferInstanceAs (Decidable (_ = _))

/-- The workers and the postbox as they are. -/
def engine (x : Session U P) : Engine U P := ⟨x.threads.map (·.worker), x.postbox⟩

/-- What the coordinator makes of the reports, which have come in in the given order. -/
def record (round : Nat) (horizon : SimTime) (arrivals : List (Report P)) (x : Session U P) :
    RoundRecord P :=
  ⟨round, horizon, arrivals.insertionSort fun r r' => r.worker.index ≤ r'.worker.index,
    x.postbox.pendingDeliveries round, x.postbox.earliest round⟩

variable [Payload P] [SimUnit U P]

/-- The worker with the given number does its next step. -/
def step (config : RunConfig) (round : Nat) (horizon : SimTime) (x : Session U P) (k : Nat) : Session U P :=
  match x.threads[k]? with
  | none => x
  | some y =>
    let (y', b, r) := y.step config round horizon x.postbox
    ⟨x.threads.setIfInBounds k y', b, x.reports ++ r.toList⟩

/-- The workers do steps in the order of the schedule, which names them by number. -/
def run (config : RunConfig) (round : Nat) (horizon : SimTime) (schedule : List Nat) (x : Session U P) :
    Session U P := schedule.foldl (step config round horizon) x

variable {config : RunConfig} {past k : Nat} {horizon : SimTime} {e : Engine U P} {x : Session U P}
  {y : Thread U P}

/-! ## In the course of a round -/

/-- In the course of the round after the given one, which has begun with the given engine. -/
structure During (config : RunConfig) (past : Nat) (horizon : SimTime) (e : Engine U P) (x : Session U P) :
    Prop where
  /-- The routing table stays what it was. -/
  table_eq : x.postbox.table = e.postbox.table
  /-- So does the number of inboxes. -/
  size_eq : x.postbox.inboxes.size = e.postbox.inboxes.size
  /-- The workers stand in the order of their numbers. -/
  index_eq : ∀ {k : Nat} {y : Thread U P}, x.threads[k]? = some y → y.worker.id.index = k
  /-- Every worker is on its way to where it gets alone. -/
  finish_eq : ∀ k : Nat, (x.threads[k]?.map fun y =>
      y.finish config e.postbox.table (past + 1) horizon (e.postbox.staged k past)) =
    e.workers[k]?.map (e.part config past horizon)
  /-- What was staged for a worker is there until it begins. -/
  staged_past : ∀ {k : Nat} {y : Thread U P}, x.threads[k]? = some y →
    x.postbox.staged k past = if y.isIdle then e.postbox.staged k past else []
  /-- What is staged is what the workers have posted. -/
  staged_next : ∀ i < e.postbox.inboxes.size, (x.postbox.staged i (past + 1)).Perm
    ((x.threads.toList.flatMap (·.posted)).filter fun z => e.postbox.table.owner? z.target = some i)
  /-- The workers have sent their reports. -/
  reports_perm : x.reports.Perm (x.threads.toList.flatMap (·.report?.toList))

/-- A round begins. -/
lemma During.start (hc : e.Coherent past) (config : RunConfig) (horizon : SimTime) :
    During config past horizon e (ofEngine e) where
  table_eq := rfl
  size_eq := rfl
  index_eq {k y} hy := by
    rw [Session.ofEngine, Array.getElem?_map] at hy
    obtain ⟨w, hw, rfl⟩ := Option.map_eq_some_iff.1 hy
    exact hc.index_eq hw
  finish_eq k := by
    rw [Session.ofEngine, Array.getElem?_map, Option.map_map]
    refine Option.map_congr fun w hw => ?_
    rw [Engine.part, Engine.stagedFor_eq, hc.index_eq hw]
    rfl
  staged_past {k y} hy := by
    rw [Session.ofEngine, Array.getElem?_map] at hy
    obtain ⟨w, _, rfl⟩ := Option.map_eq_some_iff.1 hy
    rfl
  staged_next i _ := by
    have hnil : (Session.ofEngine e).threads.toList.flatMap (·.posted) = [] := by
      rw [Session.ofEngine, Array.toList_map, List.flatMap_map]
      exact List.flatMap_eq_nil_iff.2 fun _ _ => rfl
    rw [hnil]
    exact List.Perm.of_eq (hc.idle i)
  reports_perm := by
    rw [Session.ofEngine, Array.toList_map, List.flatMap_map]
    exact List.Perm.of_eq (List.flatMap_eq_nil_iff.2 fun _ _ => rfl).symm

end Session

namespace Thread

/-- What a step of a worker does to the slots of the inboxes: the worker empties its own slot of the round
before when it begins, and posts to the slots of the round. -/
lemma Steps.staged {config : RunConfig} {past : Nat} {horizon : SimTime} {b b' : Postbox P} {y y' : Thread U P}
    {r : Option (Report P)} [Payload P] [SimUnit U P] (h : Steps config (past + 1) horizon b y y' b' r) :
    b'.table = b.table ∧ b'.inboxes.size = b.inboxes.size ∧
      (∀ i, b'.staged i past = if i = y.worker.id.index ∧ y.isIdle then [] else b.staged i past) ∧
      ∃ new, y'.posted = y.posted ++ new ∧ ∀ i < b.inboxes.size, b'.staged i (past + 1) =
        b.staged i (past + 1) ++ new.filter fun z => b.table.owner? z.target = some i := by
  obtain ⟨new, hposted, rfl⟩ := h.effect
  have hparity : past % 2 ≠ (past + 1) % 2 := by omega
  rw [Nat.add_sub_cancel]
  cases y.isIdle with
  | false =>
    rw [if_neg Bool.false_ne_true]
    refine ⟨Postbox.table_postAll _, Postbox.size_postAll _, fun i => ?_, new, hposted, fun i hi => ?_⟩
    · simpa using Postbox.staged_postAll_of_ne hparity new
    · exact Postbox.staged_postAll hi rfl new
  | true =>
    have hsize : (b.takeOut y.worker.id past).2.inboxes.size = b.inboxes.size := Array.size_modify
    rw [if_pos rfl]
    refine ⟨Postbox.table_postAll _, (Postbox.size_postAll _).trans hsize, fun i => ?_, new, hposted,
      fun i hi => ?_⟩
    · refine (Postbox.staged_postAll_of_ne hparity new).trans ?_
      simp [Postbox.staged_takeOut]
    · refine (Postbox.staged_postAll (hsize.symm ▸ hi) rfl new).trans ?_
      rw [Postbox.staged_takeOut, if_neg fun h => hparity h.2.symm]
      rfl

end Thread

namespace Session

variable [Payload P] [SimUnit U P] {config : RunConfig} {past k : Nat} {horizon : SimTime} {e : Engine U P}
  {x : Session U P} {y : Thread U P}

/-- A step of a worker that is there. -/
lemma step_of_some (hy : x.threads[k]? = some y) : x.step config (past + 1) horizon k =
    ⟨x.threads.setIfInBounds k (y.step config (past + 1) horizon x.postbox).1,
      (y.step config (past + 1) horizon x.postbox).2.1,
      x.reports ++ (y.step config (past + 1) horizon x.postbox).2.2.toList⟩ := by
  rw [step, hy]

/-- Whatever is like a step of a worker keeps what holds in the course of a round. -/
lemma During.of_steps (hx : During config past horizon e x) (hy : x.threads[k]? = some y) {y' : Thread U P}
    {b : Postbox P} {r : Option (Report P)}
    (hsteps : Thread.Steps config (past + 1) horizon x.postbox y y' b r) :
    During config past horizon e ⟨x.threads.setIfInBounds k y', b, x.reports ++ r.toList⟩ where
  table_eq := hsteps.staged.1.trans hx.table_eq
  size_eq := hsteps.staged.2.1.trans hx.size_eq
  index_eq {j z} hz := by
    rw [getElem?_setIfInBounds_of_some hy] at hz
    split at hz
    · rename_i hj
      cases hz
      rw [hsteps.id, hx.index_eq hy, hj]
    · exact hx.index_eq hz
  finish_eq j := by
    rw [← hx.finish_eq j, getElem?_setIfInBounds_of_some hy]
    split
    · rename_i hj
      subst hj
      rw [hy, Option.map_some, Option.map_some, ← hx.table_eq]
      refine congrArg some (hsteps.finish _ fun hidle => ?_)
      rw [Nat.add_sub_cancel, hx.index_eq hy, hx.staged_past hy, if_pos hidle]
    · rfl
  staged_past {j z} hz := by
    -- only the worker itself touches its slot of the round before
    have hpast := hsteps.staged.2.2.1 j
    rw [hx.index_eq hy] at hpast
    refine hpast.trans ?_
    rw [getElem?_setIfInBounds_of_some hy] at hz
    split at hz
    · rename_i hj
      subst hj
      cases hz
      rw [hsteps.begun, hx.staged_past hy]
      cases y.isIdle <;> simp
    · rename_i hj
      rw [if_neg fun h => hj h.1.symm]
      exact hx.staged_past hz
  staged_next i hi := by
    obtain ⟨new, hposted, hnext⟩ := hsteps.staged.2.2.2
    have hlist : x.threads.toList[k]? = some y := by rw [Array.getElem?_toList, hy]
    have hset := (perm_flatMap_set hlist hposted).filter
      fun z => decide (e.postbox.table.owner? z.target = some i)
    rw [List.filter_append] at hset
    rw [Array.toList_setIfInBounds]
    rw [hx.table_eq] at hnext
    refine List.Perm.trans (List.Perm.of_eq (hnext i (hx.size_eq.symm ▸ hi))) ?_
    exact ((hx.staged_next i hi).append_right _).trans hset.symm
  reports_perm := by
    have hlist : x.threads.toList[k]? = some y := by rw [Array.getElem?_toList, hy]
    have hset := perm_flatMap_set (f := fun z => z.report?.toList) hlist hsteps.report
    rw [Array.toList_setIfInBounds]
    exact (hx.reports_perm.append_right _).trans hset.symm

/-- **Every step of every worker** keeps what holds in the course of a round.

**Proof sketch.** The worker that does the step touches its own slot of the round before, which nobody else
reads, and appends to the slots of the round, which nobody reads before the round is over. -/
theorem During.step (hx : During config past horizon e x) (k : Nat) :
    During config past horizon e (x.step config (past + 1) horizon k) := by
  cases hy : x.threads[k]? with
  | none =>
    rw [Session.step, hy]
    exact hx
  | some y =>
    rw [step_of_some hy]
    exact hx.of_steps hy (y.steps_step config (past + 1) horizon x.postbox)

/-- **Every schedule** keeps what holds in the course of a round. -/
theorem During.run (hx : During config past horizon e x) (schedule : List Nat) :
    During config past horizon e (x.run config (past + 1) horizon schedule) := by
  induction schedule generalizing x with
  | nil => exact hx
  | cons k schedule ih => exact ih (hx.step k)

/-! ## The end of a round -/

/-- A session is complete just if every worker has reported. -/
lemma During.complete_iff (hx : During config past horizon e x) :
    x.Complete ↔ ∀ y ∈ x.threads.toList, y.report?.isSome := by
  rw [Complete, hx.reports_perm.length_eq, ← List.filterMap_eq_flatMap_toList, ← Array.length_toList]
  exact List.filterMap_length_eq_length

omit [Payload P] [SimUnit U P] in
/-- What a worker has posted when it has reported is in its report. -/
lemma posted_eq_of_report? {r : Report P} (hr : y.report? = some r) : y.posted = r.sent := by
  obtain ⟨_, _, _, activity⟩ := y
  cases activity <;> cases hr
  rfl

omit [Payload P] [SimUnit U P] in
/-- A worker that has reported has begun. -/
lemma isIdle_of_report? (hr : y.report?.isSome) : y.isIdle = false := by
  obtain ⟨_, _, _, activity⟩ := y
  cases activity <;> first | rfl | cases hr

/-- A worker that has reported gets no further. -/
lemma finish_eq_of_report? {r : Report P} (hr : y.report? = some r) (table : RoutingTable) (round : Nat)
    (staged : List (Envelope P)) : y.finish config table round horizon staged = (y.worker, r) := by
  obtain ⟨_, _, _, activity⟩ := y
  cases activity <;> cases hr
  rfl

/-- Every worker of a complete session has done its part of the round. -/
lemma During.map_eq (hx : During config past horizon e x) (hcomplete : x.Complete) :
    x.threads.toList.map (fun y => (y.worker, y.report?)) = e.workers.toList.map fun w =>
      ((e.part config past horizon w).1, some (e.part config past horizon w).2) := by
  apply List.ext_getElem?
  intro k
  have hfinish := hx.finish_eq k
  rw [List.getElem?_map, List.getElem?_map, Array.getElem?_toList, Array.getElem?_toList]
  cases hy : x.threads[k]? with
  | none =>
    rw [hy, Option.map_none, eq_comm, Option.map_eq_none_iff] at hfinish
    rw [hfinish]
    rfl
  | some y =>
    have hmem : y ∈ x.threads.toList := List.mem_of_getElem? (by rw [Array.getElem?_toList, hy])
    obtain ⟨r, hr⟩ := Option.isSome_iff_exists.1 (hx.complete_iff.1 hcomplete y hmem)
    rw [hy, Option.map_some, finish_eq_of_report? hr, eq_comm] at hfinish
    obtain ⟨w, hw, hpart⟩ := Option.map_eq_some_iff.1 hfinish
    rw [hw, Option.map_some, Option.map_some, hpart, hr]

/-- The reports of a complete session are those of the round. -/
lemma During.perm_reports (hx : During config past horizon e x) (hcomplete : x.Complete) :
    x.reports.Perm (e.runRound config (past + 1) horizon).2.reports := by
  have hmap := congrArg (List.flatMap fun p => p.2.toList) (hx.map_eq hcomplete)
  rw [List.flatMap_map, List.flatMap_map] at hmap
  refine hx.reports_perm.trans (List.Perm.of_eq (hmap.trans ?_))
  rw [(Engine.runRound_eq config past horizon e).2.1, List.map_eq_flatMap]
  rfl

/-- What has been posted in a complete session is what is sent in the round. -/
lemma During.flatMap_posted (hx : During config past horizon e x) (hcomplete : x.Complete) :
    x.threads.toList.flatMap (·.posted) = (e.runRound config (past + 1) horizon).2.sent := by
  have hmap := congrArg (List.flatMap fun p => (p.2.map (·.sent)).getD []) (hx.map_eq hcomplete)
  rw [List.flatMap_map, List.flatMap_map] at hmap
  rw [RoundRecord.sent, Engine.handled_runRound, List.flatMap_assoc]
  refine Eq.trans (List.flatMap_congr fun y hy => ?_) hmap
  obtain ⟨r, hr⟩ := Option.isSome_iff_exists.1 (hx.complete_iff.1 hcomplete y hy)
  rw [posted_eq_of_report? hr, hr]
  rfl

/-- **A complete session ends as the round does**, up to the order of staged envelopes. -/
theorem During.shuffle_runRound (hc : e.Coherent past) (hx : During config past horizon e x)
    (hcomplete : x.Complete) : x.engine.Shuffle (e.runRound config (past + 1) horizon).1 where
  workers := by
    have hmap := congrArg (List.map Prod.fst) (hx.map_eq hcomplete)
    rw [List.map_map, List.map_map] at hmap
    rw [(Engine.runRound_eq config past horizon e).1]
    apply Array.toList_inj.1
    rw [engine, Array.toList_map, Array.toList_map]
    exact hmap
  table := hx.table_eq.trans (Engine.table_runRound ..).symm
  size := by
    rw [(Engine.runRound_eq config past horizon e).2.2, Postbox.size_postAll, Postbox.size_clear]
    exact hx.size_eq
  staged i round := by
    have hidle := (hc.runRound config horizon).idle i
    change (x.postbox.staged i round).Perm _
    by_cases hi : i < e.workers.size
    · by_cases hround : round % 2 = (past + 1) % 2
      · rw [Postbox.staged_congr hround, Postbox.staged_congr hround, hc.staged_runRound hi,
          ← hx.flatMap_posted hcomplete]
        exact hx.staged_next i (hc.size_eq.symm ▸ hi)
      · obtain ⟨y, hy⟩ : ∃ y, x.threads[i]? = some y := by
          have hfinish := hx.finish_eq i
          rw [Array.getElem?_eq_getElem hi, Option.map_some] at hfinish
          obtain ⟨y, hy, _⟩ := Option.map_eq_some_iff.1 hfinish
          exact ⟨y, hy⟩
        have hmem : y ∈ x.threads.toList := List.mem_of_getElem? (by rw [Array.getElem?_toList, hy])
        have hpast := hx.staged_past hy
        rw [isIdle_of_report? (hx.complete_iff.1 hcomplete y hmem), if_neg Bool.false_ne_true] at hpast
        rw [Postbox.staged_congr (show round % 2 = past % 2 by omega), hpast,
          Postbox.staged_congr (show round % 2 = (past + 1 + 1) % 2 by omega), hidle]
    · have hsize := (hc.runRound config horizon).size_eq
      rw [(Engine.runRound_eq config past horizon e).1, Array.size_map] at hsize
      rw [Postbox.staged_eq_nil_of_size_le (by rw [hx.size_eq, hc.size_eq]; omega),
        Postbox.staged_eq_nil_of_size_le (by omega)]

/-- Reports of all workers are put in order in one way only. -/
lemma insertionSort_eq_of_perm (hc : e.Coherent past) {arrivals : List (Report P)}
    (h : arrivals.Perm (e.runRound config (past + 1) horizon).2.reports) :
    (arrivals.insertionSort fun r r' => r.worker.index ≤ r'.worker.index) =
      (e.runRound config (past + 1) horizon).2.reports := by
  have hindex : (e.runRound config (past + 1) horizon).2.reports.map (·.worker.index) =
      List.range e.workers.size := by
    rw [(Engine.runRound_eq config past horizon e).2.1, List.map_map, ← hc.map_index]
    refine List.map_congr_left fun w _ => ?_
    exact congrArg Id.index (Worker.runRound_frame config _ _ _ _ w).2.2.2.1
  have hlt : (e.runRound config (past + 1) horizon).2.reports.Pairwise
      (·.worker.index < ·.worker.index) := List.pairwise_map.1 (hindex ▸ List.pairwise_lt_range)
  have hnodup : ((e.runRound config (past + 1) horizon).2.reports.map (·.worker.index)).Nodup :=
    hindex ▸ List.nodup_range
  have : Std.Total fun r r' : Report P => r.worker.index ≤ r'.worker.index := ⟨fun _ _ => le_total _ _⟩
  have : IsTrans (Report P) fun r r' => r.worker.index ≤ r'.worker.index := ⟨fun _ _ _ => le_trans⟩
  have hsorted := List.pairwise_insertionSort (fun r r' : Report P => r.worker.index ≤ r'.worker.index)
    arrivals
  have hperm := (List.perm_insertionSort (fun r r' => r.worker.index ≤ r'.worker.index) arrivals).trans h
  refine List.Perm.eq_of_pairwise (fun a b ha hb hab hba => ?_) hsorted (hlt.imp le_of_lt) hperm
  exact List.inj_on_of_nodup_map hnodup (hperm.mem_iff.1 ha) hb (le_antisymm hab hba)

/-- **The coordinator's view of a complete session** is that of the round, in whatever order the reports come
in. -/
theorem During.record_eq (hc : e.Coherent past) (hx : During config past horizon e x)
    (hcomplete : x.Complete) {arrivals : List (Report P)} (h : arrivals.Perm x.reports) :
    x.record (past + 1) horizon arrivals = (e.runRound config (past + 1) horizon).2 := by
  have hreports := insertionSort_eq_of_perm hc (h.trans (hx.perm_reports hcomplete))
  obtain ⟨hstaged, hearliest⟩ := (hx.shuffle_runRound hc hcomplete).figures (past + 1)
  rw [record, hreports]
  change (⟨_, _, _, x.engine.postbox.pendingDeliveries (past + 1), x.engine.postbox.earliest (past + 1)⟩ :
    RoundRecord P) = _
  rw [hstaged, hearliest]
  rfl

/-! ## No session gets stuck -/

/-- A worker reports in the end if it goes on, and the others stay where they are. -/
lemma exists_run_arrived (config : RunConfig) (past : Nat) (horizon : SimTime) (x : Session U P) (k : Nat) :
    ∃ schedule, (∀ y ∈ (x.run config (past + 1) horizon schedule).threads[k]?, y.report?.isSome) ∧
      ∀ j ≠ k, (x.run config (past + 1) horizon schedule).threads[j]? = x.threads[j]? := by
  cases hy : x.threads[k]? with
  | none => exact ⟨[], fun y h => (by cases hy.symm.trans h), fun _ _ => rfl⟩
  | some y =>
    have hacc := y.acc_follows config (past + 1) horizon
    induction hacc generalizing x with
    | intro y _ ih =>
      cases hr : y.report? with
      | some r =>
        refine ⟨[], fun y' h => ?_, fun _ _ => rfl⟩
        cases hy.symm.trans h
        rw [hr]
        rfl
      | none =>
        have hstep : x.step config (past + 1) horizon k = _ := step_of_some hy
        have hget := getElem?_setIfInBounds_of_some hy (y.step config (past + 1) horizon x.postbox).1
        obtain ⟨schedule, harrived, hother⟩ := ih _ ⟨hr, x.postbox, rfl⟩
          (x.step config (past + 1) horizon k) (by rw [hstep, hget, if_pos rfl])
        refine ⟨k :: schedule, harrived, fun j hj => (hother j hj).trans ?_⟩
        rw [hstep, hget, if_neg hj.symm]

/-- Any number of workers report in the end if they go on. -/
lemma exists_run_forall_arrived (config : RunConfig) (past : Nat) (horizon : SimTime) (x : Session U P)
    (n : Nat) : ∃ schedule, ∀ k < n, ∀ y : Thread U P,
      y ∈ (x.run config (past + 1) horizon schedule).threads[k]? → y.report?.isSome := by
  induction n with
  | zero => exact ⟨[], fun k hk => by omega⟩
  | succ n ih =>
    obtain ⟨schedule, harrived⟩ := ih
    obtain ⟨more, hn, hother⟩ := exists_run_arrived config past horizon
      (x.run config (past + 1) horizon schedule) n
    refine ⟨schedule ++ more, fun k hk y hy => ?_⟩
    rw [run, List.foldl_append] at hy
    rcases Nat.lt_succ_iff_lt_or_eq.1 hk with hk | rfl
    · exact harrived k hk y ((hother k (by omega)).symm.trans hy)
    · exact hn y hy

/-- **No session gets stuck**: from wherever the workers are, they can complete the round. -/
theorem During.exists_complete (hx : During config past horizon e x) :
    ∃ schedule, (x.run config (past + 1) horizon schedule).Complete := by
  obtain ⟨schedule, harrived⟩ := exists_run_forall_arrived config past horizon x e.workers.size
  refine ⟨schedule, (hx.run schedule).complete_iff.2 fun y hy => ?_⟩
  obtain ⟨k, hk⟩ := List.getElem?_of_mem hy
  rw [Array.getElem?_toList] at hk
  have hfinish := (hx.run schedule).finish_eq k
  rw [hk, Option.map_some, eq_comm] at hfinish
  obtain ⟨w, hw, _⟩ := Option.map_eq_some_iff.1 hfinish
  exact harrived k (Array.getElem?_eq_some_iff.1 hw).1 y hk

end Session

end EventSim
