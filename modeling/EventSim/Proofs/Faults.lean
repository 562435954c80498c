import EventSim.Proofs.Leftovers
import EventSim.Proofs.PartitionIndependence

set_option autoImplicit false

/-!
# Rounds that fail

A unit faults in a call if it gives up with an error, breaks down, or leaves a refusal recorded. Its worker
then stops at that message, while the other workers do their parts of the round to the end. The round is the
last one of the run: the error of the first worker that faulted is reported, observers are not told of an end,
and the figures of the scheduler stay what they were.

## Main definitions

* `EventSim.Call.Faults`, `EventSim.Visit.Faults` — the three ways in which a call faults.
* `EventSim.Stage.FaultsAt` — a worker faults in a round.
* `EventSim.Stage.HandsOver` — what a worker hands over in a round, whether or not it faults.
* `EventSim.Stage.FirstFault` — the first worker that faults in a round, with its error.
* `EventSim.Scheduler.FailsIn` — a run that ends with a round in which workers fault.

## Main results

* `EventSim.Worker.deliverAll_cases` — messages are handed over up to and including the first that fails.
* `EventSim.Stage.handsOver` — what every worker hands over in a round.
* `EventSim.Stage.exists_firstFault` — a round in which workers fault has the error of the first of them.
* `EventSim.Scheduler.IsSetUp.failsIn` — how a run ends with a round in which workers fault.
-/

namespace EventSim

variable {U P : Type}

/-! ## Calls that fault -/

/-- The call faults: the unit gives up with an error or breaks down, or it leaves a refusal recorded. -/
def Call.Faults (k : Call U P) : Prop := k.ending ≠ .completed ∨ k.context.fault.isSome

instance (k : Call U P) : Decidable k.Faults :=
  inferInstanceAs (Decidable (k.ending ≠ .completed ∨ k.context.fault.isSome = true))

/-- A worker reports a failure just if the call faults. -/
lemma Worker.isSome_failure_iff [Payload P] {w : WorkerId} {m : Message P} {k : Call U P} :
    (Worker.failure w m k).isSome ↔ k.Faults := by
  unfold Worker.failure Call.fault Call.Faults
  cases k.ending <;> simp

variable [Payload P] [SimUnit U P]

/-- The unit faults in the call for its message. -/
def Visit.Faults (s : Setting) (v : Visit U P) : Prop := (v.slot.call s v.message).Faults

instance (s : Setting) (v : Visit U P) : Decidable (v.Faults s) :=
  inferInstanceAs (Decidable (v.slot.call s v.message).Faults)

lemma Visit.isSome_failure_iff {s : Setting} {v : Visit U P} :
    (v.handled s).failure.isSome ↔ v.Faults s := Worker.isSome_failure_iff

/-! ## The part of one worker -/

namespace Worker

/-- **Messages are handed over up to and including the first that fails**, and to the last if none does. -/
theorem deliverAll_cases (table : RoutingTable) (round : Nat) (horizon : SimTime) (w : Worker U P)
    (ms : List (Message P)) :
    (∀ h ∈ (w.deliverAll table round horizon ms).2, h.failure = none) ∧
        (w.deliverAll table round horizon ms).2.map (·.message) = ms ∨
      ∃ before h rest, (w.deliverAll table round horizon ms).2 = before ++ [h] ∧ h.failure.isSome ∧
        (∀ x ∈ before, x.failure = none) ∧ ms = before.map (·.message) ++ h.message :: rest := by
  induction ms generalizing w with
  | nil => exact Or.inl ⟨by simp [deliverAll], rfl⟩
  | cons m ms ih =>
    have hm := (deliver_frame table round horizon w m).2.2.2
    rw [deliverAll_cons]
    split
    · rename_i hfail
      exact Or.inr ⟨[], _, ms, rfl, hfail, by simp, by simp [hm]⟩
    · rename_i hok
      have hnone : (w.deliver table round horizon m).2.failure = none := by simpa using hok
      rcases ih (w.deliver table round horizon m).1 with ⟨hall, hmap⟩ | ⟨before, h, rest, heq, hfail, hbefore, hms⟩
      · refine Or.inl ⟨?_, by simp [hm, hmap]⟩
        simpa [hnone] using hall
      · refine Or.inr ⟨(w.deliver table round horizon m).2 :: before, h, rest, by simp [heq], hfail, ?_, ?_⟩
        · simpa [hnone] using hbefore
        · rw [List.map_cons, hm, List.cons_append, ← hms]

/-- The fault that a worker reports is that of the first message that fails. -/
lemma fault_runRound (config : RunConfig) (table : RoutingTable) (round : Nat) (horizon : SimTime)
    (staged : List (Envelope P)) (w : Worker U P) :
    (w.runRound config table round horizon staged).2.fault =
      ((w.handling config table round horizon staged).2.findSome? Handled.failure).map
        (Failure.error w.id) := by
  have hid : (w.handling config table round horizon staged).1.id = w.id :=
    (deliverAll_frame table round horizon _ _).1
  rw [← hid]
  unfold runRound
  dsimp only
  split
  · rename_i c h
    rw [show (w.handling config table round horizon staged).2.findSome? Handled.failure = _ from h]
    rfl
  · rfl

end Worker

namespace Stage

variable {config : RunConfig} {t : Stage U P} {w : Worker U P} {e : RunError}

/-- The setting in which a worker hands over messages in the round. -/
def settingAt (t : Stage U P) (w : Worker U P) : Setting :=
  w.setting t.engine.postbox.table (t.past + 1) t.horizon.current

/-- The messages that are due at a worker in the round. -/
def batch (config : RunConfig) (t : Stage U P) (w : Worker U P) : List (Message P) :=
  w.due config t.horizon.current (t.engine.stagedFor w.id t.past)

/-- The worker faults in the round: one of its units does. -/
def FaultsAt (config : RunConfig) (t : Stage U P) (w : Worker U P) : Prop :=
  ∃ v ∈ t.visitsAt config w, v.Faults (t.settingAt w)

/-- What a worker hands over in the round. -/
structure HandsOver (config : RunConfig) (t : Stage U P) (w : Worker U P) : Prop where
  /-- Its messages are due in order of times and identities. -/
  sorted : KeySorted (t.batch config w)
  /-- They are those that waited or were staged, that no staged handle withdraws, and that are due by the
  horizon and by the end. -/
  mem_batch : ∀ m, m ∈ t.batch config w ↔
    (m ∈ w.queue.entries ∨ .deliver m ∈ t.engine.stagedFor w.id t.past) ∧
      (∀ h, .cancel h ∈ t.engine.stagedFor w.id t.past → h.key ≠ m.key) ∧
        m.time ≤ config.deliveryLimit t.horizon.current
  /-- The record of the round shows what it hands over. -/
  recorded : ∃ ρ ∈ (t.record config).reports, ρ.worker = w.id ∧
    ρ.handled = (t.visitsAt config w).map (·.handled (t.settingAt w))
  /-- A message is handed to its target. -/
  target : ∀ v ∈ t.visitsAt config w, v.slot.id = v.message.target
  /-- If the worker does not fault it hands over everything. -/
  whole : ¬ t.FaultsAt config w → (t.visitsAt config w).map (·.message) = t.batch config w
  /-- If it faults it hands over what comes before the faulting message, that message, and nothing else. -/
  cut : t.FaultsAt config w → ∃ before v rest, t.visitsAt config w = before ++ [v] ∧
    v.Faults (t.settingAt w) ∧ (∀ x ∈ before, ¬ x.Faults (t.settingAt w)) ∧
      t.batch config w = before.map (·.message) ++ v.message :: rest

/-- No worker with a lower number faults in the round, and this one does, with the given error, in its last
call. -/
structure FirstFault (config : RunConfig) (t : Stage U P) (w : Worker U P) (e : RunError) : Prop where
  /-- The worker is one of the run. -/
  mem : w ∈ t.engine.workers.toList
  /-- Those before it do not fault. -/
  first : ∀ w' ∈ t.engine.workers.toList, w'.id.index < w.id.index → ¬ t.FaultsAt config w'
  /-- The error is that of its last call, which faults. -/
  error : ∃ v f, (t.visitsAt config w).getLast? = some v ∧ v.Faults (t.settingAt w) ∧
    (v.handled (t.settingAt w)).failure = some f ∧ e = f.error w.id

/-- What a worker handles in the round is what its calls yield. -/
lemma handling_eq (hc : t.engine.Coherent t.past) (hw : w ∈ t.engine.workers.toList) :
    (w.handling config t.engine.postbox.table (t.past + 1) t.horizon.current
        (t.engine.stagedFor w.id t.past)).2 =
      (t.visitsAt config w).map (·.handled (t.settingAt w)) := by
  rw [← (Worker.runRound_frame ..).2.2.2.2.1]
  exact (handled_part hc hw).1

/-- The calls of a worker, up to and including the first that faults. -/
lemma visitsAt_cases (config : RunConfig) (hc : t.engine.Coherent t.past)
    (hw : w ∈ t.engine.workers.toList) :
    (∀ v ∈ t.visitsAt config w, ¬ v.Faults (t.settingAt w)) ∧
        (t.visitsAt config w).map (·.message) = t.batch config w ∨
      ∃ before v rest, t.visitsAt config w = before ++ [v] ∧ v.Faults (t.settingAt w) ∧
        (∀ x ∈ before, ¬ x.Faults (t.settingAt w)) ∧
          t.batch config w = before.map (·.message) ++ v.message :: rest := by
  have hhandled : (Worker.deliverAll t.engine.postbox.table (t.past + 1) t.horizon.current
      (w.primed config t.horizon.current (t.engine.stagedFor w.id t.past)) (t.batch config w)).2 =
        (t.visitsAt config w).map (·.handled (t.settingAt w)) := handling_eq hc hw
  have hfault : ∀ v : Visit U P, (v.handled (t.settingAt w)).failure = none → ¬ v.Faults (t.settingAt w) := by
    intro v hnone hf
    have hsome := Visit.isSome_failure_iff.2 hf
    simp [hnone] at hsome
  rcases Worker.deliverAll_cases t.engine.postbox.table (t.past + 1) t.horizon.current
      (w.primed config t.horizon.current (t.engine.stagedFor w.id t.past)) (t.batch config w) with
    ⟨hall, hmap⟩ | ⟨before, h, rest, heq, hfail, hbefore, hbatch⟩
  · rw [hhandled] at hall hmap
    refine Or.inl ⟨?_, ?_⟩
    · intro v hv
      exact hfault v (hall _ (List.mem_map_of_mem hv))
    · rw [List.map_map] at hmap
      exact hmap
  · rw [hhandled, List.map_eq_append_iff] at heq
    obtain ⟨vs, us, hvisits, rfl, hus⟩ := heq
    obtain ⟨v, rfl, rfl⟩ := List.map_eq_singleton_iff.1 hus
    refine Or.inr ⟨vs, v, rest, hvisits, Visit.isSome_failure_iff.1 hfail, ?_, ?_⟩
    · intro x hx
      exact hfault x (hbefore _ (List.mem_map_of_mem hx))
    · rw [List.map_map] at hbatch
      exact hbatch

/-- **What every worker hands over in a round**, whether or not it faults, and whether or not others do. -/
theorem handsOver (hc : t.engine.Coherent t.past) (hk : (t.pending.map Message.key).Nodup)
    (hw : w ∈ t.engine.workers.toList) : t.HandsOver config w where
  sorted := Worker.sorted_due
  mem_batch m := by
    rw [batch, Worker.due, MessageQueue.mem_popUpTo.1, MessageQueue.mem_merge (hc.nodup_keys hk hw), and_assoc]
  recorded := by
    refine ⟨(t.engine.part config t.past t.horizon.current w).2, ?_, (Worker.runRound_frame ..).2.2.2.1,
      (handled_part hc hw).1⟩
    rw [record, (Engine.runRound_eq config t.past t.horizon.current t.engine).2.1]
    exact List.mem_map_of_mem hw
  target := (handled_part hc hw).2
  whole hnot := by
    rcases visitsAt_cases config hc hw with ⟨_, hmap⟩ | ⟨before, v, rest, heq, hv, _⟩
    · exact hmap
    · exact absurd ⟨v, by simp [heq], hv⟩ hnot
  cut := by
    rintro ⟨v, hv, hfaults⟩
    rcases visitsAt_cases config hc hw with ⟨hnone, _⟩ | hcut
    · exact absurd hfaults (hnone v hv)
    · exact hcut

/-- The error of a worker is that of its first call that faults. -/
lemma fault_part (hc : t.engine.Coherent t.past) (hw : w ∈ t.engine.workers.toList) :
    (t.engine.part config t.past t.horizon.current w).2.fault =
      ((t.visitsAt config w).findSome? fun v => (v.handled (t.settingAt w)).failure).map
        (Failure.error w.id) := by
  rw [Engine.part, Worker.fault_runRound, handling_eq hc hw, List.findSome?_map]
  rfl

/-- A worker that does not fault reports no error. -/
lemma fault_part_eq_none_iff (hc : t.engine.Coherent t.past) (hw : w ∈ t.engine.workers.toList) :
    (t.engine.part config t.past t.horizon.current w).2.fault = none ↔ ¬ t.FaultsAt config w := by
  rw [fault_part hc hw, Option.map_eq_none_iff, List.findSome?_eq_none_iff, FaultsAt]
  simp only [not_exists, not_and]
  refine forall₂_congr fun v _ => ?_
  rw [← Visit.isSome_failure_iff, Option.not_isSome_iff_eq_none]

/-- A worker that faults reports the error of its last call. -/
lemma exists_fault_part (hc : t.engine.Coherent t.past) (hw : w ∈ t.engine.workers.toList)
    (hf : t.FaultsAt config w) : ∃ v f, (t.visitsAt config w).getLast? = some v ∧
      v.Faults (t.settingAt w) ∧ (v.handled (t.settingAt w)).failure = some f ∧
        (t.engine.part config t.past t.horizon.current w).2.fault = some (f.error w.id) := by
  obtain ⟨u, hu, hfaults⟩ := hf
  rcases visitsAt_cases config hc hw with ⟨hnone, _⟩ | ⟨before, v, rest, heq, hv, hbefore, _⟩
  · exact absurd hfaults (hnone u hu)
  · obtain ⟨f, hfailure⟩ := Option.isSome_iff_exists.1 (Visit.isSome_failure_iff.2 hv)
    have hfind : (before.findSome? fun v => (v.handled (t.settingAt w)).failure) = none := by
      rw [List.findSome?_eq_none_iff]
      intro x hx
      rw [← Option.not_isSome_iff_eq_none, Visit.isSome_failure_iff]
      exact hbefore x hx
    refine ⟨v, f, by rw [heq, List.getLast?_append]; rfl, hv, hfailure, ?_⟩
    rw [fault_part hc hw, heq, List.findSome?_append, hfind, Option.none_or, List.findSome?_singleton, hfailure]
    rfl

/-- **A round in which workers fault has the error of the first of them.** -/
theorem exists_firstFault (hc : t.engine.Coherent t.past)
    (hf : ∃ w ∈ t.engine.workers.toList, t.FaultsAt config w) :
    ∃ w e, t.FirstFault config w e ∧ (t.record config).fault = some e := by
  have hreports : (t.record config).fault = (t.engine.workers.toList).findSome? fun w =>
      (t.engine.part config t.past t.horizon.current w).2.fault := by
    rw [RoundRecord.fault, record, (Engine.runRound_eq config t.past t.horizon.current t.engine).2.1,
      List.findSome?_map]
    rfl
  have hsome : (t.record config).fault.isSome := by
    obtain ⟨w, hw, hfw⟩ := hf
    rw [hreports, List.findSome?_isSome_iff]
    refine ⟨w, hw, Option.isSome_iff_ne_none.2 fun hnone => ?_⟩
    exact (fault_part_eq_none_iff hc hw).1 hnone hfw
  obtain ⟨e, he⟩ := Option.isSome_iff_exists.1 hsome
  obtain ⟨before, w, rest, hsplit, hwe, hbefore⟩ := List.findSome?_eq_some_iff.1 (hreports.symm.trans he)
  have hw : w ∈ t.engine.workers.toList := by simp [hsplit]
  have hfaults : t.FaultsAt config w := by
    by_contra hnot
    rw [(fault_part_eq_none_iff hc hw).2 hnot] at hwe
    cases hwe
  refine ⟨w, e, ⟨hw, ?_, ?_⟩, he⟩
  · intro w' hw' hlt
    -- a worker with a lower number stands before `w`
    obtain ⟨j, hj⟩ := List.getElem?_of_mem hw'
    have hindex : w.id.index = before.length := by
      refine hc.index_eq ?_
      rw [← Array.getElem?_toList, hsplit]
      simp
    have hindex' : w'.id.index = j := hc.index_eq (by rw [← Array.getElem?_toList]; exact hj)
    rw [hsplit, List.getElem?_append_left (by omega)] at hj
    exact (fault_part_eq_none_iff hc hw').1 (hbefore w' (List.mem_of_getElem? hj))
  · obtain ⟨v, f, hlast, hv, hfailure, hfault⟩ := exists_fault_part hc hw hfaults
    exact ⟨v, f, hlast, hv, hfailure, Option.some.inj (hwe.symm.trans hfault)⟩

/-- A round with a fault is the last one. -/
lemma of_fault (h : (t.record config).fault = some e) :
    t.next? config = none ∧ t.outcome config = .error e := by
  have hverdict : (t.record config).verdict config t.horizon = .fault e :=
    RoundRecord.verdict_eq_fault_iff.2 h
  constructor
  · rw [next?, hverdict]
  · rw [outcome, hverdict]

end Stage

/-! ## The run -/

namespace Scheduler

variable {s : Scheduler U P} {t : Stage U P} {ts : List (Stage U P)} {r : Nat}

/-- What an observer is told of a run up to its last round, if the least lookahead is the given one. -/
def observations (s : Scheduler U P) (delta : SimTime) : List (Observation P) :=
  .runStart delta s.config.workers ::
    s.history.flatMap fun r => [.roundStart r.round r.horizon, .roundEnd r]

/-- The run ends with the round of the stage, the `r`-th, because workers fault in it. -/
structure FailsIn (s : Scheduler U P) (r : Nat) (t : Stage U P) : Prop where
  /-- Every worker hands over its messages, up to the first one that faults. -/
  handsOver : ∀ w ∈ t.engine.workers.toList, t.HandsOver s.config w
  /-- The run fails with the error of the first worker that faults. Any observer is told just of the rounds, and
  not of an end, and the figures of the scheduler stay what they were. -/
  failed : ∃ w e delta, t.FirstFault s.config w e ∧ s.leastLookahead = some delta ∧
    ∀ {α : Type} (observe : α → Observation P → α) (a : α),
      (s.run observe a).1 = (s.observations delta).foldl observe a ∧
        (s.run observe a).2.1.state = .failed ∧ (s.run observe a).2.1.stats = s.stats ∧
          (s.run observe a).2.2 = .failed e
  /-- The rounds of the run are numbered from one to `r`. -/
  rounds : s.history.map (·.round) = List.range' 1 r
  /-- No unit receives anything in a later round. -/
  received : ∀ u, ∀ x ∈ s.course u, x.2.round ≤ r

/-- The rounds of a run are numbered from one on. -/
lemma map_round_history (s : Scheduler U P) :
    s.history.map (·.round) = List.range' 1 s.stages.length := by
  rw [history_eq_map, List.map_map]
  apply List.ext_getElem (by simp)
  intro i hi hi'
  simp only [List.length_map] at hi
  have hsplit : s.stages = s.stages.take i ++ s.stages[i] :: s.stages.drop (i + 1) := by simp
  have hpast := past_eq_length hsplit
  rw [List.length_take, Nat.min_eq_left (by omega)] at hpast
  rw [List.getElem_map, List.getElem_range', Function.comp_apply, Stage.round_record]
  omega

omit [Payload P] [SimUnit U P] in
/-- Handing units back leaves the figures of the scheduler. -/
lemma stats_recovered (s : Scheduler U P) (e : Engine U P) : (s.recovered e).stats = s.stats := by
  have hrestore : ∀ (xs : List (List (Slot U) × Nat)) (s : Scheduler U P),
      (xs.foldl (fun s p => s.restoreSlots (Id.ofNat p.2) p.1) s).stats = s.stats := by
    intro xs
    induction xs with
    | nil => exact fun s => rfl
    | cons p xs ih => exact fun s => ih _
  exact hrestore _ s.vacated

/-- What an observer makes of the rounds of a run, it makes of its stages. -/
lemma foldl_observations (s : Scheduler U P) (delta : SimTime) {α : Type} (observe : α → Observation P → α) (a : α) :
    (s.observations delta).foldl observe a = s.stages.foldl (Stage.observed observe s.config)
      (observe a (.runStart delta s.config.workers)) := by
  rw [observations, List.foldl_cons, history_eq_map, List.flatMap_map, List.foldl_flatMap]
  rfl

/-- A run whose last round has a fault. -/
lemma run_of_fault {e : RunError} (h : s.stages = ts ++ [t]) (he : (t.record s.config).fault = some e) :
    ∃ delta, s.leastLookahead = some delta ∧
      ∀ {α : Type} (observe : α → Observation P → α) (a : α),
        (s.run observe a).1 = (s.observations delta).foldl observe a ∧
          (s.run observe a).2.1.state = .failed ∧ (s.run observe a).2.1.stats = s.stats ∧
            (s.run observe a).2.2 = .failed e := by
  obtain ⟨t₀, hfirst, h₀⟩ := firstStage?_of_stages_eq h
  obtain ⟨delta, _, _, hdelta, _, _, _, _, ht₀⟩ := firstStage?_eq_some.1 hfirst
  have hhorizon : t₀.horizon.delta = delta := by rw [ht₀]; rfl
  refine ⟨delta, hdelta, ?_⟩
  intro α observe a
  rw [run_of_some observe a hfirst h₀, (Stage.of_fault he).2, hhorizon, ← h, ← foldl_observations]
  exact ⟨rfl, rfl, stats_recovered s _, rfl⟩

/-- **A round in which workers fault ends the run.** Whichever workers fault in it, where in their batches, and
in which of the three ways, every other worker completes its part; the error is that of the first of them.

**Proof sketch.** A worker hands over its batch up to the first call that faults (`Stage.handsOver`) and reports
the error of that call, and the round has the error of the first report (`Stage.exists_firstFault`). Faults come
first in the verdict, so there is no next stage, and the run ends as its last stage says (`run_of_fault`). -/
theorem IsSetUp.failsIn (hs : s.IsSetUp) (ht : s.round? r = some t)
    (hf : ∃ w ∈ t.engine.workers.toList, t.FaultsAt s.config w) : s.FailsIn r t := by
  have hsound := hs.sound
  obtain ⟨ts, rest, h, rfl⟩ := exists_of_round? ht
  have hc := hsound.coherent_of_stages_eq h
  obtain ⟨w, e, hfirst, he⟩ := Stage.exists_firstFault hc hf
  have hlast : rest = [] := by
    have hnext := next?_eq_head? h
    rw [(Stage.of_fault he).1] at hnext
    exact List.head?_eq_none_iff.1 hnext.symm
  subst hlast
  have hrounds : s.history.map (·.round) = List.range' 1 (ts.length + 1) := by
    rw [map_round_history, h, List.length_append, List.length_singleton]
  refine ⟨?_, ?_, hrounds, ?_⟩
  · intro w hw
    exact Stage.handsOver hc (hsound.nodup_pending h) hw
  · obtain ⟨delta, hdelta, hrun⟩ := run_of_fault h he
    exact ⟨w, e, delta, hfirst, hdelta, hrun⟩
  · intro u x hx
    obtain ⟨q, hq, hx⟩ := List.mem_flatMap.1 hx
    obtain ⟨m, _, rfl⟩ := List.mem_map.1 hx
    have hround : q.round ∈ s.history.map (·.round) := List.mem_map_of_mem hq
    rw [hrounds, List.mem_range'_1] at hround
    show q.round ≤ ts.length + 1
    omega

end Scheduler

/-! ## Two workers that fault in the same round -/

/-- A unit that sends a six to the second unit, tries in vain to answer a six in the past, and breaks down
over a nine. -/
def saboteur : RuleTable where
  lookahead := ⟨Binary64.ofNat 1⟩
  opening := [.send (.fromNow (Binary64.ofNat 3)) (.unit (Id.ofNat 1)) (.exactly ⟨6⟩) none false]
  rules :=
    [⟨some 6, some 6, none, [.send (.at SimTime.zero) .self (.exactly ⟨0⟩) none true]⟩,
      ⟨some 9, some 9, none, [.crash ⟨some "sabotage"⟩]⟩]

namespace Scheduler

/-- Two saboteurs, of which the first is at the second worker and the second at the first one, and a courier at
the third worker. -/
def sabotage : Scheduler RuleTable Mark :=
  ((pair { workers := 3 } saboteur (Id.ofNat 1) (Id.ofNat 0)).register courier (Id.ofNat 2)).2

lemma isSetUp_sabotage : sabotage.IsSetUp := (isSetUp_pair rfl _ _ _).register _ _

/-- In the third round the first worker faults over the first of two sixes, with a refusal that its unit
ignores, and the second worker breaks down over the nine. The courier receives its message all the same. -/
theorem failsIn_sabotage :
    (∃ t, sabotage.round? 3 = some t ∧ sabotage.FailsIn 3 t) ∧
      sabotage.outcome = .failed (.unitFailed (Id.ofNat 1) (Id.ofNat 0) ⟨Binary64.ofNat 3⟩ "6"
        (.causality (Id.ofNat 1) (Id.ofNat 1) SimTime.zero ⟨Binary64.ofNat 3⟩ "0")) ∧
      (sabotage.course (Id.ofNat 0)).map (·.1.payload.value) = [9] ∧
      (sabotage.course (Id.ofNat 1)).map (·.1.payload.value) = [6] ∧
      (sabotage.course (Id.ofNat 2)).map (·.1.payload.value) = [5, 4, 3] := by
  have hround : ∃ t ∈ sabotage.round? 3,
      ∃ w ∈ t.engine.workers.toList, ∃ v ∈ t.visitsAt sabotage.config w, v.Faults (t.settingAt w) := by
    decide +kernel
  obtain ⟨t, ht, hf⟩ := hround
  exact ⟨⟨t, ht, isSetUp_sabotage.failsIn ht hf⟩, by decide +kernel, by decide +kernel, by decide +kernel,
    by decide +kernel⟩

end Scheduler

end EventSim
