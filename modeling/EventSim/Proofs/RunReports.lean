import EventSim.Proofs.Faults

set_option autoImplicit false

/-!
# Reports on a run

The same deliveries are counted in three places: every worker counts them for itself from round to round,
the record of a round counts them by workers, and the figures of a finished run sum up what the workers
have counted. The three agree. An observer is told of the beginning of a run, of all its rounds in order, and
of its end, and what it is told of the last round is what the figures say.

## Main definitions

* `EventSim.WorkerStats.Counts` — a worker has counted so many deliveries, round by round.
* `EventSim.RoundRecord.deliveredBy` — the deliveries of one worker in a round.
* `EventSim.Scheduler.ReportedBy` — the figures of a finished run agree with its rounds.

## Main results

* `EventSim.WorkerStats.Counts.tally` — a round is counted by its worker.
* `EventSim.Scheduler.Sound.counts_of_stages_eq` — what every worker has counted at a stage.
* `EventSim.Scheduler.run_of_finished` — what an observer of a finished run is told.
* `EventSim.Scheduler.IsSetUp.reportedBy` — the reports on a finished run agree.
-/

namespace EventSim

variable {U P : Type} [Payload P] [SimUnit U P]

/-! ## What a worker counts -/

/-- The figures of a worker are those of rounds in which it delivered so many messages each. -/
structure WorkerStats.Counts (x : WorkerStats) (ds : List Nat) : Prop where
  /-- The deliveries are summed up. -/
  delivered : x.delivered = ds.sum
  /-- A round with a delivery is busy. -/
  busyRounds : x.busyRounds = ds.countP (0 < ·)
  /-- Every round is busy or idle. -/
  rounds : x.busyRounds + x.idleRounds = ds.length

/-- The deliveries of a worker in a round, by its number. -/
def RoundRecord.deliveredBy {P : Type} (r : RoundRecord P) (worker : Nat) : Nat :=
  r.summary.perWorker.getD worker 0

omit [Payload P] [SimUnit U P] in
/-- **A round is counted by its worker.** -/
lemma WorkerStats.Counts.tally {w : Worker U P} {ds : List Nat} (h : w.stats.Counts ds) (d : Nat) :
    (w.tally d).stats.Counts (ds ++ [d]) where
  delivered := by rw [Worker.tally, List.sum_append, List.sum_singleton, ← h.delivered]
  busyRounds := by rw [Worker.tally, List.countP_append, List.countP_singleton, ← h.busyRounds]; simp
  rounds := by
    rw [Worker.tally, List.length_append, List.length_singleton, ← h.rounds]
    by_cases hd : 0 < d <;> simp only [hd, ↓reduceIte] <;> omega

namespace Stage

variable {config : RunConfig} {t : Stage U P} {w : Worker U P} {i : Nat}

/-- The reports of a round, by worker numbers. -/
lemma getElem?_reports (config : RunConfig) (t : Stage U P) (i : Nat) :
    (t.record config).reports[i]? =
      t.engine.workers[i]?.map fun w => (t.engine.part config t.past t.horizon.current w).2 := by
  rw [record, (Engine.runRound_eq config t.past t.horizon.current t.engine).2.1, List.getElem?_map,
    Array.getElem?_toList]

/-- A worker that is there delivers what it reports. -/
lemma deliveredBy_record (hw : t.engine.workers[i]? = some w) : (t.record config).deliveredBy i =
    (t.engine.part config t.past t.horizon.current w).2.delivered := by
  rw [RoundRecord.deliveredBy, RoundRecord.summary, List.getD_eq_getElem?_getD, List.getElem?_map,
    getElem?_reports, hw]
  rfl

/-- What a worker has counted after a round without fault. -/
lemma counts_after (hf : (t.record config).fault = none) {ds : List Nat}
    (hw : t.engine.workers[i]? = some w) (hc : w.stats.Counts ds) :
    (t.engine.part config t.past t.horizon.current w).1.stats.worker = w.stats.worker ∧
      (t.engine.part config t.past t.horizon.current w).1.stats.Counts
        (ds ++ [(t.record config).deliveredBy i]) := by
  have hmem : w ∈ t.engine.workers.toList :=
    List.mem_of_getElem? (by rw [Array.getElem?_toList]; exact hw)
  have hpart := Worker.runRound_eq_of_success (Engine.fault_part_eq_none hf hmem)
  rw [deliveredBy_record hw, Engine.part, hpart]
  -- handing over messages does not touch what is counted here
  have hhandling : (w.handling config t.engine.postbox.table (t.past + 1) t.horizon.current
      (t.engine.stagedFor w.id t.past)).1.stats.Counts ds := by
    rw [Worker.stats_handling]
    exact ⟨hc.delivered, hc.busyRounds, hc.rounds⟩
  exact ⟨by rw [Worker.tally, Worker.stats_handling], hhandling.tally _⟩

end Stage

namespace Scheduler

variable {s : Scheduler U P} {t : Stage U P} {ts rest : List (Stage U P)} {stats : RunStats}

/-! ## What the workers have counted -/

/-- **What every worker has counted at a stage**: the deliveries that the records of the rounds show. -/
lemma Sound.counts_of_stages_eq (hs : s.Sound) (h : s.stages = ts ++ t :: rest) :
    ∀ i (w : Worker U P), t.engine.workers[i]? = some w → w.stats.worker.index = i ∧
      w.stats.Counts (ts.map fun t => (t.record s.config).deliveredBy i) := by
  refine hs.engine_induction (motive := fun ts _ e => ∀ i (w : Worker U P), e.workers[i]? = some w →
    w.stats.worker.index = i ∧ w.stats.Counts (ts.map fun t => (t.record s.config).deliveredBy i))
    (fun i w hw => ?_) (fun ts t rest _ hf ih i w' hw' => ?_) h
  · obtain ⟨xs, _, rfl, hi⟩ := hs.exists_worker_firstEngine hw
    exact ⟨hi, rfl, rfl, rfl⟩
  · rw [Stage.after, Engine.getElem?_workers_runRound] at hw'
    obtain ⟨w, hw, rfl⟩ := Option.map_eq_some_iff.1 hw'
    obtain ⟨hindex, hcounts⟩ := ih i w hw
    obtain ⟨hworker, hafter⟩ := Stage.counts_after hf hw hcounts
    rw [List.map_append]
    exact ⟨(congrArg Id.index hworker).trans hindex, hafter⟩

/-! ## What an observer is told -/

/-- **What an observer of a finished run is told**: that it begins, all its rounds, and that it ends with its
figures. The scheduler keeps the figures. -/
lemma run_of_finished (h : s.stages = ts ++ [t]) (hstats : s.outcome = .finished stats) :
    stats.workers = (t.after s.config).workers.toList.map (·.stats) ∧
      ∀ {α : Type} (observe : α → Observation P → α) (a : α),
        (s.run observe a).1 =
            (s.observations stats.horizonDelta ++ [Observation.runEnd stats]).foldl observe a ∧
          (s.run observe a).2.1.stats = stats ∧ (s.run observe a).2.2 = .finished stats := by
  obtain ⟨t₀, p, hfirst, h₀, hout, rfl⟩ := of_outcome_finished h hstats
  refine ⟨rfl, fun observe a => ?_⟩
  rw [run_of_some observe a hfirst h₀, hout, ← h, ← foldl_observations, List.foldl_append]
  exact ⟨rfl, rfl, rfl⟩

/-! ## The reports on a run -/

/-- The figures of a finished run agree with its rounds, and with what its observers are told. -/
structure ReportedBy (s : Scheduler U P) (stats : RunStats) : Prop where
  /-- An observer is told that the run begins, then of every round that it begins and that it is over, and then
  that the run ends, with the figures. The scheduler keeps them. -/
  told : ∀ {α : Type} (observe : α → Observation P → α) (a : α),
    (s.run observe a).1 = (s.observations stats.horizonDelta ++ [Observation.runEnd stats]).foldl observe a ∧
      (s.run observe a).2.1.stats = stats ∧ (s.run observe a).2.2 = .finished stats
  /-- The rounds are numbered from one to the number of rounds. -/
  rounds : s.history.map (·.round) = List.range' 1 stats.rounds
  /-- The last horizon is the final one. -/
  finalHorizon : s.history.getLast?.map (·.horizon) = some stats.finalHorizon
  /-- In every round all workers report, in order of their numbers. -/
  reports : ∀ r ∈ s.history, r.reports.map (·.worker.index) = List.range s.config.workers
  /-- In every round there is one number of deliveries for each worker. -/
  perWorker : ∀ r ∈ s.history, r.summary.perWorker.length = s.config.workers
  /-- It is the number of messages that the worker handed over. -/
  handed : ∀ r ∈ s.history, r.summary.perWorker = r.reports.map (·.handled.length)
  /-- The deliveries of a round are those of all workers. -/
  delivered : ∀ r ∈ s.history, r.summary.delivered = r.summary.perWorker.sum
  /-- There are figures of every worker. -/
  workers : stats.workers.map (·.worker.index) = List.range s.config.workers
  /-- A worker has counted the deliveries that the rounds show, and whether there was any. -/
  counts : ∀ i (x : WorkerStats), stats.workers[i]? = some x → x.Counts (s.history.map (·.deliveredBy i))
  /-- What was pending after the last round remains. -/
  undelivered : s.history.getLast?.map (·.summary.pending) = some stats.undelivered

/-- The reports of a round without fault. -/
lemma Sound.reports_of_success (hs : s.Sound) (h : s.stages = ts ++ t :: rest)
    (hf : (t.record s.config).fault = none) :
    (t.record s.config).reports.map (·.worker.index) = List.range s.config.workers ∧
      (t.record s.config).summary.perWorker = (t.record s.config).reports.map (·.handled.length) := by
  have hreports : (t.record s.config).reports = t.engine.workers.toList.map fun w =>
      (t.engine.part s.config t.past t.horizon.current w).2 :=
    (Engine.runRound_eq s.config t.past t.horizon.current t.engine).2.1
  constructor
  · have hindex : (fun w => (t.engine.part s.config t.past t.horizon.current w).2.worker.index) =
        fun w : Worker U P => w.id.index := by
      funext w
      rw [Engine.part, (Worker.runRound_frame ..).2.2.2.1]
    rw [hreports, List.map_map, ← hs.size_workers_of_stages_eq h, ← (hs.coherent_of_stages_eq h).map_index]
    exact congrArg (List.map · _) hindex
  · change (t.record s.config).reports.map (·.delivered) = _
    rw [hreports, List.map_map, List.map_map]
    refine List.map_congr_left fun w hw => ?_
    have hpart := Worker.runRound_of_success (Engine.fault_part_eq_none hf hw)
    rw [Function.comp_apply, Function.comp_apply, Engine.part, (Worker.runRound_frame ..).2.2.2.2.1, hpart.2.1,
      ← hpart.1, List.length_map]

/-- The reports of all rounds of a finished run. -/
lemma Sound.reports_of_finished (hs : s.Sound) (hstats : s.outcome = .finished stats) {r : RoundRecord P}
    (hr : r ∈ s.history) : r.reports.map (·.worker.index) = List.range s.config.workers ∧
      r.summary.perWorker = r.reports.map (·.handled.length) := by
  rw [history_eq_map] at hr
  obtain ⟨t, ht, rfl⟩ := List.mem_map.1 hr
  obtain ⟨ts, rest, h⟩ := List.append_of_mem ht
  exact hs.reports_of_success h (fault_eq_none_of_finished hstats t ht)

/-- What every worker has counted in a finished run. -/
lemma Sound.counts_of_finished (hs : s.Sound) (h : s.stages = ts ++ [t]) (hstats : s.outcome = .finished stats)
    {i : Nat} {x : WorkerStats} (hx : stats.workers[i]? = some x) :
    x.worker.index = i ∧ x.Counts (s.history.map (·.deliveredBy i)) := by
  rw [(run_of_finished h hstats).1, Stage.after, (Engine.runRound_eq ..).1, List.getElem?_map,
    Array.getElem?_toList, Array.getElem?_map] at hx
  obtain ⟨w', hw', rfl⟩ := Option.map_eq_some_iff.1 hx
  obtain ⟨w, hw, rfl⟩ := Option.map_eq_some_iff.1 hw'
  obtain ⟨hindex, hbefore⟩ := hs.counts_of_stages_eq h i w hw
  obtain ⟨hworker, hafter⟩ := Stage.counts_after (hs.stats_of_finished h hstats).1 hw hbefore
  rw [history_eq_map, h, List.map_map, List.map_append]
  exact ⟨(congrArg Id.index hworker).trans hindex, hafter⟩

/-- A finished run has figures of every worker, in order of their numbers. -/
lemma Sound.workers_of_finished (hs : s.Sound) (h : s.stages = ts ++ [t]) (hstats : s.outcome = .finished stats) :
    stats.workers.map (·.worker.index) = List.range s.config.workers := by
  have hlength : stats.workers.length = s.config.workers := by
    rw [(run_of_finished h hstats).1, List.length_map, Array.length_toList, Stage.after,
      (Engine.runRound_eq ..).1, Array.size_map, hs.size_workers_of_stages_eq h]
  refine List.ext_getElem (by simp [hlength]) fun i hi _ => ?_
  rw [List.getElem_map, List.getElem_range]
  exact (hs.counts_of_finished h hstats (List.getElem?_eq_getElem (by simpa using hi))).1

/-- **The reports on a finished run agree.** An observer is told of all rounds in order, with the horizons and
the deliveries that the figures sum up; and what every worker has counted for itself is what the records of the
rounds show.

**Proof sketch.** The run goes through its stages and ends as the last one says, so observers are told of the
records of the stages (`run_of_finished`). A worker counts a round at its end (`Counts.tally`), whatever else
happens to it in the round, and a run that finishes has no round with a fault, in which a count may be lost.
Then induction along the stages (`Sound.counts_of_stages_eq`) does the rest. -/
theorem IsSetUp.reportedBy (hs : s.IsSetUp) (hunits : ∃ u, (s.registered? u).isSome)
    (hstats : s.outcome = .finished stats) : s.ReportedBy stats := by
  have hsound := hs.sound
  obtain ⟨ts, t, h⟩ : ∃ ts t, s.stages = ts ++ [t] := by
    rcases stages_eq_nil_or_append s with ⟨_, hfirst⟩ | hlast
    · obtain ⟨u, hu⟩ := hunits
      rw [registered?_eq_none (leastLookahead_eq_none_of_finished hstats hfirst)] at hu
      cases hu
    · exact hlast
  obtain ⟨_, delta, _, hfigures⟩ := hsound.stats_of_finished h hstats
  have hlast : s.history.getLast? = some (t.record s.config) := by
    rw [history_eq_of_stages_eq h, List.map_nil, List.getLast?_concat]
  exact {
    told := (run_of_finished h hstats).2
    rounds := by rw [map_round_history, h, hfigures]
    finalHorizon := by rw [hlast, hfigures]; rfl
    reports := fun r hr => (hsound.reports_of_finished hstats hr).1
    perWorker := fun r hr => by
      obtain ⟨hindex, hperWorker⟩ := hsound.reports_of_finished hstats hr
      rw [hperWorker, List.length_map, ← List.length_map (·.worker.index), hindex, List.length_range]
    handed := fun r hr => (hsound.reports_of_finished hstats hr).2
    delivered := fun r _ => rfl
    workers := hsound.workers_of_finished h hstats
    counts := fun i x hx => (hsound.counts_of_finished h hstats hx).2
    undelivered := by rw [hlast, hfigures]; rfl }

/-- The reports on the run of the correspondents agree. -/
theorem reportedBy_correspondents : correspondents.IsSetUp ∧
    (∃ u, (correspondents.registered? u).isSome) ∧ ∃ stats, correspondents.outcome = .finished stats ∧
      stats.rounds = 5 ∧ correspondents.ReportedBy stats := by
  have hunits : ∃ u, (correspondents.registered? u).isSome := ⟨Id.ofNat 0, by decide +kernel⟩
  exact ⟨isSetUp_correspondents, hunits, _, outcome_correspondents, rfl,
    isSetUp_correspondents.reportedBy hunits outcome_correspondents⟩

end Scheduler

end EventSim
