import EventSim.Proofs.Faults

set_option autoImplicit false

/-!
# How a run ends

A run of a scheduler that is set up ends in one of six ways. There may be no units, the first horizon may not
move, a unit may break down while it starts or complain; otherwise there are rounds, and the last one of them
ends the run with or without an error. In no way is it missing a unit.

## Main definitions

* `EventSim.Scheduler.Exit` — the ends of a run, with the scheduler that each of them leaves.
* `EventSim.RunError.endsRun` — the errors that do not belong to the setup.

## Main results

* `EventSim.Scheduler.Sound.exit` — every run ends in one of these ways, whoever observes it.
* `EventSim.Scheduler.Exit.endsRun` — a run that has begun ends with no error of the setup.
* `EventSim.Scheduler.Sound.outcome_ne_unknownUnit` — no run fails because a unit is not there.
-/

namespace EventSim

variable {U P : Type} [Payload P] [SimUnit U P]

namespace Scheduler

variable {s s' : Scheduler U P} {o : RunOutcome}

/-! ## The ends of a run -/

/-- The ends of a run, each with the scheduler that it leaves. -/
inductive Exit (s : Scheduler U P) : Scheduler U P → RunOutcome → Prop
  /-- There are no units. -/
  | idle {stats : RunStats} (hnone : s.leastLookahead = none) :
    Exit s { s with state := .finished, stats } (.finished stats)
  /-- The first horizon is not later than the start. -/
  | stalled {delta : SimTime} (hdelta : s.leastLookahead = some delta)
    (hstalled : ¬ s.config.startTime < (Horizon.first s.config.startTime delta).current) :
    Exit s { s with state := .failed }
      (.failed (.horizonStalled s.config.startTime (Horizon.first s.config.startTime delta).current))
  /-- A unit breaks down while it starts. -/
  | broken {delta : SimTime} {c : Crash} (hdelta : s.leastLookahead = some delta)
    (hmoves : s.config.startTime < (Horizon.first s.config.startTime delta).current)
    (hstart : s.startUp = .error c) : Exit s s.vacated (.crashed c)
  /-- A unit complains when it starts. -/
  | unready {delta : SimTime} {started : List (StartUp U P)} {e : RunError}
    (hdelta : s.leastLookahead = some delta)
    (hmoves : s.config.startTime < (Horizon.first s.config.startTime delta).current)
    (hstart : s.startUp = .ok started) (hfault : started.findSome? (·.fault) = some e) :
    Exit s { s.vacated.restore (started.map (·.slots)) with state := .failed } (.failed e)
  /-- The last round ends with an error. -/
  | failed {ts : List (Stage U P)} {t : Stage U P} {e : RunError} (h : s.stages = ts ++ [t])
    (hlast : t.outcome s.config = .error e) :
    Exit s { s.recovered (t.after s.config) with state := .failed } (.failed e)
  /-- The last round ends without error. -/
  | finished {ts : List (Stage U P)} {t : Stage U P} {p : Progress} {stats : RunStats}
    (h : s.stages = ts ++ [t]) (hlast : t.outcome s.config = .ok p) :
    Exit s { s.recovered (t.after s.config) with state := .finished, stats } (.finished stats)

/-- **Every run ends in one of these ways**, whoever observes it. -/
theorem Sound.exit (hs : s.Sound) {α : Type} (observe : α → Observation P → α) (a : α) :
    s.Exit (s.run observe a).2.1 (s.run observe a).2.2 := by
  cases hfirst : s.firstStage? with
  | some t₀ =>
    obtain ⟨ts, t, hstages, _⟩ := Stage.exists_last s.config t₀
    have h : s.stages = ts ++ [t] := by rw [stages, hfirst, Option.elim_some, hstages]
    rw [run_of_some observe a hfirst hstages]
    cases hlast : t.outcome s.config with
    | error e => exact .failed h hlast
    | ok p => exact .finished h hlast
  | none =>
    unfold run
    dsimp only
    rw [if_neg (not_not.2 hs.state_eq)]
    split
    · rename_i hnone
      exact .idle hnone
    rename_i delta hdelta
    split
    rotate_left
    · rename_i hstalled
      exact .stalled hdelta hstalled
    rename_i hmoves
    unfold execute
    dsimp only
    rw [show (s.seeds.find? fun m => ((⟨(Placement.ofUnits s.units s.config.workers).routes⟩ :
      RoutingTable).route? m.target).isNone) = none from hs.find?_seeds]
    dsimp only
    split
    · rename_i c hstart
      exact .broken hdelta hmoves hstart
    rename_i started hstart
    split
    · rename_i e hfault
      exact .unready hdelta hmoves hstart hfault
    · -- otherwise the run would come to a first round
      rename_i hfault
      cases hfirst.symm.trans (firstStage?_eq_some.2
        ⟨delta, started, hs.state_eq, hdelta, hmoves, hs.find?_seeds, hstart, hfault, rfl⟩)

end Scheduler

/-! ## Errors of a run -/

/-- The errors with which a run ends that has begun. All others belong to the setup. -/
def RunError.endsRun : RunError → Bool
  | .startUp _ _ | .unitFailed _ _ _ _ _ | .workerPanicked _ _ _ | .horizonStalled _ _ => true
  | _ => false

omit [SimUnit U P] in
/-- What is reported for a unit that fails is an error of a run. -/
lemma Worker.endsRun_of_failure {w : WorkerId} {m : Message P} {call : Call U P} {f : Failure}
    (h : Worker.failure w m call = some f) : (f.error w).endsRun = true := by
  unfold Worker.failure at h
  dsimp only at h
  split at h
  · cases h
    split <;> rfl
  · obtain ⟨e, _, rfl⟩ := Option.map_eq_some_iff.1 h
    split <;> rfl

omit [SimUnit U P] in
/-- A unit that fails is not said to be missing. -/
lemma Worker.failure_ne_unknownUnit {w : WorkerId} {m : Message P} {call : Call U P} {u : UnitId} :
    Worker.failure w m call ≠ some (.reported (.unknownUnit u)) :=
  fun h => Bool.false_ne_true (endsRun_of_failure h)

omit [SimUnit U P] in
/-- Whether a unit fails does not depend on the worker. -/
lemma Worker.succeeds_of_succeeds {w : WorkerId} {m : Message P} {call : Call U P} (h : Worker.failure w m call = none)
    (w' : WorkerId) : Worker.failure w' m call = none := by
  unfold Worker.failure at h ⊢
  dsimp only at h ⊢
  split at h
  · cases h
  · exact Option.map_eq_none_iff.2 (Option.map_eq_none_iff.1 h)

/-- The error of a round is that of some visit. -/
lemma Stage.exists_of_fault {config : RunConfig} {t : Stage U P} (hc : t.engine.Coherent t.past) {e : RunError}
    (h : (t.record config).fault = some e) : ∃ w ∈ t.engine.workers.toList, ∃ v ∈ t.visitsAt config w,
      ∃ f, (v.handled (t.settingAt w)).failure = some f ∧ e = f.error w.id := by
  obtain ⟨ρ, hρ, hfault⟩ := List.exists_of_findSome?_eq_some h
  rw [record, (Engine.runRound_eq config t.past t.horizon.current t.engine).2.1] at hρ
  obtain ⟨w, hw, rfl⟩ := List.mem_map.1 hρ
  rw [fault_part hc hw, Option.map_eq_some_iff] at hfault
  obtain ⟨f, hf, rfl⟩ := hfault
  obtain ⟨v, hv, hfailure⟩ := List.exists_of_findSome?_eq_some hf
  exact ⟨w, hw, v, hv, f, hfailure, rfl⟩

/-- A round in which no call fails has no fault. -/
lemma Stage.fault_eq_none {config : RunConfig} {t : Stage U P} (hc : t.engine.Coherent t.past)
    (h : ∀ v ∈ t.visits config, (v.handled t.setting).failure = none) : (t.record config).fault = none := by
  by_contra hne
  obtain ⟨e, he⟩ := Option.ne_none_iff_exists'.1 hne
  obtain ⟨w, hw, v, hv, f, hfailure, -⟩ := exists_of_fault hc he
  have hnone : Worker.failure t.setting.worker v.message (v.slot.call t.setting v.message) = none :=
    h v (List.mem_flatMap.2 ⟨w, hw, hv⟩)
  cases (Worker.succeeds_of_succeeds hnone w.id).symm.trans hfailure

/-- The error of a round is an error of a run. -/
lemma Stage.endsRun_of_fault {config : RunConfig} {t : Stage U P} (hc : t.engine.Coherent t.past) {e : RunError}
    (h : (t.record config).fault = some e) : e.endsRun = true := by
  obtain ⟨w, _, v, _, f, hfailure, rfl⟩ := exists_of_fault hc h
  exact Worker.endsRun_of_failure hfailure

/-- What a unit complains about when it starts is reported as that. -/
lemma Scheduler.exists_of_startUp {s : Scheduler U P} {started : List (StartUp U P)} {e : RunError}
    (h : s.startUp = .ok started) (hfault : started.findSome? (·.fault) = some e) :
    ∃ id err, e = .startUp id err := by
  obtain ⟨u, hu, he⟩ := List.exists_of_findSome?_eq_some hfault
  have hmem := List.mem_map_of_mem (f := Except.ok (ε := Crash)) hu
  rw [← mapM_eq_ok_iff.1 h] at hmem
  obtain ⟨xs, _, hxs⟩ := List.mem_map.1 hmem
  rcases StartUp.ofSlots_cases hxs with ⟨_, rfl⟩ | ⟨_, x, _, err, _, _, _, _, rfl⟩
  · cases he
  · exact ⟨x.id, err, (Option.some.inj he).symm⟩

namespace Scheduler

variable {s s' : Scheduler U P} {o : RunOutcome}

/-- A run that has begun ends with an error of a run, if it ends with an error. -/
theorem Exit.endsRun {e : RunError} (hs : s.Sound) (h : s.Exit s' (.failed e)) : e.endsRun = true := by
  cases h with
  | stalled hdelta hstalled => rfl
  | unready hdelta hmoves hstart hfault =>
    obtain ⟨id, err, rfl⟩ := exists_of_startUp hstart hfault
    rfl
  | @failed ts t e h hlast =>
    have hc := hs.coherent_of_stages_eq h
    unfold Stage.outcome at hlast
    split at hlast
    · rename_i e' hverdict
      cases hlast
      exact Stage.endsRun_of_fault hc (RoundRecord.verdict_eq_fault_iff.1 hverdict)
    · cases hlast
    · cases hlast
      rfl

/-- **No run fails because a unit is not there**, whether a seed is for it or any other message. -/
theorem Sound.outcome_ne_unknownUnit (hs : s.Sound) (u : UnitId) : s.outcome ≠ .failed (.unknownUnit u) := by
  intro h
  have hexit := hs.exit Engine.keepRecords #[]
  rw [show (s.run Engine.keepRecords #[]).2.2 = .failed (.unknownUnit u) from h] at hexit
  exact Bool.false_ne_true (hexit.endsRun hs)

end Scheduler

end EventSim
