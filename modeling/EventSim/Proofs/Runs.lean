import EventSim.Proofs.FirstEngine

set_option autoImplicit false

/-!
# The stages of the run of a scheduler

What holds before the first round and is kept from stage to stage holds at all stages of a run. So the engine
is coherent throughout, and whatever has been scheduled so far has an identity of its own.

## Main definitions

* `EventSim.Scheduler.stages` — the stages of the run.
* `EventSim.Scheduler.posted` — the messages that have been scheduled so far, seeds included.
* `EventSim.Scheduler.envelopes` — the same with the cancellations.

## Main results

* `EventSim.Scheduler.stages_induction`, `EventSim.Scheduler.Sound.engine_induction` — induction along the stages of a run.
* `EventSim.Scheduler.Sound.coherent_of_stages_eq` — the engine is coherent at every stage.
* `EventSim.Scheduler.Sound.numbered_of_stages_eq` — all messages so far are numbered through.
-/

namespace EventSim

namespace Scheduler

variable {U P : Type} [Payload P] [SimUnit U P] {s : Scheduler U P} {t : Stage U P}
  {ts rest : List (Stage U P)}

/-- The stages of the run. -/
def stages (s : Scheduler U P) : List (Stage U P) := s.firstStage?.elim [] (·.stages s.config)

/-- The messages that have been scheduled when some stages are over: the seeds, those that were sent by
starting units, and those of the rounds. -/
def posted (s : Scheduler U P) (ts : List (Stage U P)) : List (Message P) :=
  Envelope.messages s.opening ++ ts.flatMap fun t => (t.record s.config).accepted

lemma posted_append (ts us : List (Stage U P)) :
    s.posted (ts ++ us) = s.posted ts ++ us.flatMap fun t => (t.record s.config).accepted := by
  rw [posted, posted, List.flatMap_append, List.append_assoc]

/-- Whatever has been sent when some stages are over, cancellations included. -/
def envelopes (s : Scheduler U P) (ts : List (Stage U P)) : List (Envelope P) :=
  s.opening ++ ts.flatMap fun t => (t.record s.config).sent

/-- The messages among what has been sent are those that have been scheduled. -/
lemma mem_posted {m : Message P} : m ∈ s.posted ts ↔ .deliver m ∈ s.envelopes ts := by
  simp only [posted, envelopes, RoundRecord.accepted, List.mem_append, List.mem_flatMap,
    Envelope.mem_messages]

/-- The history of a run consists of the records of its stages. -/
lemma history_eq_map (s : Scheduler U P) : s.history = s.stages.map (·.record s.config) := history_eq s

/-- The records of a run split where its stages do. -/
lemma history_eq_of_stages_eq (h : s.stages = ts ++ t :: rest) : s.history =
    ts.map (·.record s.config) ++ t.record s.config :: rest.map (·.record s.config) := by
  rw [history_eq_map, h, List.map_append, List.map_cons]

/-- The stages of a run split where its records do. -/
lemma exists_stages_of_history_eq {as bs : List (RoundRecord P)} {r : RoundRecord P}
    (h : s.history = as ++ r :: bs) : ∃ ts t rest, s.stages = ts ++ t :: rest ∧
      as = ts.map (·.record s.config) ∧ r = t.record s.config ∧ bs = rest.map (·.record s.config) := by
  rw [history_eq_map, List.map_eq_append_iff] at h
  obtain ⟨ts, us, hstages, has, hus⟩ := h
  obtain ⟨t, rest, rfl, hr, hbs⟩ := List.map_eq_cons_iff.1 hus
  exact ⟨ts, t, rest, hstages, has.symm, hr.symm, hbs.symm⟩

/-- A run that has a stage comes to a first round. -/
lemma firstStage?_of_stages_eq (h : s.stages = ts ++ t :: rest) :
    ∃ t₀, s.firstStage? = some t₀ ∧ t₀.stages s.config = ts ++ t :: rest := by
  cases hfirst : s.firstStage? with
  | none => simp [stages, hfirst] at h
  | some t₀ => exact ⟨t₀, rfl, by simpa [stages, hfirst] using h⟩

/-- A run that comes to a first round has no stage before it. -/
lemma stages_eq_cons (h : s.firstStage? = some t) : s.stages = [] ++ t :: (t.stages s.config).tail := by
  rw [stages, h, Option.elim_some, List.nil_append]
  exact List.eq_cons_of_mem_head? (Stage.head?_stages s.config t)

/-- Every stage of a run is followed by the next one. -/
lemma next?_eq_head? (h : s.stages = ts ++ t :: rest) : t.next? s.config = rest.head? := by
  obtain ⟨t₀, _, h₀⟩ := firstStage?_of_stages_eq h
  exact Stage.next?_of_stages_eq h₀

/-- The stages of a run count its rounds. -/
lemma past_eq_length (h : s.stages = ts ++ t :: rest) : t.past = ts.length := by
  obtain ⟨t₀, hfirst, h₀⟩ := firstStage?_of_stages_eq h
  obtain ⟨_, _, _, _, _, _, _, _, rfl⟩ := firstStage?_eq_some.1 hfirst
  rw [Stage.past_of_stages_eq h₀, Nat.zero_add]

/-- A run has no stages just because it does not come to a first round, or it has a last one. -/
lemma stages_eq_nil_or_append (s : Scheduler U P) :
    (s.stages = [] ∧ s.firstStage? = none) ∨ ∃ ts t, s.stages = ts ++ [t] := by
  cases hfirst : s.firstStage? with
  | none => exact Or.inl ⟨by rw [stages, hfirst, Option.elim_none], rfl⟩
  | some t₀ =>
    obtain ⟨ts, t, hlast, _⟩ := Stage.exists_last s.config t₀
    exact Or.inr ⟨ts, t, by rw [stages, hfirst, Option.elim_some, hlast]⟩

/-- The run ends with or without error, as its last stage says. -/
lemma outcome_cases (h : s.stages = ts ++ [t]) :
    (∃ e, t.outcome s.config = .error e ∧ s.outcome = .failed e) ∨
      ∃ p stats, t.outcome s.config = .ok p ∧ s.outcome = .finished stats := by
  obtain ⟨t₀, hfirst, h₀⟩ := firstStage?_of_stages_eq h
  rw [outcome, run_of_some _ _ hfirst h₀]
  cases t.outcome s.config with
  | error e => exact Or.inl ⟨e, rfl, rfl⟩
  | ok p => exact Or.inr ⟨p, _, rfl, rfl⟩

/-- The figures of a finished run are those after its last stage. -/
lemma of_outcome_finished (h : s.stages = ts ++ [t]) {stats : RunStats} (hstats : s.outcome = .finished stats) :
    ∃ t₀ p, s.firstStage? = some t₀ ∧ t₀.stages s.config = ts ++ [t] ∧ t.outcome s.config = .ok p ∧
      stats = statsOf t₀.horizon.delta (t₀.engine.postbox.pendingDeliveries 0) (t.after s.config) p := by
  obtain ⟨t₀, hfirst, h₀⟩ := firstStage?_of_stages_eq h
  rw [outcome, run_of_some _ _ hfirst h₀] at hstats
  cases hout : t.outcome s.config with
  | error e =>
    rw [hout] at hstats
    cases hstats
  | ok p =>
    rw [hout] at hstats
    exact ⟨t₀, p, hfirst, h₀, rfl, (RunOutcome.finished.inj hstats).symm⟩

/-- **Induction along the stages of a run.** What holds of the first stage and is kept from each stage to the
next holds of every stage and those before it. -/
theorem stages_induction {motive : List (Stage U P) → Stage U P → Prop}
    (first : ∀ t, s.firstStage? = some t → motive [] t)
    (next : ∀ ts t t' rest, s.stages = ts ++ t :: t' :: rest → t.next? s.config = some t' →
      motive ts t → motive (ts ++ [t]) t')
    (h : s.stages = ts ++ t :: rest) : motive ts t := by
  induction ts using List.reverseRecOn generalizing t rest with
  | nil =>
    obtain ⟨t₀, ht₀, _⟩ := firstStage?_of_stages_eq h
    obtain ⟨rfl, _⟩ := List.cons.inj ((stages_eq_cons ht₀).symm.trans h)
    exact first _ ht₀
  | append_singleton ts p ih =>
    rw [List.append_assoc, List.singleton_append] at h
    exact next ts p t rest h (next?_eq_head? h) (ih h)

namespace Sound

/-- **Induction along the rounds of a run.** What holds of the engine before the first round and is kept by every round
without fault holds of the engine at every stage. -/
theorem engine_induction (hs : s.Sound) {motive : List (Stage U P) → Nat → Engine U P → Prop}
    (first : motive [] 0 s.firstEngine)
    (round : ∀ ts t rest, s.stages = ts ++ t :: rest → (t.record s.config).fault = none →
      motive ts t.past t.engine → motive (ts ++ [t]) (t.past + 1) (t.after s.config))
    (h : s.stages = ts ++ t :: rest) : motive ts t.past t.engine := by
  refine stages_induction (motive := fun ts t => motive ts t.past t.engine) (fun t ht => ?_)
    (fun ts t t' rest hstages hnext ih => ?_) h
  · obtain ⟨delta, _, _, _, rfl⟩ := hs.firstStage?_eq_some_iff.1 ht
    exact first
  · obtain ⟨_, _, hpast, hengine⟩ := Stage.next?_eq_some_iff.1 hnext
    rw [hpast, hengine]
    exact round ts t (t' :: rest) hstages (Stage.of_next? hnext).1 ih

/-- The routing table stays what it was before the first round. -/
lemma table_of_stages_eq (hs : s.Sound) (h : s.stages = ts ++ t :: rest) :
    t.engine.postbox.table = s.table := by
  refine hs.engine_induction (motive := fun _ _ e => e.postbox.table = s.table) hs.table_firstEngine
    (fun ts t rest _ _ ih => ?_) h
  rw [Stage.after, Engine.table_runRound, ih]

/-- There are as many workers at every stage as there are in the setup. -/
lemma size_workers_of_stages_eq (hs : s.Sound) (h : s.stages = ts ++ t :: rest) :
    t.engine.workers.size = s.config.workers := by
  refine hs.engine_induction (motive := fun _ _ e => e.workers.size = s.config.workers) hs.size_workers_firstEngine
    (fun ts t rest _ _ ih => ?_) h
  rw [Stage.after, (Engine.runRound_eq ..).1, Array.size_map, ih]

/-- **The engine is coherent at every stage.** -/
theorem coherent_of_stages_eq (hs : s.Sound) (h : s.stages = ts ++ t :: rest) :
    t.engine.Coherent t.past := by
  refine hs.engine_induction (motive := fun _ past e => e.Coherent past) hs.coherent_firstEngine
    (fun ts t rest _ _ ih => ?_) h
  exact ih.runRound s.config t.horizon.current

/-- What is staged at a stage has been sent before. -/
lemma mem_envelopes_of_stages_eq (hs : s.Sound) (h : s.stages = ts ++ t :: rest) {y : Envelope P}
    (hy : y ∈ t.engine.postbox.envelopes t.past) : y ∈ s.envelopes ts := by
  refine hs.engine_induction (motive := fun ts past e => ∀ y ∈ e.postbox.envelopes past, y ∈ s.envelopes ts)
    (fun y hy => ?_) (fun ts t rest hstages _ _ y hy => ?_) h y hy
  · exact List.mem_append_left _ (hs.mem_envelopes_firstEngine.1 hy)
  · have hsent := (hs.coherent_of_stages_eq hstages).mem_envelopes_runRound.1 hy
    exact List.mem_append_right _ (List.mem_flatMap.2 ⟨t, by simp, hsent⟩)

/-- **All messages so far are numbered through** at every stage. -/
theorem numbered_of_stages_eq (hs : s.Sound) (h : s.stages = ts ++ t :: rest) :
    t.engine.Numbered (s.posted ts) := by
  refine hs.engine_induction (motive := fun ts _ e => e.Numbered (s.posted ts)) ?_
    (fun ts t rest hstages _ ih => ?_) h
  · rw [posted, List.flatMap_nil, List.append_nil]
    exact hs.numbered_firstEngine
  · rw [posted_append, List.flatMap_singleton]
    exact ih.runRound (hs.coherent_of_stages_eq hstages) s.config t.horizon.current

/-- **Whatever has been scheduled has an identity of its own.** -/
theorem nodup_posted (hs : s.Sound) {us : List (Stage U P)} (h : s.stages = ts ++ us) :
    ((s.posted ts).map (·.id)).Nodup := by
  rcases List.eq_nil_or_concat ts with rfl | ⟨ts, t, rfl⟩
  · rw [posted, List.flatMap_nil, List.append_nil]
    exact hs.numbered_firstEngine.nodup
  · rw [List.concat_eq_append, List.append_assoc, List.singleton_append] at h
    have hnumbered := (hs.numbered_of_stages_eq h).runRound (hs.coherent_of_stages_eq h) s.config
      t.horizon.current
    rw [List.concat_eq_append, posted_append, List.flatMap_singleton]
    exact hnumbered.nodup

end Sound

end Scheduler

end EventSim
