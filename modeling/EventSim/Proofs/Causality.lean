import EventSim.Proofs.Runs

set_option autoImplicit false

/-!
# Causality

A round delivers up to its horizon, and what is scheduled in it is not due before its horizon. So messages
are handed over window by window: what is handed over in a round is due after the horizon of the round
before, or just at it if it was scheduled in that very round. This needs neither honest lookaheads nor an
exact addition of times, because every single request is checked against the horizon, and a horizon that
does not move ends the run.

## Main definitions

* `EventSim.RunConfig.Causal` — a history in which windows follow each other.

## Main results

* `EventSim.Scheduler.IsSetUp.causal_history` — the history of every run is causal.
-/

namespace EventSim

variable {U P : Type}

/-! ### Internal helper: pairs in a list -/

/-- What holds of each element and every later one holds of all pairs. -/
lemma pairwise_of_append {α : Type} {r : α → α → Prop} {xs : List α}
    (h : ∀ as a bs, xs = as ++ a :: bs → ∀ b ∈ bs, r a b) : xs.Pairwise r := by
  induction xs with
  | nil => exact List.Pairwise.nil
  | cons x xs ih =>
    exact List.pairwise_cons.2 ⟨h [] x xs rfl, ih fun as a bs heq => h (x :: as) a bs (by rw [heq]; rfl)⟩

/-! ## Histories -/

/-- A history in which every message is handed over in its window. -/
structure RunConfig.Causal (config : RunConfig) (rs : List (RoundRecord P)) : Prop where
  /-- Horizons increase strictly. -/
  increasing : rs.Pairwise (·.horizon < ·.horizon)
  /-- All horizons are later than the start. -/
  start_lt : ∀ r ∈ rs, config.startTime < r.horizon
  /-- What is handed over is due by the horizon, and by the end. -/
  le_horizon : ∀ r ∈ rs, ∀ h ∈ r.handled,
    h.message.time ≤ r.horizon ∧ ∀ finish ∈ config.endTime, h.message.time ≤ finish
  /-- Nothing that is handed over in the first round is due before the start. -/
  start_le : ∀ r ∈ rs.head?, ∀ h ∈ r.handled, config.startTime ≤ h.message.time
  /-- What is handed over in a later round is due after the horizon of the round before, or it was
  scheduled in that round and is not due before its horizon. -/
  horizon_lt : ∀ as p r bs, rs = as ++ p :: r :: bs → ∀ h ∈ r.handled,
    p.horizon < h.message.time ∨ p.horizon ≤ h.message.time ∧ h.message ∈ p.accepted
  /-- What is scheduled in a round is not due in a window that has been drained. -/
  horizon_le_accepted : ∀ r ∈ rs, ∀ m ∈ r.accepted, r.horizon ≤ m.time
  /-- What is handed over is not due in any window that has been drained. -/
  horizon_le_handled : ∀ as p bs, rs = as ++ p :: bs → ∀ r ∈ bs, ∀ h ∈ r.handled,
    p.horizon ≤ h.message.time

variable [Payload P] [SimUnit U P]

/-! ## Windows -/

namespace Engine

variable {e : Engine U P} {round : Nat} {config : RunConfig} {horizon : SimTime} {m : Message P}

/-- What is handed over in a round is due in it. -/
lemma mem_due_of_handled {h : Handled P}
    (hh : h ∈ (e.runRound config (round + 1) horizon).2.handled) :
    h.message ∈ e.due config horizon round :=
  (sublist_messages_runRound config round horizon e).subset (List.mem_map_of_mem hh)

/-- What still waits after a round was not due in it. -/
lemma lt_of_mem_waiting_runRound (hm : m ∈ (e.runRound config (round + 1) horizon).1.waiting) :
    config.deliveryLimit horizon < m.time := by
  obtain ⟨w', hw', hm⟩ := List.mem_flatMap.1 hm
  rw [(runRound_eq config round horizon e).1, Array.toList_map] at hw'
  obtain ⟨w, _, rfl⟩ := List.mem_map.1 hw'
  rw [part, (Worker.runRound_frame ..).2.1, MessageQueue.mem_popUpTo.2] at hm
  exact not_le.1 hm.2

end Engine

namespace Stage

variable {config : RunConfig} {t t' : Stage U P} {h : Handled P}

/-- What is handed over in the round of a stage waited or was staged, and is due. -/
lemma of_handled (hc : t.engine.Coherent t.past) (hh : h ∈ (t.record config).handled) :
    (h.message ∈ t.engine.waiting ∨ h.message ∈ t.engine.postbox.messages t.past) ∧
      h.message.time ≤ t.horizon.current ∧ ∀ finish ∈ config.endTime, h.message.time ≤ finish := by
  obtain ⟨hmem, hle⟩ := hc.of_mem_due (Engine.mem_due_of_handled hh)
  exact ⟨hmem, RunConfig.le_deliveryLimit_iff.1 hle⟩

/-- What waits when the run goes on is due after the horizon that has passed. -/
lemma lt_of_mem_waiting (hnext : t.next? config = some t') {m : Message P}
    (hm : m ∈ t'.engine.waiting) : t.horizon.current < m.time := by
  rw [(next?_eq_some_iff.1 hnext).2.2.2] at hm
  have hlt := Engine.lt_of_mem_waiting_runRound hm
  rwa [RunConfig.deliveryLimit_eq_of_reachedEnd_eq_false (of_next? hnext).2.2] at hlt

/-- What is staged when the run goes on was scheduled in the round that has passed. -/
lemma mem_accepted_of_staged (hc : t.engine.Coherent t.past) (hnext : t.next? config = some t')
    {m : Message P} (hm : m ∈ t'.engine.postbox.messages t'.past) :
    m ∈ (t.record config).accepted := by
  obtain ⟨_, _, hpast, hengine⟩ := next?_eq_some_iff.1 hnext
  rw [hpast, hengine] at hm
  exact (hc.perm_messages_runRound config t.horizon.current).subset hm

/-- **The windows of two stages follow each other.** -/
lemma horizon_lt_of_handled (hc : t.engine.Coherent t.past) (hc' : t'.engine.Coherent t'.past)
    (hnext : t.next? config = some t') (hh : h ∈ (t'.record config).handled) :
    t.horizon.current < h.message.time ∨
      t.horizon.current ≤ h.message.time ∧ h.message ∈ (t.record config).accepted := by
  rcases (of_handled hc' hh).1 with hm | hm
  · exact Or.inl (lt_of_mem_waiting hnext hm)
  · have haccepted := mem_accepted_of_staged hc hnext hm
    exact Or.inr ⟨(Engine.sent_runRound config t.past t.horizon.current t.engine).1 _ haccepted, haccepted⟩

end Stage

/-! ## The history of a run -/

namespace Scheduler

variable {s : Scheduler U P} {t t' : Stage U P} {ts rest : List (Stage U P)}

/-- The stages of a run have increasing horizons. -/
lemma pairwise_horizon (s : Scheduler U P) :
    s.stages.Pairwise (·.horizon.current < ·.horizon.current) := by
  rw [stages]
  cases s.firstStage? with
  | none => exact List.Pairwise.nil
  | some t => exact (Stage.pairwise_horizon_stages s.config t).1

/-- All stages of a run have horizons later than the start. -/
lemma Sound.start_lt_horizon (hs : s.Sound) (ht : t ∈ s.stages) :
    s.config.startTime < t.horizon.current := by
  cases hfirst : s.firstStage? with
  | none => simp [stages, hfirst] at ht
  | some t₀ =>
    obtain ⟨delta, _, hlt, _, ht₀⟩ := hs.firstStage?_eq_some_iff.1 hfirst
    rw [stages, hfirst, Option.elim_some] at ht
    have hle := (Stage.pairwise_horizon_stages s.config t₀).2 t ht
    rw [ht₀] at hle
    exact lt_of_lt_of_le hlt hle

/-- Nothing that is staged before the first round is due before the start. -/
lemma Sound.start_le_of_opening (hs : s.Sound) {m : Message P} (hm : m ∈ Envelope.messages s.opening) :
    s.config.startTime ≤ m.time := by
  rw [opening, Envelope.messages_append, Envelope.messages_map_deliver, Envelope.messages_flatMap] at hm
  rcases List.mem_append.1 hm with hm | hm
  · exact hs.seed_time m hm
  · obtain ⟨x, _, hm⟩ := List.mem_flatMap.1 hm
    exact (Slot.startCall_sends s.table s.config.startTime x).horizon_le m hm

/-- Nothing that is handed over in the first round is due before the start. -/
lemma Sound.start_le_of_handled (hs : s.Sound) (hfirst : s.firstStage? = some t) {h : Handled P}
    (hh : h ∈ (t.record s.config).handled) : s.config.startTime ≤ h.message.time := by
  obtain ⟨delta, _, _, _, rfl⟩ := hs.firstStage?_eq_some_iff.1 hfirst
  rcases (Stage.of_handled hs.coherent_firstEngine hh).1 with hm | hm
  · rw [waiting_firstEngine] at hm
    cases hm
  · exact hs.start_le_of_opening (hs.perm_messages_firstEngine.subset hm)

/-- The windows of two rounds of a run follow each other. -/
lemma Sound.horizon_lt_of_history_eq (hs : s.Sound) {as bs : List (RoundRecord P)}
    {p r : RoundRecord P} (heq : s.history = as ++ p :: r :: bs) {h : Handled P} (hh : h ∈ r.handled) :
    p.horizon < h.message.time ∨ p.horizon ≤ h.message.time ∧ h.message ∈ p.accepted := by
  obtain ⟨ts, t, us, hstages, _, rfl, hus⟩ := exists_stages_of_history_eq heq
  obtain ⟨t', rest, rfl, rfl, _⟩ := List.map_eq_cons_iff.1 hus.symm
  have hnext : t.next? s.config = some t' := next?_eq_head? hstages
  have hstages' : s.stages = (ts ++ [t]) ++ t' :: rest := hstages.trans (List.append_cons ..)
  exact Stage.horizon_lt_of_handled (hs.coherent_of_stages_eq hstages)
    (hs.coherent_of_stages_eq hstages') hnext hh

/-- The records of a run have increasing horizons. -/
lemma pairwise_horizon_history (s : Scheduler U P) : s.history.Pairwise (·.horizon < ·.horizon) := by
  rw [history_eq_map]
  exact List.pairwise_map.2 (pairwise_horizon s)

/-- What is handed over in a later round than the given one is due after its horizon, unless it was scheduled
in that very round and is handed over in the next one. -/
lemma Sound.horizon_lt_or_next (hs : s.Sound) {as bs : List (RoundRecord P)} {p r : RoundRecord P}
    (heq : s.history = as ++ p :: bs) (hr : r ∈ bs) {h : Handled P} (hh : h ∈ r.handled) :
    p.horizon < h.message.time ∨
      p.horizon ≤ h.message.time ∧ h.message ∈ p.accepted ∧ bs.head? = some r := by
  -- the round just before `r` is that of `p` or a later one
  obtain ⟨us, vs, rfl⟩ := List.append_of_mem hr
  rcases List.eq_nil_or_concat us with rfl | ⟨us, q, rfl⟩
  · rcases hs.horizon_lt_of_history_eq heq hh with hlt | hle
    · exact Or.inl hlt
    · exact Or.inr ⟨hle.1, hle.2, rfl⟩
  · have hq : s.history = (as ++ p :: us) ++ q :: r :: vs := by rw [heq]; simp
    have hpq : p.horizon < q.horizon := by
      have hincreasing := pairwise_horizon_history s
      rw [hq] at hincreasing
      exact (List.pairwise_append.1 hincreasing).2.2 p (by simp) q (by simp)
    rcases hs.horizon_lt_of_history_eq hq hh with hlt | hle
    · exact Or.inl (lt_trans hpq hlt)
    · exact Or.inl (lt_of_lt_of_le hpq hle.1)

/-- Nothing that is handed over is due before the horizon of any earlier round. -/
lemma Sound.horizon_le_of_history_eq (hs : s.Sound) {as bs : List (RoundRecord P)} {p r : RoundRecord P}
    (heq : s.history = as ++ p :: bs) (hr : r ∈ bs) {h : Handled P} (hh : h ∈ r.handled) :
    p.horizon ≤ h.message.time := by
  rcases hs.horizon_lt_or_next heq hr hh with hlt | hnext
  · exact le_of_lt hlt
  · exact hnext.1

/-- **Causality.** The history of every run is causal, whatever the units do.

**Proof sketch.** What waits after a round is later than its horizon, and what is staged was scheduled in it
and so is not earlier. A round hands over what waits and what is staged. -/
theorem IsSetUp.causal_history (hs : s.IsSetUp) : s.config.Causal s.history := by
  have hsound := hs.sound
  have hrecord : ∀ r ∈ s.history, ∃ ts t rest, s.stages = ts ++ t :: rest ∧ r = t.record s.config := by
    intro r hr
    rw [history_eq_map] at hr
    obtain ⟨t, ht, rfl⟩ := List.mem_map.1 hr
    obtain ⟨ts, rest, hstages⟩ := List.append_of_mem ht
    exact ⟨ts, t, rest, hstages, rfl⟩
  refine ⟨pairwise_horizon_history s, fun r hr => ?_, fun r hr h hh => ?_, fun r hr h hh => ?_,
    fun as p r bs heq h hh => hsound.horizon_lt_of_history_eq heq hh, fun r hr m hm => ?_,
    fun as p bs heq r hr h hh => ?_⟩
  · obtain ⟨ts, t, rest, hstages, rfl⟩ := hrecord r hr
    exact hsound.start_lt_horizon (hstages ▸ List.mem_append_right ts List.mem_cons_self)
  · obtain ⟨ts, t, rest, hstages, rfl⟩ := hrecord r hr
    exact (Stage.of_handled (hsound.coherent_of_stages_eq hstages) hh).2
  · rw [history_eq_map, List.head?_map] at hr
    obtain ⟨t, ht, rfl⟩ := Option.map_eq_some_iff.1 hr
    cases hfirst : s.firstStage? with
    | none => simp [stages, hfirst] at ht
    | some t₀ =>
      rw [stages_eq_cons hfirst] at ht
      cases ht
      exact hsound.start_le_of_handled hfirst hh
  · obtain ⟨ts, t, rest, _, rfl⟩ := hrecord r hr
    exact (Engine.sent_runRound s.config t.past t.horizon.current t.engine).1 m hm
  · exact hsound.horizon_le_of_history_eq heq hr hh

/-- Two units at two workers go through five rounds. -/
theorem causal_history_correspondents :
    correspondents.IsSetUp ∧ correspondents.history.length = 5 ∧
      correspondents.config.Causal correspondents.history :=
  ⟨isSetUp_correspondents, by decide +kernel, isSetUp_correspondents.causal_history⟩

end Scheduler

end EventSim
