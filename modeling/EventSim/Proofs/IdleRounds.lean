import EventSim.Proofs.HorizonStep
import EventSim.Proofs.Leftovers

set_option autoImplicit false

/-!
# Runs that skip idle rounds

If idle rounds are skipped, the horizon of the next round lies at least one step after the earliest message
that is to come. A step leads no finite time back, so that message is due in the next round, or is withdrawn
in it, unless it lies beyond the end. Then the horizon does so too, and the round is the last one.

## Main definitions

* `EventSim.RoundRecord.Idle` — a round in which nothing is handed over or withdrawn.
* `EventSim.Scheduler.hastyCorrespondents` — correspondents who skip idle rounds.

## Main results

* `EventSim.Scheduler.IsSetUp.exists_le_horizon` — something is to come by the next horizon.
* `EventSim.Scheduler.IsSetUp.not_idle_of_skips` — only the first round may be idle, and the last one before an
  end.
* `EventSim.Scheduler.length_le_of_not_idle` — what rounds that are not idle come to.
* `EventSim.Scheduler.IsSetUp.wastes_no_rounds` — a run has few more rounds than messages.
-/

namespace EventSim

/-- A step that leads from one finite time to a later one leads none back. -/
lemma SimTime.le_add_of_lt {start e delta : SimTime} (hstart : start.isFinite = true) (he : e.isFinite = true)
    (h : start < start + delta) : e ≤ e + delta := by
  rw [SimTime.le_iff_ordinal]
  rw [SimTime.lt_iff_ordinal] at h
  exact Binary64.ordinal_le_add_of_lt hstart he h

namespace RoundRecord

variable {P : Type}

/-- Nothing is handed over in the round, and no withdrawal removes anything. -/
def Idle (r : RoundRecord P) : Prop := r.summary.delivered = 0 ∧ r.removed = 0

instance (r : RoundRecord P) : Decidable r.Idle := inferInstanceAs (Decidable (_ ∧ _))

/-- If idle rounds are skipped, the horizon jumps to the earliest message that is to come. -/
lemma eq_advanceTo_of_verdict {config : RunConfig} {horizon next : Horizon} {r : RoundRecord P} {e : SimTime}
    (hskip : config.skipIdleRounds = true) (he : r.earliest = some e)
    (h : r.verdict config horizon = .next next) : next = horizon.advanceTo e := by
  unfold verdict at h
  rw [he, if_pos hskip] at h
  split at h
  · cases h
  split at h
  · cases h
  split at h
  · cases h
  · exact (Verdict.next.inj h).symm

end RoundRecord

namespace Scheduler

variable {U P : Type} [Payload P] [SimUnit U P] {s : Scheduler U P} {t t' : Stage U P}
  {ts rest : List (Stage U P)} {m : Message P} {stats : RunStats}

/-! ## One round and the next -/

/-- A step of the horizon leads no finite time back. -/
lemma Sound.le_add_delta (hs : s.Sound) (hstart : s.config.startTime.isFinite = true)
    (h : s.stages = ts ++ t :: rest) {e : SimTime} (he : e.isFinite = true) : e ≤ e + t.horizon.delta := by
  obtain ⟨t₀, hfirst, _⟩ := firstStage?_of_stages_eq h
  obtain ⟨delta, hdelta, hmoves, _⟩ := hs.firstStage?_eq_some_iff.1 hfirst
  obtain rfl := Option.some.inj (hdelta.symm.trans (hs.paced_of_stages_eq h).2)
  exact SimTime.le_add_of_lt hstart he hmoves

/-- **Something is to come by the next horizon**, if idle rounds are skipped. -/
theorem IsSetUp.exists_le_horizon (hs : s.IsSetUp) (hskip : s.config.skipIdleRounds = true)
    (h : s.stages = ts ++ t :: t' :: rest) : ∃ m ∈ t'.pending, m.time ≤ t'.horizon.current := by
  have hnext : t.next? s.config = some t' := next?_eq_head? h
  obtain ⟨hf, hpending, _⟩ := Stage.of_next? hnext
  obtain ⟨hverdict, _⟩ := Stage.next?_eq_some_iff.1 hnext
  have hearliest : (t.record s.config).earliest = SimTime.earliest? (t'.pending.map (·.time)) := by
    rw [Stage.pending_of_next? hnext]
    exact (Engine.summary_of_success hf).2.2
  rw [Stage.pending_summary hf, ← Stage.pending_of_next? hnext, ne_eq, List.length_eq_zero_iff] at hpending
  obtain ⟨e, he⟩ : ∃ e, SimTime.earliest? (t'.pending.map (·.time)) = some e := by
    cases hlist : t'.pending with
    | nil => exact absurd hlist hpending
    | cons m ms => exact ⟨_, rfl⟩
  obtain ⟨m, hm, rfl⟩ := List.mem_map.1 (SimTime.earliest?_eq_some_iff.1 he).1
  have hjump := RoundRecord.eq_advanceTo_of_verdict hskip (hearliest.trans he) hverdict
  have hafter : s.stages = (ts ++ [t]) ++ t' :: rest := by rw [h, List.append_assoc, List.singleton_append]
  have hfinite := hs.isFinite_of_mem_posted hafter (hs.sound.mem_posted_of_mem_pending hafter hm)
  have hstep : m.time ≤ m.time + t.horizon.delta := hs.sound.le_add_delta hs.isFinite_times.1 h hfinite
  refine ⟨m, hm, ?_⟩
  rw [hjump]
  exact le_trans hstep (le_max_right _ _)

/-- A round in which something is due is not idle. -/
lemma Sound.not_idle_of_mem_pending (hs : s.Sound) (h : s.stages = ts ++ t :: rest)
    (hf : (t.record s.config).fault = none) (hm : m ∈ t.pending)
    (hle : m.time ≤ s.config.deliveryLimit t.horizon.current) : ¬ (t.record s.config).Idle := by
  rintro ⟨hdelivered, hremoved⟩
  have hperm := (hs.coherent_of_stages_eq h).perm_runRound s.config t.horizon.current (hs.nodup_pending h)
  rw [Stage.record, (Engine.summary_of_success hf).1, List.length_eq_zero_iff] at hdelivered
  rw [Stage.record, (Engine.counts_runRound s.config t.past t.horizon.current t.engine).1,
    List.length_eq_zero_iff] at hremoved
  have hwaiting : m ∈ (t.after s.config).waiting := by
    have hmem := hperm.subset hm
    rwa [hdelivered, hremoved] at hmem
  exact not_lt.2 hle (Engine.lt_of_mem_waiting_runRound hwaiting)

/-- **Only the first round may be idle, and the last one before an end.**

**Proof sketch.** A round after the first begins with something to come by its horizon. If that lies within the
limit, it is handed over or withdrawn. If not, the end lies before the horizon, and no further round follows. -/
theorem IsSetUp.not_idle_of_skips (hs : s.IsSetUp) (hskip : s.config.skipIdleRounds = true)
    (hstats : s.outcome = .finished stats) (h : s.stages = ts ++ t :: rest) (hts : ts ≠ [])
    (hrest : rest ≠ [] ∨ s.config.endTime = none) : ¬ (t.record s.config).Idle := by
  have hf : (t.record s.config).fault = none :=
    fault_eq_none_of_finished hstats t (h ▸ List.mem_append_right ts List.mem_cons_self)
  obtain ⟨before, previous, rfl⟩ := List.eq_nil_or_concat' ts |>.resolve_left hts
  have hprevious : s.stages = before ++ previous :: t :: rest := by
    rw [h, List.append_assoc, List.singleton_append]
  obtain ⟨m, hm, hle⟩ := hs.exists_le_horizon hskip hprevious
  have hend : s.config.reachedEnd t.horizon.current = false := by
    rcases hrest with hrest | hnone
    · obtain ⟨next, rest, rfl⟩ := List.exists_cons_of_ne_nil hrest
      exact (Stage.of_next? (next?_eq_head? h)).2.2
    · rw [RunConfig.reachedEnd, hnone]
  refine hs.sound.not_idle_of_mem_pending h hf hm ?_
  rwa [RunConfig.deliveryLimit_eq_of_reachedEnd_eq_false hend]

/-! ## The number of rounds -/

/-- There are no more rounds that are not idle than messages handed over and withdrawn in them. -/
lemma length_le_of_not_idle (h : ∀ t ∈ ts, ¬ (t.record s.config).Idle) :
    ts.length ≤ (ts.map fun t => (t.record s.config).summary.delivered).sum +
      (ts.map fun t => (t.record s.config).removed).sum := by
  induction ts with
  | nil => exact Nat.zero_le _
  | cons t ts ih =>
    have hbusy : ¬ ((t.record s.config).summary.delivered = 0 ∧ (t.record s.config).removed = 0) :=
      h t List.mem_cons_self
    have hrest := ih fun t' ht' => h t' (List.mem_cons_of_mem t ht')
    rw [List.length_cons, List.map_cons, List.map_cons, List.sum_cons, List.sum_cons]
    omega

/-- A run has at most one round more than messages handed over and withdrawn if it is not cut off, and two more
otherwise. -/
lemma IsSetUp.rounds_le_of_skips (hs : s.IsSetUp) (hskip : s.config.skipIdleRounds = true)
    (hstats : s.outcome = .finished stats) :
    stats.rounds ≤ stats.delivered + stats.cancelled + 2 ∧
      (s.config.endTime = none → stats.rounds ≤ stats.delivered + stats.cancelled + 1) := by
  rcases stages_eq_nil_or_append s with ⟨_, hfirst⟩ | ⟨ts, t, h⟩
  · rw [stats_eq_of_finished hstats hfirst]
    exact ⟨Nat.zero_le _, fun _ => Nat.zero_le _⟩
  obtain ⟨_, _, _, hfigures⟩ := hs.sound.stats_of_finished h hstats
  rw [hfigures]
  dsimp only
  cases ts with
  | nil => exact ⟨by simp, by simp⟩
  | cons t₀ ts =>
    -- neither the first round nor the last one
    have hmiddle : ∀ t' ∈ ts, ¬ (t'.record s.config).Idle := fun t' ht' => by
      obtain ⟨as, bs, rfl⟩ := List.append_of_mem ht'
      have hsplit : s.stages = (t₀ :: as) ++ t' :: (bs ++ [t]) := by rw [h]; simp
      exact hs.not_idle_of_skips hskip hstats hsplit (List.cons_ne_nil t₀ as) (Or.inl (by simp))
    have hcount := length_le_of_not_idle hmiddle
    have hlast : s.config.endTime = none → 0 < (t.record s.config).summary.delivered + (t.record s.config).removed :=
      fun hend => by
        have hbusy := hs.not_idle_of_skips hskip hstats h (List.cons_ne_nil t₀ ts) (Or.inr hend)
        rw [RoundRecord.Idle] at hbusy
        omega
    simp only [List.cons_append, List.length_cons, List.length_append, List.length_nil, List.map_cons,
      List.map_append, List.map_nil, List.sum_cons, List.sum_append, List.sum_nil]
    refine ⟨by omega, fun hend => ?_⟩
    have hlast := hlast hend
    omega

/-- **A run that skips idle rounds wastes none.** If it finishes, in every round but the first something is handed
over or withdrawn, and but the last if the run has an end time. So it has at most two rounds more than messages that
are handed over or withdrawn, and without an end time at most one.

**Proof sketch.** The horizon of a round after the first is at least one step after the earliest message that is to
come in it (`IsSetUp.exists_le_horizon`): the earliest of all that wait in the queues and all that are staged. The
step of a run leads no finite time back, since it leads the start on (`Binary64.ordinal_le_add_of_lt`). -/
theorem IsSetUp.wastes_no_rounds (hs : s.IsSetUp) (hskip : s.config.skipIdleRounds = true)
    (hstats : s.outcome = .finished stats) :
    (∀ before r after, s.history = before ++ r :: after → before ≠ [] →
      (after ≠ [] ∨ s.config.endTime = none) → 0 < r.summary.delivered ∨ 0 < r.removed) ∧
    stats.rounds = s.history.length ∧
    stats.rounds ≤ stats.delivered + stats.cancelled + 2 ∧
    (s.config.endTime = none → stats.rounds ≤ stats.delivered + stats.cancelled + 1) := by
  refine ⟨fun before r after h hbefore hafter => ?_, ?_, hs.rounds_le_of_skips hskip hstats⟩
  · rw [history_eq_map, List.map_eq_append_iff] at h
    obtain ⟨ts, us, h, rfl, hus⟩ := h
    obtain ⟨t, rest, rfl, rfl, rfl⟩ := List.map_eq_cons_iff.1 hus
    have hbusy := hs.not_idle_of_skips hskip hstats h (fun hnil => hbefore (by rw [hnil]; rfl))
      (hafter.imp_left fun hne hnil => hne (by rw [hnil]; rfl))
    rw [RoundRecord.Idle] at hbusy
    omega
  · rw [history_eq_map, List.length_map]
    rcases stages_eq_nil_or_append s with ⟨hnil, hfirst⟩ | ⟨ts, t, h⟩
    · rw [stats_eq_of_finished hstats hfirst, hnil]
      rfl
    · obtain ⟨_, _, _, hfigures⟩ := hs.sound.stats_of_finished h hstats
      rw [hfigures, h]

/-! ### Correspondents in haste -/

/-- Two correspondents at two workers who skip idle rounds, with the given end. -/
def hastyCorrespondents (finish : Option SimTime) : Scheduler RuleTable Mark :=
  pair { workers := 2, endTime := finish, skipIdleRounds := true } correspondent (Id.ofNat 0) (Id.ofNat 1)

/-- What they come to without an end. -/
lemma outcome_hastyCorrespondents : (hastyCorrespondents none).outcome = .finished {
    rounds := 4, horizonDelta := ⟨Binary64.ofNat 1⟩, finalHorizon := ⟨Binary64.ofNat 10⟩
    seeded := 5, delivered := 5, produced := 2, cancelled := 2, undelivered := 0
    workers := [⟨Id.ofNat 0, 3, 1, 1, 2, 2⟩, ⟨Id.ofNat 1, 2, 1, 1, 2, 2⟩] } := by
  decide +kernel

/-- What they come to in three seconds. -/
lemma outcome_hastyCorrespondents_three :
    (hastyCorrespondents (some ⟨Binary64.ofNat 3⟩)).outcome = .finished {
      rounds := 3, horizonDelta := ⟨Binary64.ofNat 1⟩, finalHorizon := ⟨Binary64.ofNat 5⟩
      seeded := 5, delivered := 3, produced := 2, cancelled := 0, undelivered := 4
      workers := [⟨Id.ofNat 0, 2, 1, 0, 1, 2⟩, ⟨Id.ofNat 1, 1, 1, 0, 1, 2⟩] } := by
  decide +kernel

/-- Without an end the last of four rounds only withdraws messages. With an end after three seconds the last of three
rounds is idle, as the first one is. -/
theorem wastes_no_rounds_hastyCorrespondents :
    (∃ stats, (hastyCorrespondents none).outcome = .finished stats ∧
      stats.rounds ≤ stats.delivered + stats.cancelled + 1 ∧
      (hastyCorrespondents none).history.map (fun r => (r.summary.delivered, r.removed)) =
        [(0, 0), (3, 0), (2, 0), (0, 2)]) ∧
    ∃ stats, (hastyCorrespondents (some ⟨Binary64.ofNat 3⟩)).outcome = .finished stats ∧
      stats.rounds ≤ stats.delivered + stats.cancelled + 2 ∧
      (hastyCorrespondents (some ⟨Binary64.ofNat 3⟩)).history.map (fun r => (r.summary.delivered, r.removed)) =
        [(0, 0), (3, 0), (0, 0)] := by
  have hsetup : (hastyCorrespondents none).IsSetUp := isSetUp_pair rfl _ _ _
  have hsetup' : (hastyCorrespondents (some ⟨Binary64.ofNat 3⟩)).IsSetUp := isSetUp_pair rfl _ _ _
  obtain ⟨_, _, _, hrounds⟩ := hsetup.wastes_no_rounds rfl outcome_hastyCorrespondents
  obtain ⟨_, _, hrounds', _⟩ := hsetup'.wastes_no_rounds rfl outcome_hastyCorrespondents_three
  exact ⟨⟨_, outcome_hastyCorrespondents, hrounds rfl, by decide +kernel⟩,
    _, outcome_hastyCorrespondents_three, hrounds', by decide +kernel⟩

end Scheduler

end EventSim
