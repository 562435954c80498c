import EventSim.Proofs.Stages

set_option autoImplicit false

/-!
# Every run ends

The rounds of a run follow one another until the verdict on one of them ends it, and nothing else bounds
their number: there may be messages pending after every round. What bounds it is that a run goes on only with
a later horizon. The rank of the horizon grows from round to round, and it is a number of 64 bits.

## Main definitions

* `EventSim.Stage.Executes` — a finite execution of the rounds, with no bound on their number.

## Main results

* `EventSim.Stage.executes_drive` — from every stage there is one.
* `EventSim.Stage.Executes.eq_drive` — there is no other.
* `EventSim.Stage.Executes.rank_add_length_le` — it has no more rounds than there are ranks left.
* `EventSim.Stage.drive_ends` — a run ends, and what ends it.
-/

namespace EventSim

/-- The step of the horizon stays what it is while a run goes on. -/
lemma RoundRecord.delta_of_verdict {P : Type} {config : RunConfig} {horizon next : Horizon} {r : RoundRecord P}
    (h : r.verdict config horizon = .next next) : next.delta = horizon.delta := by
  unfold verdict at h
  split at h
  · cases h
  split at h
  · cases h
  split at h
  · cases h
  split at h
  · split at h <;> cases h <;> rfl
  · cases h
    rfl

namespace Stage

variable {U P α : Type} [Payload P] [SimUnit U P] {observe : α → Observation P → α} {config : RunConfig}
  {t : Stage U P} {a : α} {rs rs' : List (RoundRecord P)}
  {result result' : α × Engine U P × Except RunError Progress}

/-- A finite execution of the rounds of a run from one of its stages on, while an observer is in the given
state: the records of the rounds in their order, and what the run returns. It is built up round by round, so
there is none where the rounds go on for ever. -/
inductive Executes (observe : α → Observation P → α) (config : RunConfig) :
    Stage U P → α → List (RoundRecord P) → α × Engine U P × Except RunError Progress → Prop
  /-- A fault ends the run. -/
  | fault {t : Stage U P} {a : α} {e : RunError}
      (verdict : (t.record config).verdict config t.horizon = .fault e) :
      Executes observe config t a [t.record config]
        (observed observe config a t, t.after config, .error e)
  /-- The run is over. -/
  | finished {t : Stage U P} {a : α} {n : ℕ}
      (verdict : (t.record config).verdict config t.horizon = .finished n) :
      Executes observe config t a [t.record config]
        (observed observe config a t, t.after config, .ok ⟨t.past + 1, t.horizon.current, n⟩)
  /-- The run should go on, and the horizon has not moved. -/
  | stalled {t : Stage U P} {a : α} {h : Horizon}
      (verdict : (t.record config).verdict config t.horizon = .next h)
      (le : h.current ≤ t.horizon.current) :
      Executes observe config t a [t.record config]
        (observed observe config a t, t.after config,
          .error (.horizonStalled t.horizon.current h.current))
  /-- The run goes on with a later horizon. -/
  | next {t : Stage U P} {a : α} {h : Horizon} {rs : List (RoundRecord P)}
      {result : α × Engine U P × Except RunError Progress}
      (verdict : (t.record config).verdict config t.horizon = .next h)
      (lt : t.horizon.current < h.current)
      (rest : Executes observe config ⟨t.past + 1, h, t.after config⟩ (observed observe config a t) rs
        result) :
      Executes observe config t a (t.record config :: rs) result

/-! ## There is one execution -/

/-- A stage without a next one ends the run in one of three ways. -/
lemma executes_of_next?_eq_none (h : t.next? config = none) :
    t.Executes observe config a [t.record config]
      (observed observe config a t, t.after config, t.outcome config) := by
  unfold outcome
  split
  · rename_i e hverdict
    exact .fault hverdict
  · rename_i n hverdict
    exact .finished hverdict
  · rename_i next hverdict
    refine .stalled hverdict (not_lt.1 fun hlt => ?_)
    have hnext : t.next? config = some ⟨t.past + 1, next, t.after config⟩ :=
      next?_eq_some_iff.2 ⟨hverdict, hlt, rfl, rfl⟩
    exact absurd (h.symm.trans hnext) (by simp)

/-- **The rounds of a run come to an end**, with what the run returns. -/
theorem executes_drive (observe : α → Observation P → α) (config : RunConfig) (t : Stage U P) (a : α) :
    t.Executes observe config a (t.engine.history config (t.past + 1) t.horizon)
      (t.engine.drive observe config (t.past + 1) t.horizon a) := by
  rw [history_eq]
  fun_induction stages config t generalizing a with
  | case1 t t' hnext ih =>
    obtain ⟨hverdict, hlt, hpast, hengine⟩ := next?_eq_some_iff.1 hnext
    obtain ⟨past, horizon, engine⟩ := t'
    subst hpast hengine
    rw [drive_of_some observe a hnext]
    exact .next hverdict hlt (ih (observed observe config a t))
  | case2 t hnext =>
    rw [drive_of_none observe a hnext]
    exact executes_of_next?_eq_none hnext

namespace Executes

/-- Where there is a next stage, an execution goes on from there. -/
lemma of_next?_eq_some (h : t.Executes observe config a rs result) {t' : Stage U P}
    (hnext : t.next? config = some t') :
    ∃ rest, rs = t.record config :: rest ∧
      t'.Executes observe config (observed observe config a t) rest result := by
  obtain ⟨hverdict, hlt, hpast, hengine⟩ := next?_eq_some_iff.1 hnext
  obtain ⟨past, horizon, engine⟩ := t'
  subst hpast hengine
  cases h with
  | fault verdict => cases verdict.symm.trans hverdict
  | finished verdict => cases verdict.symm.trans hverdict
  | stalled verdict le =>
    cases verdict.symm.trans hverdict
    exact absurd hlt (not_lt.2 le)
  | next verdict lt rest =>
    cases verdict.symm.trans hverdict
    exact ⟨_, rfl, rest⟩

/-- Where there is none, it consists of one round. -/
lemma of_next?_eq_none (h : t.Executes observe config a rs result) (hnext : t.next? config = none) :
    rs = [t.record config] ∧
      result = (observed observe config a t, t.after config, t.outcome config) := by
  unfold outcome
  cases h with
  | fault verdict => rw [verdict]; exact ⟨rfl, rfl⟩
  | finished verdict => rw [verdict]; exact ⟨rfl, rfl⟩
  | stalled verdict le => rw [verdict]; exact ⟨rfl, rfl⟩
  | @next _ _ h _ _ verdict lt rest =>
    have hsome : t.next? config = some ⟨t.past + 1, h, t.after config⟩ :=
      next?_eq_some_iff.2 ⟨verdict, lt, rfl, rfl⟩
    exact absurd (hnext.symm.trans hsome) (by simp)

/-- **There is no other execution.** The verdict on a round says whether another one follows, and what is
returned if not. -/
theorem eq_drive (h : t.Executes observe config a rs result) :
    rs = t.engine.history config (t.past + 1) t.horizon ∧
      result = t.engine.drive observe config (t.past + 1) t.horizon a := by
  rw [history_eq]
  fun_induction stages config t generalizing a rs with
  | case1 t t' hnext ih =>
    obtain ⟨rest, rfl, hrest⟩ := h.of_next?_eq_some hnext
    obtain ⟨rfl, rfl⟩ := ih hrest
    exact ⟨rfl, (drive_of_some observe a hnext).symm⟩
  | case2 t hnext =>
    obtain ⟨rfl, rfl⟩ := h.of_next?_eq_none hnext
    exact ⟨rfl, (drive_of_none observe a hnext).symm⟩

/-! ## The rank of the horizon -/

/-- **There are no more rounds than ranks from that of the first horizon on.** Every further round begins at
a rank above that of the round before. -/
theorem rank_add_length_le (h : t.Executes observe config a rs result) :
    t.horizon.current.rank.toNat + rs.length ≤ UInt64.size := by
  induction h with
  | @next t a next rs result verdict lt rest ih =>
    have hrank : t.horizon.current.rank.toNat < next.current.rank.toNat := SimTime.lt_iff_toNat.1 lt
    have hle : next.current.rank.toNat + rs.length ≤ UInt64.size := ih
    rw [List.length_cons]
    omega
  | @fault t | @finished t | @stalled t =>
    have hrank := t.horizon.current.rank.toNat_lt_size
    rw [List.length_singleton]
    omega

/-- **The ranks of the horizons grow from round to round**, from that of the first one on. -/
theorem pairwise_rank (h : t.Executes observe config a rs result) :
    (rs.map (·.horizon.rank.toNat)).Pairwise (· < ·) ∧
      ∀ r ∈ rs, t.horizon.current.rank.toNat ≤ r.horizon.rank.toNat := by
  induction h with
  | @next t a next rs result verdict lt rest ih =>
    obtain ⟨hpairwise, hle⟩ := ih
    have hrank : t.horizon.current.rank.toNat < next.current.rank.toNat := SimTime.lt_iff_toNat.1 lt
    constructor
    · rw [List.map_cons, List.pairwise_cons]
      refine ⟨fun n hn => ?_, hpairwise⟩
      obtain ⟨r, hr, rfl⟩ := List.mem_map.1 hn
      exact lt_of_lt_of_le hrank (hle r hr)
    · intro r hr
      rcases List.mem_cons.1 hr with rfl | hr
      · exact le_refl _
      · exact le_of_lt (lt_of_lt_of_le hrank (hle r hr))
  | @fault t | @finished t | @stalled t => simp

/-- **A run that should go on after its last round has stalled.** The verdict on that round names a horizon
which is not later, and this is the error that the run returns. -/
theorem stalled_of_verdict (h : t.Executes observe config a rs result) :
    ∃ before r, rs = before ++ [r] ∧ ∀ next : Horizon,
      r.verdict config ⟨r.horizon, t.horizon.delta⟩ = .next next →
        next.current ≤ r.horizon ∧ result.2.2 = .error (.horizonStalled r.horizon next.current) := by
  induction h with
  | next verdict lt rest ih =>
    obtain ⟨before, r, rfl, hr⟩ := ih
    rw [RoundRecord.delta_of_verdict verdict] at hr
    exact ⟨_ :: before, r, rfl, hr⟩
  | fault verdict => exact ⟨[], _, rfl, fun next hnext => by cases verdict.symm.trans hnext⟩
  | finished verdict => exact ⟨[], _, rfl, fun next hnext => by cases verdict.symm.trans hnext⟩
  | stalled verdict le =>
    refine ⟨[], _, rfl, fun next hnext => ?_⟩
    cases verdict.symm.trans hnext
    exact ⟨le, rfl⟩

end Executes

/-- **Every run ends.** Whatever the units do and however many messages they send, the rounds from a stage on
have one finite execution, whose records and result are those that the run computes. The rank of the horizon
grows with every further round, so there are no more rounds than numbers of 64 bits from the first rank on. If
the verdict on the last round is to go on, the horizon has not moved, and the run fails with that error.

**Proof sketch.** An execution is built along the stages, which are finitely many because the distance of the
rank of the horizon to the greatest one shrinks from each to the next. The verdict on a round leaves no choice
of how to go on. -/
theorem drive_ends (observe : α → Observation P → α) (config : RunConfig) (t : Stage U P) (a : α) :
    let rs := t.engine.history config (t.past + 1) t.horizon
    let result := t.engine.drive observe config (t.past + 1) t.horizon a
    t.Executes observe config a rs result ∧
      (∀ rs' result', t.Executes observe config a rs' result' → rs' = rs ∧ result' = result) ∧
      (rs.map (·.horizon.rank.toNat)).Pairwise (· < ·) ∧
      t.horizon.current.rank.toNat + rs.length ≤ 2 ^ 64 ∧
      ∃ before r, rs = before ++ [r] ∧ ∀ next : Horizon,
        r.verdict config ⟨r.horizon, t.horizon.delta⟩ = .next next →
          next.current ≤ r.horizon ∧
            result.2.2 = .error (.horizonStalled r.horizon next.current) := by
  have hexecutes := executes_drive observe config t a
  exact ⟨hexecutes, fun _ _ h => h.eq_drive, hexecutes.pairwise_rank.1, hexecutes.rank_add_length_le,
    hexecutes.stalled_of_verdict⟩

end Stage

end EventSim
