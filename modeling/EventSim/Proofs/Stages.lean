import EventSim.Engine.Run
import EventSim.Proofs.EngineRound

set_option autoImplicit false

/-!
# The stages of a run

Before each of its rounds a run is at a stage: so many rounds are over, a horizon is set, and the engine is
in a certain state. What the round does and whether another one follows is determined by the stage. What
holds of all stages of a run is proved by induction on the rounds before them.

## Main definitions

* `EventSim.Stage` — a run before one of its rounds.
* `EventSim.Stage.next?`, `EventSim.Stage.outcome` — what follows the round.
* `EventSim.Stage.stages` — all stages of the run from one of them on.

## Main results

* `EventSim.Stage.next?_of_stages_eq` — every stage is followed by the next one.
* `EventSim.Stage.pairwise_horizon_stages` — horizons increase from stage to stage.
* `EventSim.Stage.exists_last` — a run has a last stage.
* `EventSim.Stage.drive_eq` — a run goes through its stages and ends as the last one says.
* `EventSim.Stage.history_eq` — the history of a run consists of the records of its stages.
-/

namespace EventSim

/-- A run before one of its rounds. -/
structure Stage (U P : Type) where
  /-- The number of rounds that are over. -/
  past : Nat
  /-- The horizon of the round that comes next. -/
  horizon : Horizon
  /-- The state of the engine. -/
  engine : Engine U P

/-- The verdict on a round is that the run fails just if there is a fault. -/
lemma RoundRecord.verdict_eq_fault_iff {P : Type} {config : RunConfig} {horizon : Horizon} {r : RoundRecord P}
    {e : RunError} : r.verdict config horizon = .fault e ↔ r.fault = some e := by
  unfold verdict
  cases r.fault with
  | some e' => simp
  | none =>
    apply iff_of_false _ (by simp)
    dsimp only
    split
    · nofun
    split
    · nofun
    split
    · split <;> nofun
    · nofun

/-- The verdict on a round without fault that has passed the end is that the run finishes. -/
lemma RoundRecord.verdict_of_reachedEnd {P : Type} {config : RunConfig} {horizon : Horizon} {r : RoundRecord P}
    (hfault : r.fault = none) (hend : config.reachedEnd horizon.current = true) :
    r.verdict config horizon = .finished r.summary.pending := by
  simp only [verdict, hfault, hend, if_true]
  split
  · rename_i hpending
    rw [hpending]
  · rfl

namespace Stage

variable {U P : Type} [Payload P] [SimUnit U P] {config : RunConfig} {s t t' : Stage U P}
  {ts rest : List (Stage U P)}

/-- The state of the engine after the round. -/
def after (config : RunConfig) (t : Stage U P) : Engine U P :=
  (t.engine.runRound config (t.past + 1) t.horizon.current).1

/-- What happens in the round. -/
def record (config : RunConfig) (t : Stage U P) : RoundRecord P :=
  (t.engine.runRound config (t.past + 1) t.horizon.current).2

@[simp] lemma round_record (config : RunConfig) (t : Stage U P) :
    (t.record config).round = t.past + 1 := rfl

@[simp] lemma horizon_record (config : RunConfig) (t : Stage U P) :
    (t.record config).horizon = t.horizon.current := rfl

/-- The next stage, if the run goes on. -/
def next? (config : RunConfig) (t : Stage U P) : Option (Stage U P) :=
  match (t.record config).verdict config t.horizon with
  | .next h => if t.horizon.current < h.current then some ⟨t.past + 1, h, t.after config⟩ else none
  | _ => none

/-- How the run ends if it does not go on. -/
def outcome (config : RunConfig) (t : Stage U P) : Except RunError Progress :=
  match (t.record config).verdict config t.horizon with
  | .fault e => .error e
  | .finished undelivered => .ok ⟨t.past + 1, t.horizon.current, undelivered⟩
  | .next h => .error (.horizonStalled t.horizon.current h.current)

/-! ## One stage and the next -/

/-- A run goes on only with a later horizon. -/
lemma next?_eq_some_iff : t.next? config = some t' ↔
    (t.record config).verdict config t.horizon = .next t'.horizon ∧
      t.horizon.current < t'.horizon.current ∧ t'.past = t.past + 1 ∧ t'.engine = t.after config := by
  unfold next?
  split
  · rename_i h hverdict
    rw [hverdict, Option.ite_none_right_eq_some, Option.some.injEq, Verdict.next.injEq]
    constructor
    · rintro ⟨hlt, rfl⟩
      exact ⟨rfl, hlt, rfl, rfl⟩
    · obtain ⟨past, horizon, engine⟩ := t'
      rintro ⟨rfl, hlt, rfl, rfl⟩
      exact ⟨hlt, rfl⟩
  · rename_i hverdict
    exact iff_of_false (by simp) fun h => hverdict _ h.1

/-- A run that goes on has not had a fault, has messages left and has not passed its end. -/
lemma of_next? (h : t.next? config = some t') :
    (t.record config).fault = none ∧ (t.record config).summary.pending ≠ 0 ∧
      config.reachedEnd t.horizon.current = false := by
  obtain ⟨hverdict, _⟩ := next?_eq_some_iff.1 h
  unfold RoundRecord.verdict at hverdict
  split at hverdict
  · cases hverdict
  · rename_i hfault
    split at hverdict
    · cases hverdict
    · rename_i hpending
      split at hverdict
      · cases hverdict
      · rename_i hend
        exact ⟨hfault, hpending, by simpa using hend⟩

/-- A run ends without error only after a round without fault. -/
lemma of_outcome {p : Progress} (h : t.outcome config = .ok p) :
    (t.record config).fault = none ∧ t.next? config = none ∧
      p = ⟨t.past + 1, t.horizon.current, (t.record config).summary.pending⟩ ∧
      ((t.record config).summary.pending = 0 ∨ config.reachedEnd t.horizon.current = true) := by
  unfold outcome at h
  unfold next?
  split at h
  · cases h
  · rename_i n hverdict
    cases h
    rw [hverdict]
    unfold RoundRecord.verdict at hverdict
    split at hverdict
    · cases hverdict
    · rename_i hfault
      split at hverdict
      · rename_i hpending
        cases hverdict
        exact ⟨hfault, rfl, by rw [hpending], Or.inl hpending⟩
      · split at hverdict
        · rename_i hend
          cases hverdict
          exact ⟨hfault, rfl, rfl, Or.inr hend⟩
        · split at hverdict
          · split at hverdict <;> cases hverdict
          · cases hverdict
  · cases h

/-- A run that has passed its end goes on no more, and ends without error if there is no fault. -/
lemma outcome_of_reachedEnd (hend : config.reachedEnd t.horizon.current = true) :
    t.next? config = none ∧ ((t.record config).fault = none → ∃ p, t.outcome config = .ok p) := by
  constructor
  · by_contra hne
    obtain ⟨t', ht'⟩ := Option.ne_none_iff_exists'.1 hne
    exact Bool.false_ne_true ((of_next? ht').2.2.symm.trans hend)
  · intro hfault
    rw [outcome, RoundRecord.verdict_of_reachedEnd hfault hend]
    exact ⟨_, rfl⟩

/-! ## All stages -/

/-- All stages of a run from the given one on. -/
def stages (config : RunConfig) (t : Stage U P) : List (Stage U P) :=
  match _h : t.next? config with
  | some t' => t :: stages config t'
  | none => [t]
termination_by UInt64.size - t.horizon.current.rank.toNat
decreasing_by
  have hlt := SimTime.lt_iff_toNat.1 (next?_eq_some_iff.1 _h).2.1
  have hb := t'.horizon.current.rank.toNat_lt_size
  omega

lemma stages_of_some (h : t.next? config = some t') : t.stages config = t :: t'.stages config := by
  rw [stages]
  split
  · rename_i t'' h'
    cases h.symm.trans h'
    rfl
  · rename_i h'
    exact absurd (h.symm.trans h') (by simp)

lemma stages_of_none (h : t.next? config = none) : t.stages config = [t] := by
  rw [stages]
  split
  · rename_i t'' h'
    exact absurd (h.symm.trans h') (by simp)
  · rfl

/-- The first of the stages is the one that they begin with. -/
lemma head?_stages (config : RunConfig) (t : Stage U P) : (t.stages config).head? = some t := by
  rw [stages]
  split <;> rfl

/-- Every stage is followed by the next one, if there is one. -/
theorem next?_of_stages_eq (h : s.stages config = ts ++ t :: rest) : t.next? config = rest.head? := by
  induction ts generalizing s with
  | nil =>
    cases hn : s.next? config with
    | some s' =>
      rw [stages_of_some hn] at h
      obtain ⟨rfl, rfl⟩ := List.cons.inj h
      exact hn.trans (head?_stages config s').symm
    | none =>
      rw [stages_of_none hn] at h
      obtain ⟨rfl, rfl⟩ := List.cons.inj h
      exact hn
  | cons t₀ ts ih =>
    cases hn : s.next? config with
    | some s' =>
      rw [stages_of_some hn] at h
      exact ih (List.cons.inj h).2
    | none =>
      rw [stages_of_none hn] at h
      simp at h

/-- The stages count the rounds that are over. -/
lemma past_of_stages_eq (h : s.stages config = ts ++ t :: rest) : t.past = s.past + ts.length := by
  induction ts generalizing s with
  | nil =>
    have hhead := head?_stages config s
    rw [h] at hhead
    cases hhead
    rfl
  | cons t₀ ts ih =>
    cases hn : s.next? config with
    | some s' =>
      rw [stages_of_some hn] at h
      rw [ih (List.cons.inj h).2, (next?_eq_some_iff.1 hn).2.2.1, List.length_cons]
      omega
    | none =>
      rw [stages_of_none hn] at h
      simp at h

/-- **Horizons increase from stage to stage.** -/
theorem pairwise_horizon_stages (config : RunConfig) (s : Stage U P) :
    (s.stages config).Pairwise (·.horizon.current < ·.horizon.current) ∧
      ∀ t ∈ s.stages config, s.horizon.current ≤ t.horizon.current := by
  fun_induction stages config s with
  | case1 s s' hn ih =>
    obtain ⟨hpairwise, hle⟩ := ih
    have hlt := (next?_eq_some_iff.1 hn).2.1
    refine ⟨List.pairwise_cons.2 ⟨fun t ht => lt_of_lt_of_le hlt (hle t ht), hpairwise⟩, fun t ht => ?_⟩
    rcases List.mem_cons.1 ht with rfl | ht
    · exact le_refl _
    · exact le_trans (le_of_lt hlt) (hle t ht)
  | case2 s hn => exact ⟨List.pairwise_singleton _ _, by simp⟩

/-- **A run has a last stage.** -/
theorem exists_last (config : RunConfig) (s : Stage U P) :
    ∃ ts t, s.stages config = ts ++ [t] ∧ t.next? config = none := by
  fun_induction stages config s with
  | case1 s s' hn ih =>
    obtain ⟨ts, t, hts, ht⟩ := ih
    exact ⟨s :: ts, t, congrArg (s :: ·) hts, ht⟩
  | case2 s hn => exact ⟨[], s, rfl, hn⟩

/-! ## Runs -/

/-- What an observer is told of one round. -/
def observed {α : Type} (observe : α → Observation P → α) (config : RunConfig) (a : α)
    (t : Stage U P) : α :=
  observe (observe a (.roundStart (t.past + 1) t.horizon.current)) (.roundEnd (t.record config))

section Drive

variable {α : Type} (observe : α → Observation P → α) (a : α)

/-- If there is a next stage, the run goes on from there. -/
lemma drive_of_some (h : s.next? config = some t) :
    s.engine.drive observe config (s.past + 1) s.horizon a =
      t.engine.drive observe config (t.past + 1) t.horizon (observed observe config a s) := by
  obtain ⟨hverdict, hlt, hpast, hengine⟩ := next?_eq_some_iff.1 h
  rw [hpast, hengine]
  conv_lhs => rw [Engine.drive]
  dsimp only
  split
  · rename_i e hv
    cases hverdict.symm.trans hv
  · rename_i n hv
    cases hverdict.symm.trans hv
  · rename_i n hv
    cases hverdict.symm.trans hv
    rw [dif_pos hlt]
    rfl

/-- If there is none, the run ends. -/
lemma drive_of_none (h : s.next? config = none) :
    s.engine.drive observe config (s.past + 1) s.horizon a =
      (observed observe config a s, s.after config, s.outcome config) := by
  unfold next? at h
  unfold outcome
  rw [Engine.drive]
  dsimp only
  split
  · rename_i e hv
    rw [show (s.record config).verdict config s.horizon = .fault e from hv]
    rfl
  · rename_i n hv
    rw [show (s.record config).verdict config s.horizon = .finished n from hv]
    rfl
  · rename_i n hv
    rw [show (s.record config).verdict config s.horizon = .next n from hv] at h ⊢
    have hstalled : ¬ s.horizon.current < n.current := fun hlt => by simp [hlt] at h
    rw [dif_neg hstalled]
    rfl

/-- **A run goes through its stages and ends as the last one says.** -/
theorem drive_eq (h : s.stages config = ts ++ [t]) :
    s.engine.drive observe config (s.past + 1) s.horizon a =
      ((ts ++ [t]).foldl (observed observe config) a, t.after config, t.outcome config) := by
  induction ts generalizing s a with
  | nil =>
    cases hn : s.next? config with
    | some s' =>
      rw [stages_of_some hn, stages] at h
      split at h <;> simp at h
    | none =>
      rw [stages_of_none hn] at h
      obtain ⟨rfl, _⟩ := List.cons.inj h
      exact drive_of_none observe a hn
  | cons t₀ ts ih =>
    cases hn : s.next? config with
    | none =>
      rw [stages_of_none hn] at h
      simp at h
    | some s' =>
      rw [stages_of_some hn] at h
      obtain ⟨rfl, htail⟩ := List.cons.inj h
      exact (drive_of_some observe a hn).trans (ih _ htail)

/-- The history of a run consists of the records of its stages. -/
theorem history_eq (config : RunConfig) (s : Stage U P) :
    s.engine.history config (s.past + 1) s.horizon = (s.stages config).map (·.record config) := by
  obtain ⟨ts, t, hts, _⟩ := exists_last config s
  rw [Engine.history, drive_eq _ _ hts, hts]
  change ((ts ++ [t]).foldl (fun rs t => rs.push (t.record config)) #[]).toList = _
  simp

end Drive

end Stage

end EventSim
