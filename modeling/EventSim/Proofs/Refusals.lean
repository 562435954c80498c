import EventSim.Proofs.Conservation
import EventSim.Proofs.Transcript

set_option autoImplicit false

/-!
# Refusals that stand

A unit may ignore a refusal, but the context keeps it, and a run in which a refusal stands at the end of a
call fails. A unit can give up the refusal, though, and then the run may finish.

## Main definitions

* `EventSim.forgiver` — a unit that is refused something and gives up the refusal.

## Main results

* `EventSim.Scheduler.IsSetUp.ne_finished_of_stands` — a run in which a refusal stands does not finish.
* `EventSim.Scheduler.exists_finished_of_refusal` — a run in which a refusal is given up may finish.
-/

namespace EventSim

namespace Scheduler

variable {U P : Type} [Payload P] [SimUnit U P] {s : Scheduler U P} {xs : List (Exchange P)}

/-- **A run in which a refusal stands does not finish**, whatever the unit does after the refusal.

**Proof sketch.** A refusal that stands at the end of a call is recorded then (`Script.fault_run`). A unit
that starts is checked for it before the first round, and one that is handed a message fails the round. -/
theorem IsSetUp.ne_finished_of_stands (hs : s.IsSetUp) (hxs : xs ∈ s.transcripts)
    (hstands : Exchange.Stands xs) (stats : RunStats) : s.outcome ≠ .finished stats := by
  intro hstats
  rcases mem_transcripts.1 hxs with ⟨x, hx, rfl⟩ | ⟨t, ht, v, hv, rfl⟩
  · cases hfirst : s.firstStage? with
    | none =>
      rw [hs.sound.placed_eq_nil (leastLookahead_eq_none_of_finished hstats hfirst)] at hx
      cases hx
    | some t =>
      obtain ⟨_, _, _, hstarts, _⟩ := hs.sound.firstStage?_eq_some_iff.1 hfirst
      exact Slot.not_stands_of_starts (hstarts _ _ (hs.sound.mem_placed.1 hx)) hstands
  · have hc := hs.sound.coherent_of_mem ht
    obtain ⟨h, hh, houtline⟩ := Stage.exists_handled_of_mem_visits hc hv
    have hnone := Engine.failure_eq_none_of_success (fault_eq_none_of_finished hstats t ht) hh
    have hfailure : h.failure.isSome = (v.handled t.setting).failure.isSome := congrArg (·.2.2) houtline
    rw [hnone, Option.isSome_none, eq_comm, Option.isSome_eq_false_iff, Option.isNone_iff_eq_none]
      at hfailure
    exact Slot.not_stands_of_failure_eq_none hfailure hstands

end Scheduler

/-! ## Refusals that are given up -/

/-- A unit that, for every message, schedules another one for the epoch, ignores the refusal, and then does
the given. -/
def latecomer (next : List Action) : RuleTable where
  lookahead := ⟨Binary64.ofNat 1⟩
  rules := [⟨none, none, none,
    .send (.at SimTime.zero) .self (.exactly ⟨1⟩) none true :: next⟩]

/-- A unit that gives up the refusal. -/
def forgiver : RuleTable := latecomer [.takeFault]

namespace Scheduler

/-- A unit ignores a refusal, and the run does not finish. -/
theorem ne_finished_latecomer :
    ∃ xs ∈ (pair {} (latecomer []) (Id.ofNat 0) (Id.ofNat 0)).transcripts, Exchange.Stands xs ∧
      ∀ stats, (pair {} (latecomer []) (Id.ofNat 0) (Id.ofNat 0)).outcome ≠ .finished stats := by
  have hstands : ∃ xs ∈ (pair {} (latecomer []) (Id.ofNat 0) (Id.ofNat 0)).transcripts,
      Exchange.Stands xs := by decide +kernel
  obtain ⟨xs, hxs, h⟩ := hstands
  exact ⟨xs, hxs, h, (isSetUp_pair rfl _ _ _).ne_finished_of_stands hxs h⟩

/-- **A run in which a refusal is given up may finish.** -/
theorem exists_finished_of_refusal : ¬ ∀ s : Scheduler RuleTable Mark, s.IsSetUp →
    (∃ xs ∈ s.transcripts, ∃ x ∈ xs, x.refusal?.isSome) → ∀ stats, s.outcome ≠ .finished stats := by
  intro hall
  have hrefused : ∃ xs ∈ (pair {} forgiver (Id.ofNat 0) (Id.ofNat 0)).transcripts,
      ∃ x ∈ xs, x.refusal?.isSome := by decide +kernel
  have hfinished : (pair {} forgiver (Id.ofNat 0) (Id.ofNat 0)).outcome = .finished {
      rounds := 3, horizonDelta := ⟨Binary64.ofNat 1⟩, finalHorizon := ⟨Binary64.ofNat 3⟩
      seeded := 1, delivered := 1, produced := 0, cancelled := 0, undelivered := 0
      workers := [⟨Id.ofNat 0, 1, 0, 0, 1, 2⟩] } := by decide +kernel
  exact hall _ (isSetUp_pair rfl _ _ _) hrefused _ hfinished

end Scheduler

end EventSim
