import EventSim.Proofs.Genuine
import EventSim.Proofs.Recovery
import EventSim.Proofs.SameSetup

set_option autoImplicit false

/-!
# Independence of the partition

Two runs from the same setup, on any numbers of workers and with any distribution of the units over them,
go through the same rounds in lockstep: before each round their engines hold the same units and messages,
so that the round hands the same messages to every unit, and the run goes on in the same way.

The units must cancel messages with genuine handles, since it depends on the partition whether a forged one
reaches the message that it names.

## Main definitions

* `EventSim.RoundRecord.Alike` — what two partitions have in common in a round.
* `EventSim.Stage.Matches` — stages that differ in their partition.
* `EventSim.Scheduler.SameRun` — what two runs have in common.

## Main results

* `EventSim.Stage.Matches.alike_record` — a round without fault is alike at stages that match.
* `EventSim.Scheduler.SameSetup.forall₂_stages` — runs from the same setup go in lockstep.
* `EventSim.Scheduler.IsSetUp.partition_independent` — runs from the same setup are the same.
-/

namespace EventSim

variable {U P : Type}

/-- The records tell the same of a round, apart from the workers. -/
structure RoundRecord.Alike (r r' : RoundRecord P) : Prop where
  /-- The number of the round is the same. -/
  round : r.round = r'.round
  /-- Its horizon is the same. -/
  horizon : r.horizon = r'.horizon
  /-- Every unit is handed the same messages, in the same order. -/
  received : ∀ u, r.received u = r'.received u
  /-- As many messages are handled. -/
  delivered : r.summary.delivered = r'.summary.delivered
  /-- As many messages are left, in queues or staged. -/
  pending : r.summary.pending = r'.summary.pending
  /-- As many cancellations remove a message. -/
  removed : r.removed = r'.removed
  /-- As many messages are scheduled. -/
  produced : r.accepted.length = r'.accepted.length

/-- If the messages of one engine can be told apart and its cancellations name whole messages, this holds of
any engine that is alike. -/
lemma Engine.Alike.orderly {e e' : Engine U P} {round : Nat} (ha : Alike round e e')
    (ho : e.Orderly round) (hc : e'.Coherent round)
    (hn : ((e'.waiting ++ e'.postbox.messages round).map Message.key).Nodup) : e'.Orderly round where
  coherent := hc
  nodup := hn
  genuine h hh m hm := by
    refine ho.genuine h ((ha.envelopes _).2 hh) m ?_
    rw [List.mem_append, Postbox.mem_messages] at hm ⊢
    rwa [ha.waiting, ha.envelopes]

variable [Payload P] [SimUnit U P]

/-! ## Stages that match -/

namespace Stage

open Scheduler

/-- The stages differ at most in the partition. -/
structure Matches (t t' : Stage U P) : Prop where
  /-- As many rounds are over. -/
  past : t.past = t'.past
  /-- The horizon is the same. -/
  horizon : t.horizon = t'.horizon
  /-- The engines hold the same units and messages. -/
  alike : Engine.Alike t.past t.engine t'.engine
  /-- The first engine is orderly. -/
  orderly : t.engine.Orderly t.past
  /-- The second engine is orderly. -/
  orderly' : t'.engine.Orderly t'.past

namespace Matches

variable {s s' : Scheduler U P} {t t' : Stage U P} {ts ts' rest rest' : List (Stage U P)}
  (hs : s.Sound) (hs' : s'.Sound) (hsame : s.SameSetup s') (hg : s.Genuine)
  (h : s.stages = ts ++ t :: rest) (h' : s'.stages = ts' ++ t' :: rest') (hm : t.Matches t')

include hsame hm

/-- There is a fault in the round of one stage just if there is in that of the other. -/
lemma fault_iff : (t.record s.config).fault.isSome ↔ (t'.record s'.config).fault.isSome := by
  have ho := hm.orderly'
  rw [← hm.past] at ho
  rw [record, record, ← hm.past, ← hm.horizon]
  exact hm.alike.fault_iff hm.orderly ho (hsame.deliveryLimit_eq _)

variable (hf : (t.record s.config).fault = none)

include hf

lemma fault_eq_none : (t'.record s'.config).fault = none := by
  have hiff := hm.fault_iff hsame
  rw [hf] at hiff
  simpa using hiff

/-- The engines are still alike after the round. -/
lemma alike_after : Engine.Alike (t.past + 1) (t.after s.config) (t'.after s'.config) := by
  have ho := hm.orderly'
  rw [← hm.past] at ho
  rw [after, after, ← hm.past, ← hm.horizon]
  exact hm.alike.runRound hm.orderly ho (hsame.deliveryLimit_eq _) hf

include hs hs' hg h h'

/-- Both engines are orderly after the round. -/
lemma orderly_after :
    (t.after s.config).Orderly (t.past + 1) ∧ (t'.after s'.config).Orderly (t'.past + 1) := by
  have ho := hs.orderly_after hg h hf
  have ha := hm.alike_after hsame hf
  refine ⟨ho, ?_⟩
  rw [hm.past] at ho ha
  exact ha.orderly ho ((hs'.coherent_of_stages_eq h').runRound _ _)
    (hs'.nodup_remaining h')

/-- **A round without fault is alike** at stages that match, and the first message that is left is due at
the same time. -/
theorem alike_record : (t.record s.config).Alike (t'.record s'.config) ∧
    (t.record s.config).earliest = (t'.record s'.config).earliest := by
  obtain ⟨hnext, hnext'⟩ := hm.orderly_after hs hs' hsame hg h h' hf
  have ho := hm.orderly'
  rw [after, ← hm.past, ← hm.horizon] at hnext'
  rw [← hm.past] at ho
  have hlimit := hsame.deliveryLimit_eq t.horizon.current
  obtain ⟨hdelivered, hpending, hremoved, hproduced, hearliest⟩ :=
    hm.alike.figures hm.orderly ho hlimit hf hnext hnext'
  rw [record, record, ← hm.past, ← hm.horizon]
  exact ⟨⟨rfl, rfl, hm.alike.received_congr hm.orderly ho hlimit hf, hdelivered, hpending, hremoved,
    hproduced⟩, hearliest⟩

/-- The runs go on in the same way. -/
lemma verdict_eq : (t.record s.config).verdict s.config t.horizon =
    (t'.record s'.config).verdict s'.config t'.horizon := by
  obtain ⟨halike, hearliest⟩ := hm.alike_record hs hs' hsame hg h h' hf
  simp only [RoundRecord.verdict, hf, hm.fault_eq_none hsame hf, halike.pending, hearliest, hm.horizon,
    hsame.reachedEnd_eq, hsame.skipIdleRounds_eq]

omit hf in
/-- **The next stages match**, if there are any; one run has a next stage just if the other has. -/
theorem next : Option.Rel Matches (t.next? s.config) (t'.next? s'.config) := by
  cases hf : (t.record s.config).fault with
  | some err =>
    have hsome := (hm.fault_iff hsame).1 (by rw [hf]; rfl)
    have hnone : ∀ {s : Scheduler U P} {t : Stage U P}, (t.record s.config).fault.isSome →
        t.next? s.config = none := fun hsome => by
      apply Option.eq_none_iff_forall_ne_some.2
      intro t₁ ht₁
      rw [(of_next? ht₁).1] at hsome
      cases hsome
    rw [hnone (by rw [hf]; rfl), hnone hsome]
    exact .none
  | none =>
    obtain ⟨ho, ho'⟩ := hm.orderly_after hs hs' hsame hg h h' hf
    have halike := hm.alike_after hsame hf
    have hverdict := hm.verdict_eq hs hs' hsame hg h h' hf
    rw [next?, next?, ← hverdict, ← hm.horizon]
    cases (t.record s.config).verdict s.config t.horizon with
    | fault err => exact .none
    | finished n => exact .none
    | next horizon =>
      dsimp only
      split
      · exact .some ⟨congrArg (· + 1) hm.past, rfl, halike, ho, ho'⟩
      · exact .none

omit hf in
/-- The runs end in the same way if these are their last rounds. -/
lemma outcome_cases :
    (∃ err err', t.outcome s.config = .error err ∧ t'.outcome s'.config = .error err') ∨
      t.outcome s.config = t'.outcome s'.config := by
  have hfault : ∀ {s : Scheduler U P} {t : Stage U P} {err}, (t.record s.config).fault = some err →
      t.outcome s.config = .error err := fun hf => by
    simp only [outcome, RoundRecord.verdict, hf]
  cases hf : (t.record s.config).fault with
  | some err =>
    have hsome := (hm.fault_iff hsame).1 (by rw [hf]; rfl)
    obtain ⟨err', hf'⟩ := Option.isSome_iff_exists.1 hsome
    exact Or.inl ⟨err, err', hfault hf, hfault hf'⟩
  | none =>
    refine Or.inr ?_
    rw [outcome, outcome, hm.verdict_eq hs hs' hsame hg h h' hf, hm.past, hm.horizon]

end Matches

end Stage

/-! ## Lockstep -/

namespace Scheduler

variable {s s' : Scheduler U P}

namespace SameSetup

variable (h : s.SameSetup s') (hs : s.Sound) (hs' : s'.Sound) (hg : s.Genuine)

include h hs hs' hg

/-- If the runs come to a first round, they match there. -/
lemma matches_first {t : Stage U P} (ht : s.firstStage? = some t) :
    ∃ t', s'.firstStage? = some t' ∧ t.Matches t' := by
  have ho := hs.orderly_of_stages_eq hg (stages_eq_cons ht)
  obtain ⟨delta, hdelta, hlt, hstarts, rfl⟩ := hs.firstStage?_eq_some_iff.1 ht
  rw [h.startTime_eq] at hlt
  have hfirst := hs'.firstStage?_eq_some_iff.2
    ⟨delta, h.leastLookahead_eq ▸ hdelta, hlt, (h.forall_starts_iff hs hs').1 hstarts, rfl⟩
  have halike : Engine.Alike 0 s.firstEngine s'.firstEngine := by
    refine ⟨fun u => ?_, fun m => ?_, fun y => ?_⟩
    · rw [hs.slot?_firstEngine, hs'.slot?_firstEngine, h.slot?_eq hs hs', h.startTime_eq]
      congr 1
      funext x
      exact (Slot.started_congr (h.sameUnits hs hs') _ x).1
    · rw [Sound.waiting_firstEngine, Sound.waiting_firstEngine]
    · rw [hs.mem_envelopes_firstEngine, hs'.mem_envelopes_firstEngine, h.mem_opening_iff hs hs']
  have hnodup := hs'.nodup_pending (stages_eq_cons hfirst)
  refine ⟨_, hfirst, rfl, ?_, halike, ho, halike.orderly ho hs'.coherent_firstEngine hnodup⟩
  rw [h.startTime_eq]

/-- From stages that match the runs go in lockstep. -/
lemma forall₂_of_matches {rest ts : List (Stage U P)} {t : Stage U P}
    (hstages : s.stages = ts ++ t :: rest) {rest' ts' : List (Stage U P)} {t' : Stage U P}
    (hstages' : s'.stages = ts' ++ t' :: rest') (hm : t.Matches t') :
    List.Forall₂ Stage.Matches (t :: rest) (t' :: rest') := by
  induction rest generalizing ts t ts' t' rest' with
  | nil =>
    have hnext := hm.next hs hs' h hg hstages hstages'
    rw [next?_eq_head? hstages, next?_eq_head? hstages'] at hnext
    cases rest' with
    | nil => exact .cons hm .nil
    | cons t₁' rest' => cases hnext
  | cons t₁ rest ih =>
    have hnext := hm.next hs hs' h hg hstages hstages'
    rw [next?_eq_head? hstages, next?_eq_head? hstages'] at hnext
    cases rest' with
    | nil => cases hnext
    | cons t₁' rest' =>
      cases hnext with
      | some hm₁ =>
        have hsplit := hstages.trans (List.append_cons ts t (t₁ :: rest))
        have hsplit' := hstages'.trans (List.append_cons ts' t' (t₁' :: rest'))
        exact .cons hm (ih hsplit hsplit' hm₁)

/-- **Runs from the same setup go in lockstep.** -/
theorem forall₂_stages : List.Forall₂ Stage.Matches s.stages s'.stages := by
  cases hfirst : s.firstStage? with
  | none =>
    have hfirst' : s'.firstStage? = none := by
      apply Option.eq_none_iff_forall_ne_some.2
      intro t' ht'
      obtain ⟨delta, hdelta, hlt, hstarts, _⟩ := hs'.firstStage?_eq_some_iff.1 ht'
      rw [← h.startTime_eq] at hlt
      have hsome := hs.firstStage?_eq_some_iff.2
        ⟨delta, h.leastLookahead_eq ▸ hdelta, hlt, (h.forall_starts_iff hs hs').2 hstarts, rfl⟩
      cases hsome.symm.trans hfirst
    rw [stages, stages, hfirst, hfirst']
    exact .nil
  | some t =>
    obtain ⟨t', ht', hm⟩ := h.matches_first hs hs' hg hfirst
    rw [stages_eq_cons hfirst, stages_eq_cons ht']
    exact h.forall₂_of_matches hs hs' hg (stages_eq_cons hfirst) (stages_eq_cons ht') hm

/-- Without a fault all rounds of the runs are alike. -/
lemma forall₂_history (hf : ∀ t ∈ s.stages, (t.record s.config).fault = none) :
    List.Forall₂ RoundRecord.Alike s.history s'.history := by
  have hm := h.forall₂_stages hs hs' hg
  rw [history_eq_map, history_eq_map, List.forall₂_map_left_iff, List.forall₂_map_right_iff]
  refine List.forall₂_iff_get.2 ⟨hm.length_eq, fun i hi hi' => ?_⟩
  have hsplit : ∀ {ts : List (Stage U P)} (hi : i < ts.length),
      ts = ts.take i ++ ts.get ⟨i, hi⟩ :: ts.drop (i + 1) := fun hi => by
    rw [List.get_eq_getElem, List.getElem_cons_drop, List.take_append_drop]
  exact ((hm.get hi hi').alike_record hs hs' h hg (hsplit hi) (hsplit hi')
    (hf _ (List.get_mem ..))).1

end SameSetup

/-! ## Runs from the same setup -/

/-- What a unit is handed in a run, with what it can see of its surroundings each time. -/
def course (s : Scheduler U P) (u : UnitId) : List (Message P × View) :=
  s.history.flatMap fun r => (r.received u).map fun m => (m, ⟨u, m.time, r.horizon, r.round⟩)

/-- The runs have gone through the same rounds, with the same consequences for all units. -/
structure SameRun (s s' : Scheduler U P) : Prop where
  /-- The rounds are alike. -/
  rounds : List.Forall₂ RoundRecord.Alike s.history s'.history
  /-- Every unit is handed the same messages, at the same times and horizons. -/
  course : ∀ u, s.course u = s'.course u
  /-- Every unit ends in the same state. -/
  unit : ∀ u, s.afterRun.unit? u = s'.afterRun.unit? u

/-- What is the same in rounds that are alike is the same throughout. -/
lemma map_history_eq {α : Type} {f : RoundRecord P → α}
    (h : List.Forall₂ RoundRecord.Alike s.history s'.history)
    (hf : ∀ r r' : RoundRecord P, r.Alike r' → f r = f r') : s.history.map f = s'.history.map f := by
  rw [← List.forall₂_eq_eq_eq, List.forall₂_map_left_iff, List.forall₂_map_right_iff]
  exact h.imp hf

/-- If rounds are alike, every unit has been handed the same messages in them. -/
lemma course_eq (h : List.Forall₂ RoundRecord.Alike s.history s'.history) (u : UnitId) :
    s.course u = s'.course u := by
  rw [course, course, List.flatMap_def, List.flatMap_def, map_history_eq h]
  intro r r' hr
  rw [hr.received, hr.horizon, hr.round]

namespace SameSetup

variable (h : s.SameSetup s') (hs : s.Sound) (hs' : s'.Sound) (hg : s.Genuine)

include h hs hs' hg

omit hg in
/-- Runs that do not come to a first round end in the same way. -/
lemma same_of_firstStage?_eq_none
    (hstart : ∀ u x, s.slot? u = some x → x.Survives s.table s.config.startTime)
    (hfirst : s.firstStage? = none) (hfirst' : s'.firstStage? = none) :
    (∃ e e', s.outcome = .failed e ∧ s'.outcome = .failed e') ∨
      ∃ stats, s.outcome = .finished stats ∧ s'.outcome = .finished stats ∧ s.SameRun s' := by
  have hcrash := hs.startUp_ne_error hstart
  have hcrash' := hs'.startUp_ne_error ((h.forall_survives_iff hs hs').1 hstart)
  have hrounds : List.Forall₂ RoundRecord.Alike s.history s'.history := by
    rw [history, history, (run_of_none hfirst).1, (run_of_none hfirst').1]
    exact .nil
  rcases (run_of_none hfirst).2 with ⟨_, hnone, hfin, hunits⟩ | ⟨e, hfailed, hsome⟩ | ⟨c, _, hc⟩
  · rcases (run_of_none hfirst').2 with ⟨_, _, hfin', hunits'⟩ | ⟨e', _, hsome'⟩ | ⟨c, _, hc⟩
    · refine Or.inr ⟨_, hfin, ?_, hrounds, course_eq hrounds, fun u => ?_⟩
      · rw [h.startTime_eq]
        exact hfin'
      · rw [afterRun, afterRun, unit?_congr hunits, unit?_congr hunits', h.unit?_eq]
    · exact absurd (h.leastLookahead_eq ▸ hnone) (hsome' hs'.state_eq)
    · exact absurd hc (hcrash' c)
  · rcases (run_of_none hfirst').2 with ⟨_, hnone', _⟩ | ⟨e', hfailed', _⟩ | ⟨c, _, hc⟩
    · exact absurd (h.leastLookahead_eq.trans hnone') (hsome hs.state_eq)
    · exact Or.inl ⟨e, e', hfailed, hfailed'⟩
    · exact absurd hc (hcrash' c)
  · exact absurd hc (hcrash c)

/-- Runs that come to an end in matching stages and succeed are the same. -/
lemma same_of_finished {ts ts' : List (Stage U P)} {t t' : Stage U P} (hlast : s.stages = ts ++ [t])
    (hlast' : s'.stages = ts' ++ [t']) (hm : t.Matches t') {stats stats' : RunStats}
    (hstats : s.outcome = .finished stats) (hstats' : s'.outcome = .finished stats') :
    { stats with workers := [] } = { stats' with workers := [] } ∧ s.SameRun s' := by
  obtain ⟨hf, delta, hdelta, hfigures⟩ := hs.stats_of_finished hlast hstats
  obtain ⟨hf', delta', hdelta', hfigures'⟩ := hs'.stats_of_finished hlast' hstats'
  have hrounds := h.forall₂_history hs hs' hg (hlast ▸ forall_fault_eq_none hlast hf)
  have hmap := fun f hf => map_history_eq (α := Nat) (f := f) hrounds hf
  simp only [history_eq_map, hlast, hlast', List.map_map, Function.comp_def] at hmap
  have hseeded : (Envelope.messages s.opening).length = (Envelope.messages s'.opening).length := by
    have hnodup := hs.numbered_firstEngine.nodup.of_map
    have hnodup' := hs'.numbered_firstEngine.nodup.of_map
    refine ((List.perm_ext_iff_of_nodup hnodup hnodup').2 fun m => ?_).length_eq
    rw [Envelope.mem_messages, Envelope.mem_messages, h.mem_opening_iff hs hs']
  have halike := (hm.alike_record hs hs' h hg hlast hlast' hf).1
  have hlength : (ts ++ [t]).length = (ts' ++ [t']).length := by
    rw [← hlast, ← hlast']
    exact (h.forall₂_stages hs hs' hg).length_eq
  rw [h.leastLookahead_eq] at hdelta
  obtain rfl := Option.some.inj (hdelta.symm.trans hdelta')
  refine ⟨?_, hrounds, course_eq hrounds, fun u => ?_⟩
  · rw [hfigures, hfigures']
    simp only [RunStats.mk.injEq, and_true, true_and]
    exact ⟨hlength, congrArg _ hm.horizon, hseeded, congrArg List.sum (hmap _ fun _ _ hr => hr.delivered),
      congrArg List.sum (hmap _ fun _ _ hr => hr.produced),
      congrArg List.sum (hmap _ fun _ _ hr => hr.removed), halike.pending⟩
  · rw [hs.unit?_afterRun hlast, hs'.unit?_afterRun hlast', (hm.alike_after h hf).slot]

end SameSetup

/-- **Independence of the partition.** Two runs from the same setup, with any numbers of workers and any
distribution of the units, both fail, after as many rounds, or both succeed. Then all units have been handed
the same messages in the same rounds and end in the same states, and all figures are the same but those of
the single workers.

**Proof sketch.** The runs go in lockstep (`SameSetup.forall₂_stages`): what is due for a unit is at one
worker in either run, in the order of keys, and so depends only on what waits, what is staged and what is
cancelled anywhere (`Engine.Orderly.mem_due_iff`). Hence the rounds are alike up to the last one, where the
runs end in the same way. -/
theorem IsSetUp.partition_independent (hs : s.IsSetUp) (hs' : s'.IsSetUp) (hsame : s.SameSetup s')
    (hstart : ∀ u x, s.slot? u = some x → x.Survives s.table s.config.startTime) (hg : s.Genuine) :
    (∃ e e', s.outcome = .failed e ∧ s'.outcome = .failed e' ∧
        s.history.length = s'.history.length) ∨
      ∃ stats stats', s.outcome = .finished stats ∧ s'.outcome = .finished stats' ∧
        { stats with workers := [] } = { stats' with workers := [] } ∧ s.SameRun s' := by
  have hlockstep := hsame.forall₂_stages hs.sound hs'.sound hg
  have hlength : s.history.length = s'.history.length := by
    rw [history_eq_map, history_eq_map, List.length_map, List.length_map, hlockstep.length_eq]
  rcases stages_eq_nil_or_append s with ⟨hnil, hfirst⟩ | ⟨ts, t, hlast⟩
  · rw [hnil] at hlockstep
    rcases stages_eq_nil_or_append s' with ⟨_, hfirst'⟩ | ⟨ts', t', hlast'⟩
    · rcases hsame.same_of_firstStage?_eq_none hs.sound hs'.sound hstart hfirst hfirst' with
        ⟨e, e', he, he'⟩ | ⟨stats, hfin, hfin', hrun⟩
      · exact Or.inl ⟨e, e', he, he', hlength⟩
      · exact Or.inr ⟨stats, stats, hfin, hfin', rfl, hrun⟩
    · rw [hlast', List.forall₂_nil_left_iff] at hlockstep
      simp at hlockstep
  · rcases stages_eq_nil_or_append s' with ⟨hnil', _⟩ | ⟨ts', t', hlast'⟩
    · rw [hnil', hlast, List.forall₂_nil_right_iff] at hlockstep
      simp at hlockstep
    · have hm : t.Matches t' := by
        rw [hlast, hlast', ← List.forall₂_reverse_iff, List.reverse_append, List.reverse_append] at hlockstep
        exact (List.forall₂_cons.1 hlockstep).1
      have hend := hm.outcome_cases hs.sound hs'.sound hsame hg hlast hlast'
      rcases outcome_cases hlast with ⟨e, he, hfailed⟩ | ⟨p, stats, hp, hfin⟩
      · rcases outcome_cases hlast' with ⟨e', _, hfailed'⟩ | ⟨p', _, hp', _⟩
        · exact Or.inl ⟨e, e', hfailed, hfailed', hlength⟩
        · rw [he, hp'] at hend
          simp at hend
      · rcases outcome_cases hlast' with ⟨e', he', _⟩ | ⟨p', stats', _, hfin'⟩
        · rw [hp, he'] at hend
          simp at hend
        · exact Or.inr ⟨stats, stats', hfin, hfin',
            hsame.same_of_finished hs.sound hs'.sound hg hlast hlast' hm hfin hfin'⟩

/-- Two correspondents at two workers do the same as two at one worker: five rounds, with two messages
withdrawn. -/
theorem partition_independent_correspondents :
    correspondents.IsSetUp ∧ housemates.IsSetUp ∧ correspondents.SameSetup housemates ∧
      (∀ u x, correspondents.slot? u = some x →
        x.Survives correspondents.table correspondents.config.startTime) ∧ correspondents.Genuine ∧
      ∃ stats stats', correspondents.outcome = .finished stats ∧ housemates.outcome = .finished stats' ∧
        stats.rounds = 5 ∧ stats.cancelled = 2 ∧
        { stats with workers := [] } = { stats' with workers := [] } ∧
        correspondents.SameRun housemates := by
  have hsame : correspondents.SameSetup housemates := ⟨rfl, rfl, rfl⟩
  have hcompleted : ∀ x ∈ correspondents.placed, (x.startCall (P := Mark) correspondents.table
      correspondents.config.startTime).ending = .completed := by decide +kernel
  have hstart : ∀ u x, correspondents.slot? u = some x →
      x.Survives correspondents.table correspondents.config.startTime := fun u x hx c hc => by
    have hmem := isSetUp_correspondents.sound.mem_placed.2 (Sound.id_of_slot? hx ▸ hx)
    cases (hcompleted x hmem).symm.trans hc
  have hg : correspondents.Genuine := by decide +kernel
  refine ⟨isSetUp_correspondents, isSetUp_housemates, hsame, hstart, hg, ?_⟩
  rcases isSetUp_correspondents.partition_independent isSetUp_housemates hsame hstart hg with
    ⟨e, e', he, _⟩ | ⟨stats, stats', hfin, hfin', hstats, hrun⟩
  · cases outcome_correspondents.symm.trans he
  · cases outcome_correspondents.symm.trans hfin
    exact ⟨_, stats', hfin, hfin', rfl, rfl, hstats, hrun⟩

end Scheduler

end EventSim
