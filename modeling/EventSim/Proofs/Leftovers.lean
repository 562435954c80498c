import EventSim.Proofs.Cancellation

set_option autoImplicit false

/-!
# What the end of a run leaves

An end time cuts a run off. The run goes on for as long as something that is due by the end may still be
scheduled, even if the horizon lies just at the end, and so nothing is lost that should have been delivered:
what is left when the run finishes is due after the end. A run without an end time leaves nothing.

## Main definitions

* `EventSim.Scheduler.leftOver` — what is neither handed over nor withdrawn in a run.
* `EventSim.Scheduler.Serves` — a run delivers everything that it should, and counts what it leaves.
* `EventSim.Scheduler.couriers` — two units that count down beyond the end.

## Main results

* `EventSim.Stage.lt_of_mem_remaining` — what remains when the end is passed is due after it.
* `EventSim.Scheduler.Sound.exists_perm_of_finished` — where all messages are when a run finishes.
* `EventSim.Scheduler.IsSetUp.serves` — every run that finishes delivers everything that it should.
-/

namespace EventSim

variable {U P : Type} [Payload P] [SimUnit U P]

/-! ## The end of a run -/

namespace RunConfig

variable {config : RunConfig} {horizon finish : SimTime}

/-- The end is passed just if it is earlier than the horizon. -/
lemma reachedEnd_eq_true_iff :
    config.reachedEnd horizon = true ↔ ∃ finish ∈ config.endTime, finish < horizon := by
  unfold reachedEnd
  cases config.endTime with
  | none => simp
  | some finish => simp

/-- When the end is passed, everything is due that is not later than the end. -/
lemma deliveryLimit_eq_of_lt (hend : config.endTime = some finish) (h : finish < horizon) :
    config.deliveryLimit horizon = finish := by
  rw [deliveryLimit, hend]
  exact min_eq_right (le_of_lt h)

end RunConfig

namespace Stage

variable {config : RunConfig} {t : Stage U P} {m : Message P} {finish : SimTime}

/-- **What remains when the end is passed is due after it**: what waits was beyond the limit, and what is
staged was scheduled for no time before the horizon. -/
theorem lt_of_mem_remaining (hc : t.engine.Coherent t.past) (hend : config.endTime = some finish)
    (h : finish < t.horizon.current) (hm : m ∈ t.remaining config) : finish < m.time := by
  rw [remaining, List.mem_append] at hm
  rcases hm with hm | hm
  · have hlt := Engine.lt_of_mem_waiting_runRound hm
    rwa [RunConfig.deliveryLimit_eq_of_lt hend h] at hlt
  · have haccepted := (hc.perm_messages_runRound config t.horizon.current).subset hm
    exact lt_of_lt_of_le h ((Engine.sent_runRound config t.past t.horizon.current t.engine).1 m haccepted)

/-- The figures of a round without fault count what remains. -/
lemma pending_summary (hf : (t.record config).fault = none) :
    (t.record config).summary.pending = (t.remaining config).length := by
  have hqueued := (Engine.summary_of_success hf).2.1
  have hstaged := (Engine.counts_runRound config t.past t.horizon.current t.engine).2
  rw [RoundSummary.pending, remaining, List.length_append]
  exact congrArg₂ (· + ·) hqueued hstaged

end Stage

/-! ## What a run leaves -/

namespace Scheduler

variable {s : Scheduler U P} {m : Message P} {stats : RunStats}

/-- The messages of a run that are neither handed over nor withdrawn. The seeds among them are those that stand
when the run begins. -/
def leftOver (s : Scheduler U P) : List (Message P) :=
  (s.posted s.stages).filter fun m =>
    m.id ∉ (s.delivered s.stages).map (·.id) ∧ m.id ∉ (withdrawn s.stages).map (·.id)

/-- What a run that finishes with the given figures does with its messages. -/
structure Serves (s : Scheduler U P) (stats : RunStats) : Prop where
  /-- Nothing is delivered twice, withdrawn twice, or both delivered and withdrawn. -/
  nodup : ((s.delivered s.stages ++ withdrawn s.stages).map (·.id)).Nodup
  /-- What is delivered or withdrawn has been scheduled. -/
  subset : s.delivered s.stages ++ withdrawn s.stages ⊆ s.posted s.stages
  /-- What is due by the end is delivered or withdrawn. Without an end, everything is. -/
  served : ∀ m ∈ s.posted s.stages, (∀ finish ∈ s.config.endTime, m.time ≤ finish) →
    m ∈ s.delivered s.stages ∨ m ∈ withdrawn s.stages
  /-- Nothing is delivered that is due after the end. -/
  le_end : ∀ finish ∈ s.config.endTime, ∀ m ∈ s.delivered s.stages, m.time ≤ finish
  /-- The figures count what is left. -/
  undelivered : stats.undelivered = s.leftOver.length
  /-- What is left is due after the end. -/
  late : ∀ m ∈ s.leftOver, ∃ finish ∈ s.config.endTime, finish < m.time
  /-- Without an end nothing is left. -/
  none_left : s.config.endTime = none → s.leftOver = [] ∧ stats.undelivered = 0

/-- Nothing is delivered that is due after the end, whether or not the run finishes. -/
lemma Sound.le_end_of_mem_delivered (hs : s.Sound) {finish : SimTime} (hend : finish ∈ s.config.endTime)
    (hm : m ∈ s.delivered s.stages) : m.time ≤ finish := by
  obtain ⟨t, ht, hm⟩ := List.mem_flatMap.1 hm
  obtain ⟨h, hh, rfl⟩ := List.mem_map.1 hm
  exact (Stage.of_handled (hs.coherent_of_mem ht) hh).2.2 finish hend

/-- Without units nothing is staged. -/
lemma Sound.opening_eq_nil (hs : s.Sound) (h : s.leastLookahead = none) : s.opening = [] := by
  have hseeds : s.seeds.toList = [] := List.eq_nil_iff_forall_not_mem.2 fun m hm => by
    have htarget := hs.seed_target m hm
    rw [registered?_eq_none h] at htarget
    cases htarget
  rw [opening, hseeds, hs.placed_eq_nil h]
  rfl

/-- **Where all messages are when a run finishes**: they are delivered, withdrawn, or left. What is left is
counted, and due after the end. -/
theorem Sound.exists_perm_of_finished (hs : s.Sound) (hstats : s.outcome = .finished stats) :
    ∃ ms, (s.posted s.stages).Perm (s.delivered s.stages ++ (withdrawn s.stages ++ ms)) ∧
      stats.undelivered = ms.length ∧ ∀ m ∈ ms, ∃ finish ∈ s.config.endTime, finish < m.time := by
  rcases stages_eq_nil_or_append s with ⟨hnil, hfirst⟩ | ⟨ts, t, h⟩
  · -- a run without units has no messages
    refine ⟨[], ?_, ?_, by simp⟩
    · rw [posted, hs.opening_eq_nil (leastLookahead_eq_none_of_finished hstats hfirst), hnil]
      exact List.Perm.refl []
    · rw [stats_eq_of_finished hstats hfirst]
      rfl
  · obtain ⟨hf, _, _, hfigures⟩ := hs.stats_of_finished h hstats
    refine ⟨t.remaining s.config, hs.perm_of_finished hstats h, ?_, ?_⟩
    · rw [← Stage.pending_summary hf, hfigures]
    · intro m hm
      rcases outcome_cases h with ⟨e, _, hfailed⟩ | ⟨p, _, hp, _⟩
      · cases hstats.symm.trans hfailed
      obtain ⟨_, _, _, hstop⟩ := Stage.of_outcome hp
      rcases hstop with hzero | hend
      · rw [Stage.pending_summary hf, List.length_eq_zero_iff] at hzero
        rw [hzero] at hm
        cases hm
      · obtain ⟨finish, hfinish, hlt⟩ := RunConfig.reachedEnd_eq_true_iff.1 hend
        exact ⟨finish, hfinish, Stage.lt_of_mem_remaining (hs.coherent_of_stages_eq h) hfinish hlt hm⟩

/-- What is left are the messages that are accounted for in no other way. -/
lemma Sound.perm_leftOver (hs : s.Sound) {ms : List (Message P)}
    (hp : (s.posted s.stages).Perm (s.delivered s.stages ++ (withdrawn s.stages ++ ms))) :
    s.leftOver.Perm ms := by
  have hnodup := (hp.map (·.id)).nodup_iff.1 (hs.nodup_posted (List.append_nil s.stages).symm)
  rw [List.map_append, List.map_append, List.nodup_append] at hnodup
  obtain ⟨_, hrest, hdelivered⟩ := hnodup
  obtain ⟨_, _, hwithdrawn⟩ := List.nodup_append.1 hrest
  have hdrop : ∀ ns : List (Message P), (∀ m ∈ ns, m.id ∈ (s.delivered s.stages).map (·.id) ∨
      m.id ∈ (withdrawn s.stages).map (·.id)) → (ns.filter fun m =>
        m.id ∉ (s.delivered s.stages).map (·.id) ∧ m.id ∉ (withdrawn s.stages).map (·.id)) = [] := by
    intro ns hns
    apply List.filter_eq_nil_iff.2
    intro m hm hkeep
    obtain ⟨hkeep, hkeep'⟩ := of_decide_eq_true hkeep
    exact (hns m hm).elim hkeep hkeep'
  have hkeep : (ms.filter fun m => m.id ∉ (s.delivered s.stages).map (·.id) ∧
      m.id ∉ (withdrawn s.stages).map (·.id)) = ms := by
    apply List.filter_eq_self.2
    intro m hm
    have hid : m.id ∈ ms.map (·.id) := List.mem_map_of_mem hm
    apply decide_eq_true
    constructor
    · intro hd
      exact hdelivered _ hd _ (List.mem_append_right _ hid) rfl
    · intro hw
      exact hwithdrawn _ hw _ hid rfl
  have hfilter := hp.filter fun m =>
    m.id ∉ (s.delivered s.stages).map (·.id) ∧ m.id ∉ (withdrawn s.stages).map (·.id)
  rw [List.filter_append, List.filter_append, hdrop _ fun m hm => Or.inl (List.mem_map_of_mem hm),
    hdrop _ fun m hm => Or.inr (List.mem_map_of_mem hm), hkeep] at hfilter
  exact hfilter

/-- **An end time loses nothing that should be delivered.** Every run that finishes delivers or withdraws
whatever is due by its end, delivers nothing else, and counts exactly what it leaves.

**Proof sketch.** All messages are delivered, withdrawn, or remain after the last round
(`Sound.perm_of_finished`). A run finishes when nothing remains, or when the horizon is later than the end; in
that round everything due by the end was within the limit, and nothing earlier than the horizon was scheduled
(`Stage.lt_of_mem_remaining`). A horizon just at the end does not stop the run. -/
theorem IsSetUp.serves (hs : s.IsSetUp) (hstats : s.outcome = .finished stats) : s.Serves stats := by
  have hsound := hs.sound
  obtain ⟨ms, hperm, hcount, hlate⟩ := hsound.exists_perm_of_finished hstats
  have hleft := hsound.perm_leftOver hperm
  have hundelivered : stats.undelivered = s.leftOver.length := hcount.trans hleft.length_eq.symm
  have hnodup := (hperm.map (·.id)).nodup_iff.1 (hsound.nodup_posted (List.append_nil s.stages).symm)
  rw [← List.append_assoc] at hperm hnodup
  refine ⟨?_, ?_, ?_, ?_, hundelivered, ?_, ?_⟩
  · rw [List.map_append, List.nodup_append] at hnodup
    exact hnodup.1
  · intro m hm
    exact hperm.symm.subset (List.mem_append_left _ hm)
  · intro m hm hdue
    rcases List.mem_append.1 (hperm.subset hm) with hserved | hremaining
    · exact List.mem_append.1 hserved
    · obtain ⟨finish, hend, hlt⟩ := hlate m hremaining
      exact absurd (hdue finish hend) (not_le.2 hlt)
  · intro finish hend m hm
    exact hsound.le_end_of_mem_delivered hend hm
  · intro m hm
    exact hlate m (hleft.subset hm)
  · intro hnone
    have hnil : s.leftOver = [] := by
      apply List.eq_nil_iff_forall_not_mem.2
      intro m hm
      obtain ⟨finish, hend, _⟩ := hlate m (hleft.subset hm)
      rw [hnone] at hend
      cases hend
    exact ⟨hnil, by rw [hundelivered, hnil]; rfl⟩

/-- **A run whose end is earlier than its first horizon** has one round, and finishes if that is without fault. -/
theorem Sound.exists_stages_of_end_lt (hs : s.Sound) {delta finish : SimTime} (hdelta : s.leastLookahead = some delta)
    (hstarts : ∀ u x, s.slot? u = some x → x.Starts s.table s.config.startTime) (hend : finish ∈ s.config.endTime)
    (hle : s.config.startTime ≤ finish) (hlt : finish < (Horizon.first s.config.startTime delta).current) :
    ∃ t, s.stages = [t] ∧ ((t.record s.config).fault = none → ∃ stats, s.outcome = .finished stats) := by
  have hfirst := hs.firstStage?_eq_some_iff.2 ⟨delta, hdelta, lt_of_le_of_lt hle hlt, hstarts, rfl⟩
  have hpassed : s.config.reachedEnd (Horizon.first s.config.startTime delta).current = true :=
    RunConfig.reachedEnd_eq_true_iff.2 ⟨finish, hend, hlt⟩
  generalize ht : (⟨0, Horizon.first s.config.startTime delta, s.firstEngine⟩ : Stage U P) = t at hfirst
  obtain ⟨hlast, hfinishes⟩ := Stage.outcome_of_reachedEnd (t := t) (by rw [← ht]; exact hpassed)
  have hstages : s.stages = [] ++ [t] := by
    rw [stages, hfirst, Option.elim_some, Stage.stages_of_none hlast, List.nil_append]
  refine ⟨t, hstages, fun hfault => ?_⟩
  obtain ⟨p, hp⟩ := hfinishes hfault
  rcases outcome_cases hstages with ⟨e, he, -⟩ | ⟨-, stats, -, hstats⟩
  · cases hp.symm.trans he
  · exact ⟨stats, hstats⟩

end Scheduler

/-! ## A run that is cut off -/

/-- A unit that counts down from five, once a second, and does not know what to do with an eight. -/
def courier : RuleTable where
  lookahead := ⟨Binary64.ofNat 1⟩
  opening := [.send (.fromNow Binary64.zero) .self (.exactly ⟨5⟩) none false]
  rules :=
    [⟨some 8, some 8, none, [.fail "lost"]⟩,
      ⟨some 1, none, none, [.send (.fromNow (Binary64.ofNat 1)) .self (.shifted (-1)) none false]⟩]

namespace Scheduler

/-- Two couriers at two workers, with the given end. The first one has a nine as well. -/
def couriers (finish : Option SimTime) : Scheduler RuleTable Mark :=
  pair { workers := 2, endTime := finish } courier (Id.ofNat 0) (Id.ofNat 1)

/-- What the couriers come to by the end. -/
lemma outcome_couriers : (couriers (some ⟨Binary64.ofNat 3⟩)).outcome = .finished {
    rounds := 4, horizonDelta := ⟨Binary64.ofNat 1⟩, finalHorizon := ⟨Binary64.ofNat 4⟩
    seeded := 3, delivered := 9, produced := 9, cancelled := 0, undelivered := 3
    workers := [⟨Id.ofNat 0, 5, 5, 0, 4, 0⟩, ⟨Id.ofNat 1, 4, 4, 0, 4, 0⟩] } := by
  decide +kernel

/-- What the first courier schedules when it receives the three: a two, due just at the end. -/
def lastCall : Message Mark := ⟨⟨Id.ofNat 0, 3⟩, Id.ofNat 0, ⟨Binary64.ofNat 3⟩, ⟨2⟩⟩

/-- In the third round, whose horizon lies just at the end, the first courier schedules a message for that very
instant. It is delivered, and three later messages are left. -/
theorem serves_couriers :
    ∃ stats, (couriers (some ⟨Binary64.ofNat 3⟩)).outcome = .finished stats ∧
      (couriers (some ⟨Binary64.ofNat 3⟩)).Serves stats ∧
      (∃ t ∈ (couriers (some ⟨Binary64.ofNat 3⟩)).round? 3, t.horizon.current = lastCall.time ∧
        lastCall ∈ (t.record (couriers (some ⟨Binary64.ofNat 3⟩)).config).accepted) ∧
      lastCall ∈ (couriers (some ⟨Binary64.ofNat 3⟩)).delivered
        (couriers (some ⟨Binary64.ofNat 3⟩)).stages ∧
      (couriers (some ⟨Binary64.ofNat 3⟩)).leftOver.length = 3 := by
  have hserves := (isSetUp_pair rfl courier _ _ :
    (couriers (some ⟨Binary64.ofNat 3⟩)).IsSetUp).serves outcome_couriers
  have hposted : lastCall ∈ (couriers (some ⟨Binary64.ofNat 3⟩)).posted
      (couriers (some ⟨Binary64.ofNat 3⟩)).stages := by decide +kernel
  have hnot : lastCall ∉ withdrawn (couriers (some ⟨Binary64.ofNat 3⟩)).stages := by decide +kernel
  have hdue : ∀ finish ∈ (couriers (some ⟨Binary64.ofNat 3⟩)).config.endTime,
      lastCall.time ≤ finish := by decide +kernel
  exact ⟨_, outcome_couriers, hserves, by decide +kernel,
    (hserves.served _ hposted hdue).resolve_right hnot, hserves.undelivered.symm⟩

end Scheduler

end EventSim
