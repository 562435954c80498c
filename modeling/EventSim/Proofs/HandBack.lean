import EventSim.Proofs.Exits
import EventSim.Proofs.Faults
import EventSim.Proofs.SetupLog
import EventSim.Proofs.Turns

set_option autoImplicit false

/-!
# Units are handed back

A run takes all units away from the scheduler and spreads them over the workers. Whichever way the run ends, unless
a unit breaks down while it starts, the scheduler has all of them back: each under its own number, pinned to its
own worker, and as its own turns have left it.

## Main definitions

* `EventSim.Scheduler.Lived` — schedulers that have been set up and run, with the turns of their units.
* `EventSim.Scheduler.HandedBack` — the units after a run, compared with those before it.
* `EventSim.Scheduler.Counted` — what holds of a scheduler all its life.

## Main results

* `EventSim.Scheduler.Exit.returns` — each way in which a run ends hands the units back.
* `EventSim.Scheduler.Counted.perform`, `EventSim.Scheduler.Counted.handedBack_run` — what a call of the setup and
  a run keep.
* `EventSim.Scheduler.Lived.handedBack` — every run that returns hands the units back.
-/

namespace EventSim

namespace Scheduler

open Turn (Leads)

variable {U P : Type} [Payload P] [SimUnit U P] {s s' : Scheduler U P} {o : RunOutcome}

/-! ## The ends of a run -/

/-- What a run leaves if it hands the units back. -/
structure Returns (s s' : Scheduler U P) : Prop where
  /-- As many numbers have been given. -/
  count : s'.unitCount = s.unitCount
  /-- Under the same numbers are units that are pinned to the same workers. -/
  worker : ∀ u, s'.workerOf? u = s.workerOf? u
  /-- Each unit is as its turns have left it. -/
  unit : ∀ u x, s.slot? u = some x → ∃ y, s'.slot? u = some y ∧ Leads x (s.turnsOf u) y

/-- If a run does not come to a first round, only starts are among the turns. -/
lemma turns_eq_starts (h : ∀ t, s.firstStage? ≠ some t) : s.turns = s.starts := by
  rw [turns, stages, Option.eq_none_iff_forall_ne_some.2 h]
  exact List.append_nil _

/-- If there are no units or the first horizon does not move, there are no turns. -/
lemma turns_eq_nil (h : ∀ delta, s.leastLookahead = some delta →
    ¬ s.config.startTime < (Horizon.first s.config.startTime delta).current) : s.turns = [] := by
  rw [turns_eq_starts, starts, if_neg]
  · rintro ⟨_, hany⟩
    obtain ⟨delta, hdelta, hmoves⟩ := (Option.any_eq_true _ _).1 hany
    exact h delta hdelta (of_decide_eq_true hmoves)
  · intro t ht
    obtain ⟨delta, _, _, hdelta, hmoves, _⟩ := firstStage?_eq_some.1 ht
    exact h delta hdelta hmoves

omit [Payload P] [SimUnit U P] in
/-- What the scheduler has of its units depends on them alone. -/
lemma registered?_congr {s₁ : Scheduler U P} (h : s'.units = s₁.units) (u : UnitId) :
    s'.registered? u = s₁.registered? u := by
  rw [registered?_eq, registered?_eq, h]

/-- Whether the units are handed back depends on them alone. -/
lemma Returns.congr {s₁ : Scheduler U P} (h : s.Returns s₁) (hunits : s'.units = s₁.units) : s.Returns s' := by
  refine ⟨(congrArg Array.size hunits).trans h.count, fun u => ?_, fun u x hx => ?_⟩
  · rw [← h.worker, workerOf?, workerOf?, registered?_congr hunits]
  · rw [slot?, registered?_congr hunits]
    exact h.unit u x hx

/-- If nobody takes a turn, the units may be left as they are. -/
lemma Returns.refl (h : s.turns = []) : s.Returns s :=
  ⟨rfl, fun _ => rfl, fun u x hx => ⟨x, hx, by rw [turnsOf, h]; rfl⟩⟩

/-- After its last round a run hands the units back. -/
lemma Sound.returns_recovered (hs : s.Sound) {ts : List (Stage U P)} {t : Stage U P} (h : s.stages = ts ++ [t]) :
    s.Returns (s.recovered (t.after s.config)) := by
  obtain ⟨hc, htable⟩ := hs.coherent_after h
  refine ⟨unitCount_restore s _, hs.workerOf?_restore (htable ▸ hc.places), fun u x hx => ?_⟩
  obtain ⟨y, hy, hleads⟩ := hs.leads_after h hx
  exact ⟨y, (hs.slot?_recovered hc htable u).trans hy, hleads⟩

/-- If a unit complains when it starts, all units are handed back, those included that have not started. -/
lemma Sound.returns_restore (hs : s.Sound) {delta : SimTime} {started : List (StartUp U P)} {e : RunError}
    (hdelta : s.leastLookahead = some delta)
    (hmoves : s.config.startTime < (Horizon.first s.config.startTime delta).current)
    (hstart : s.startUp = .ok started) (hfault : started.findSome? (·.fault) = some e) :
    s.Returns (s.vacated.restore (started.map (·.slots))) := by
  obtain ⟨hplaces, hunits⟩ := hs.leads_starts hdelta hmoves hstart
  refine ⟨unitCount_restore s _, hs.workerOf?_restore hplaces, fun u x hx => ?_⟩
  obtain ⟨y, hy, hleads⟩ := hunits u x hx
  refine ⟨y, (hs.slot?_restore hplaces u).trans hy, ?_⟩
  rw [turnsOf, turns_eq_starts]
  · exact hleads
  · intro t ht
    obtain ⟨_, started', _, _, _, _, hstart', hnone, _⟩ := firstStage?_eq_some.1 ht
    cases hstart.symm.trans hstart'
    cases hfault.symm.trans hnone

/-- **Each way in which a run ends hands the units back**, unless a unit breaks down while it starts. -/
theorem Exit.returns (hs : s.Sound) (h : s.Exit s' o) (hreturns : ∀ c, o ≠ .crashed c) : s.Returns s' := by
  cases h with
  | idle hnone =>
    refine (Returns.refl (turns_eq_nil fun delta hdelta => ?_)).congr rfl
    cases hnone.symm.trans hdelta
  | stalled hdelta hstalled =>
    refine (Returns.refl (turns_eq_nil fun delta' hdelta' => ?_)).congr rfl
    cases hdelta.symm.trans hdelta'
    exact hstalled
  | broken hdelta hmoves hstart => exact absurd rfl (hreturns _)
  | unready hdelta hmoves hstart hfault => exact (hs.returns_restore hdelta hmoves hstart hfault).congr rfl
  | failed h hlast => exact (hs.returns_recovered h).congr rfl
  | finished h hlast => exact (hs.returns_recovered h).congr rfl

/-- However a run ends, it is over. -/
lemma Exit.state_ne (h : s.Exit s' o) : s'.state ≠ .setup := by
  cases h <;> exact RunState.noConfusion

/-! ## The life of a scheduler -/

/-- The schedulers that arise from any operations of the setup and any runs that return, in any order, with the
turns that each unit has taken. -/
inductive Lived : (UnitId → List (Turn U P)) → Scheduler U P → Prop
  /-- A new scheduler has no units. -/
  | new {config : RunConfig} {s : Scheduler U P} (h : Scheduler.new config = .ok s) : Lived (fun _ => []) s
  /-- An operation of the setup is carried out, or refused. -/
  | perform {past : UnitId → List (Turn U P)} {s : Scheduler U P} (h : Lived past s) (c : SetupCall U P) :
    Lived past (s.perform c).2
  /-- A run is carried out, or refused. -/
  | run {past : UnitId → List (Turn U P)} {s : Scheduler U P} (h : Lived past s) {α : Type}
    (observe : α → Observation P → α) (a : α) (hreturns : ∀ c, (s.run observe a).2.2 ≠ .crashed c) :
    Lived (fun u => past u ++ s.turnsOf u) (s.run observe a).2.1

variable {past : UnitId → List (Turn U P)}

/-- A second run is refused. -/
lemma run_of_state_ne (h : s.state ≠ .setup) {α : Type} (observe : α → Observation P → α) (a : α) :
    s.run observe a = (a, s, .failed .alreadyStarted) := if_pos h

/-- A run that is refused has no turns. -/
lemma turns_of_state_ne (h : s.state ≠ .setup) : s.turns = [] := by
  rw [turns_eq_starts, starts, if_neg fun hstart => h hstart.1]
  intro t ht
  exact h (firstStage?_eq_some.1 ht).choose_spec.choose_spec.1

/-- When the run is over units may be taken away or changed in their states, and that is all. -/
lemma perform_of_state_ne (h : s.state ≠ .setup) (c : SetupCall U P) : (s.perform c).2.state ≠ .setup ∧
    ∀ u r, (s.perform c).2.registered? u = some r → ∃ r₀, s.registered? u = some r₀ ∧ r.nextSeq = r₀.nextSeq := by
  cases c with
  | register unit worker =>
    rw [perform, Scheduler.register, if_pos h]
    exact ⟨h, fun u r hr => ⟨r, hr, rfl⟩⟩
  | unregister id =>
    rw [perform]
    rcases s.unregister_reply id with ⟨e, heq⟩ | ⟨r₀, _, heq⟩ <;> rw [heq]
    · exact ⟨h, fun u r hr => ⟨r, hr, rfl⟩⟩
    · refine ⟨h, fun u r hr => ?_⟩
      rw [registered?_vacate (s := s) rfl] at hr
      split at hr
      · cases hr
      · exact ⟨r, hr, rfl⟩
  | schedule target time payload =>
    rw [perform, Scheduler.schedule, if_pos h]
    exact ⟨h, fun u r hr => ⟨r, hr, rfl⟩⟩
  | unschedule handle =>
    rw [perform, Scheduler.unschedule, if_pos h]
    exact ⟨h, fun u r hr => ⟨r, hr, rfl⟩⟩
  | updateUnit id f =>
    refine ⟨h, fun u r hr => ?_⟩
    rw [perform, registered?_updateUnit] at hr
    obtain ⟨r₀, hr₀, rfl⟩ := Option.map_eq_some_iff.1 hr
    refine ⟨r₀, hr₀, ?_⟩
    split <;> rfl

/-- The units after a run, compared with those before it, when they had taken some turns already. -/
structure HandedBack (s : Scheduler U P) (past : UnitId → List (Turn U P)) (s' : Scheduler U P) : Prop where
  /-- As many numbers have been given. -/
  count : s'.unitCount = s.unitCount
  /-- There is a unit under a number just if there was one before. -/
  held : ∀ u, (s'.unit? u).isSome = (s.unit? u).isSome
  /-- It is pinned to the same worker. -/
  worker : ∀ u, s'.workerOf? u = s.workerOf? u
  /-- It is the same unit, as the turns that it has taken itself in this run have left it. -/
  same : ∀ u x, s.slot? u = some x → ∃ y, s'.slot? u = some y ∧ Leads x (s.turnsOf u) y
  /-- Its sequence counter is the number of messages that it has had accepted. -/
  counter : ∀ u r, s'.registered? u = some r →
    r.nextSeq = ((past u ++ s.turnsOf u).flatMap (·.handles)).length

/-- A run that returns hands the units back, with their counters if these were right before. -/
lemma Returns.handedBack_of_counter (h : s.Returns s')
    (hcounter : ∀ u r, s.registered? u = some r → r.nextSeq = ((past u).flatMap (·.handles)).length) :
    s.HandedBack past s' := by
  have hheld : ∀ (s : Scheduler U P) u, (s.unit? u).isSome = (s.workerOf? u).isSome := fun s u => by
    rw [unit?, workerOf?, Option.isSome_map, Option.isSome_map]
  refine ⟨h.count, fun u => by rw [hheld, hheld, h.worker], h.worker, h.unit, fun u r' hr' => ?_⟩
  have hworker := h.worker u
  rw [workerOf?, hr', workerOf?] at hworker
  obtain ⟨r, hr, _⟩ := Option.map_eq_some_iff.1 hworker.symm
  obtain ⟨y, hy, hleads⟩ := h.unit u _ (slot?_of_registered? hr)
  rw [slot?, hr'] at hy
  cases hy
  rw [List.flatMap_append, List.length_append, ← hcounter u r hr]
  exact hleads.nextSeq.2

/-- A scheduler that is set up has a life without turns. -/
lemma IsSetUp.lived (h : s.IsSetUp) : Lived (fun _ => []) s := by
  induction h with
  | new h => exact .new h
  | register _ unit worker ih => exact ih.perform (.register unit worker)
  | unregister _ id ih => exact ih.perform (.unregister id)
  | @schedule s s' _ target time payload reply h ih =>
    have hlived := ih.perform (.schedule target time payload)
    rw [Scheduler.perform, h] at hlived
    exact hlived
  | unschedule _ handle ih => exact ih.perform (.unschedule handle)
  | updateUnit _ id f ih => exact ih.perform (.updateUnit id f)

/-- A scheduler is set up and nothing has happened yet, or its run is over and its units have counted the messages
that they have had accepted. -/
def Counted (past : UnitId → List (Turn U P)) (s : Scheduler U P) : Prop :=
  (s.IsSetUp ∧ ∀ u, past u = []) ∨ (s.state ≠ .setup ∧
    ∀ u r, s.registered? u = some r → r.nextSeq = ((past u).flatMap (·.handles)).length)

namespace Counted

/-- Calls of the setup keep this. -/
lemma perform (h : Counted past s) (c : SetupCall U P) : Counted past (s.perform c).2 := by
  rcases h with ⟨hsetup, hpast⟩ | ⟨hstate, hcounter⟩
  · exact Or.inl ⟨hsetup.perform c, hpast⟩
  · obtain ⟨hstate', hunits⟩ := perform_of_state_ne hstate c
    refine Or.inr ⟨hstate', fun u r hr => ?_⟩
    obtain ⟨r₀, hr₀, hseq⟩ := hunits u r hr
    exact hseq.trans (hcounter u r₀ hr₀)

/-- **A run hands the units back and is over**, whether it is the first run or not. -/
theorem handedBack_run (h : Counted past s) {α : Type} (observe : α → Observation P → α) (a : α)
    (hreturns : ∀ c, (s.run observe a).2.2 ≠ .crashed c) :
    s.HandedBack past (s.run observe a).2.1 ∧ (s.run observe a).2.1.state ≠ .setup := by
  rcases h with ⟨hsetup, hpast⟩ | ⟨hstate, hcounter⟩
  · have hexit := hsetup.sound.exit observe a
    refine ⟨(hexit.returns hsetup.sound hreturns).handedBack_of_counter fun u r hr => ?_, hexit.state_ne⟩
    rw [hpast u]
    exact hsetup.sound.nextSeq_eq u r hr
  · rw [run_of_state_ne hstate]
    exact ⟨(Returns.refl (turns_of_state_ne hstate)).handedBack_of_counter hcounter, hstate⟩

end Counted

/-- **Whatever has been done with a scheduler**, its units have counted their messages. -/
theorem Lived.counted (h : Lived past s) : Counted past s := by
  induction h with
  | new h => exact Or.inl ⟨.new h, fun _ => rfl⟩
  | perform _ c ih => exact ih.perform c
  | run _ observe a hreturns ih =>
    obtain ⟨hback, hstate⟩ := ih.handedBack_run observe a hreturns
    exact Or.inr ⟨hstate, hback.counter⟩

/-- **Units are handed back.** Whatever has been done with a scheduler, with runs in between or not: every run that
returns leaves the same units under the same numbers, pinned to the same workers. This holds if there are no units
or the first horizon does not move, if a unit complains when it starts, if a unit faults or breaks down in a round,
if the horizon stalls later, if the run finishes, and if it is refused because another run has been there. Each
unit is as its own turns have left it, and has counted the messages that it has had accepted.

**Proof sketch.** Induction on what has been done: before the first run no unit has sent anything, and after it no
run begins (`Counted`). In the first run all units have their places at the workers. They keep them when they start
(`Sound.leads_starts`) and in every round (`Stage.leads_turns`), where they change by their own turns only. So each
way in which the run ends finds them there (`Exit.returns`). In every turn the counter goes up with the messages
that are accepted (`Turn.Leads.nextSeq`). -/
theorem Lived.handedBack (h : Lived past s) {α : Type} (observe : α → Observation P → α) (a : α)
    (hreturns : ∀ c, (s.run observe a).2.2 ≠ .crashed c) : s.HandedBack past (s.run observe a).2.1 :=
  (h.counted.handedBack_run observe a hreturns).1

/-! ### A run that does not come to its first round -/

/-- A unit that writes to a unit that is not there when it starts. -/
def novice : RuleTable where
  lookahead := ⟨Binary64.ofNat 1⟩
  opening := [.send (.fromNow (Binary64.ofNat 1)) (.unit (Id.ofNat 9)) (.exactly ⟨1⟩) none false]

/-- A novice among bookkeepers at two workers. The number between the first one and the novice is vacant. -/
def rehearsal : Scheduler RuleTable Mark :=
  (({ config := { workers := 2 } } : Scheduler RuleTable Mark).performAll
    [.register bookkeeper (Id.ofNat 0), .register bookkeeper (Id.ofNat 1), .unregister (Id.ofNat 1),
      .register novice (Id.ofNat 0), .register bookkeeper (Id.ofNat 0), .register bookkeeper (Id.ofNat 1)]).2

lemma isSetUp_rehearsal : rehearsal.IsSetUp := (setUpBy_performAll rfl _).isSetUp

/-- The turns that the first units of a scheduler take in a run, and their sequence counters after it. -/
def tally (s : Scheduler RuleTable Mark) (n : Nat) : List (Nat × Option Nat) :=
  (List.range n).map fun i =>
    ((s.turnsOf (Id.ofNat i)).length, (s.afterRun.registered? (Id.ofNat i)).map (·.nextSeq))

/-- The novice complains before the next unit at its worker can start, while the unit at the other worker starts.
The saboteurs fault in the same round, one by a refusal, one by a breakdown. In both runs all units come back. -/
theorem handedBack_rehearsal_sabotage :
    (Lived (fun _ => []) rehearsal ∧
      rehearsal.outcome = .failed (.startUp (Id.ofNat 2) (.unknownTarget (Id.ofNat 9))) ∧
      rehearsal.tally 5 = [(1, some 1), (0, none), (1, some 0), (0, some 0), (1, some 1)] ∧
      rehearsal.HandedBack (fun _ => []) rehearsal.afterRun) ∧
    Lived (fun _ => []) sabotage ∧ (∃ e, sabotage.outcome = .failed e) ∧
      sabotage.tally 3 = [(2, some 1), (2, some 1), (4, some 4)] ∧
      sabotage.HandedBack (fun _ => []) sabotage.afterRun := by
  have hrehearsal : rehearsal.outcome = .failed (.startUp (Id.ofNat 2) (.unknownTarget (Id.ofNat 9))) := by
    decide +kernel
  have hsabotage : sabotage.outcome = .failed (.unitFailed (Id.ofNat 1) (Id.ofNat 0) ⟨Binary64.ofNat 3⟩ "6"
      (.causality (Id.ofNat 1) (Id.ofNat 1) SimTime.zero ⟨Binary64.ofNat 3⟩ "0")) := by
    decide +kernel
  have hlived := isSetUp_rehearsal.lived
  have hlived' := isSetUp_sabotage.lived
  refine ⟨⟨hlived, hrehearsal, by decide +kernel, ?_⟩, hlived', ⟨_, hsabotage⟩, by decide +kernel, ?_⟩
  · exact hlived.handedBack Engine.keepRecords #[] fun c hc => by cases hrehearsal.symm.trans hc
  · exact hlived'.handedBack Engine.keepRecords #[] fun c hc => by cases hsabotage.symm.trans hc

end Scheduler

end EventSim
