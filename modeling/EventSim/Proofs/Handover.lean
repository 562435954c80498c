import EventSim.Proofs.Barriers
import EventSim.Proofs.Cancellation

set_option autoImplicit false

/-!
# From round to round

An inbox has two slots that take turns. What is posted in a round goes to the one slot, while every worker takes
out of the other what was posted in the round before. So nobody finds an envelope in the round in which it is
posted, and nothing is left behind: when all have reported, the slots have changed roles.

## Main definitions

* `EventSim.Session.takes`, `EventSim.Session.taken` — what the workers take out of their inboxes.
* `EventSim.Scheduler.HandsOver` — the slots in the course of a round.
* `EventSim.Scheduler.Relays` — the slots at a barrier.

## Main results

* `EventSim.Session.perm_envelopes_step`, `EventSim.Session.perm_envelopes_run` — what is taken out is no longer
  there, and nothing else gets lost.
* `EventSim.Session.staged_step` — nobody posts to a slot that is emptied in the round.
* `EventSim.Scheduler.Sound.staged_eq` — what is staged at a stage, worker by worker.
* `EventSim.Scheduler.IsSetUp.relays` — handing over in all rounds of a run.
-/

namespace EventSim

/-! ### Internal helpers: one part of a sum -/

/-- One part of a sum may be taken out of it. -/
lemma perm_append_flatMap_range {α : Type} {f : Nat → List α} {k n : Nat} (hk : n ≤ k → f k = []) :
    (f k ++ (List.range n).flatMap fun i => if i = k then [] else f i).Perm ((List.range n).flatMap f) := by
  have hsplit : ((List.range n).flatMap fun i => (if i = k then f i else []) ++ if i = k then [] else f i) =
      (List.range n).flatMap f :=
    List.flatMap_congr fun i _ => by split <;> simp
  have hone : ((List.range n).flatMap fun i => if i = k then f i else []) = f k := by
    rcases Nat.lt_or_ge k n with hlt | hle
    · refine (flatMap_eq_of_getElem? (x := k) (i := k) (by simp [hlt]) fun j y hj hne => ?_).trans (if_pos rfl)
      obtain ⟨_, rfl⟩ := List.getElem?_eq_some_iff.1 hj
      rw [List.getElem_range, if_neg hne]
    · rw [hk hle]
      refine List.flatMap_eq_nil_iff.2 fun i hi => if_neg ?_
      exact (Nat.lt_of_lt_of_le (List.mem_range.1 hi) hle).ne
  rw [← hsplit, ← hone]
  exact List.flatMap_append_perm _ _ _

variable {U P : Type}

/-! ## What the workers take out -/

namespace Session

section Takes

/-- What a worker takes out of its inbox when it does its next step, each with the number of the worker. It
takes something out only when it begins. -/
def takes (past : Nat) (x : Session U P) (k : Nat) : List (Nat × Envelope P) :=
  match x.threads[k]? with
  | none => []
  | some y => if y.isIdle then (x.postbox.takeOut y.worker.id past).1.map (y.worker.id.index, ·) else []

variable [Payload P] [SimUnit U P]

/-- What the workers take out of their inboxes when they do steps in the order of a schedule. -/
def taken (config : RunConfig) (round : Nat) (horizon : SimTime) :
    List Nat → Session U P → List (Nat × Envelope P)
  | [], _ => []
  | k :: schedule, x =>
    x.takes (round - 1) k ++ taken config round horizon schedule (x.step config round horizon k)

end Takes

variable [Payload P] [SimUnit U P] {config : RunConfig} {past k : Nat} {horizon : SimTime} {e : Engine U P}
  {x : Session U P}

/-- **Nobody posts to a slot that is emptied in the round.** A step leaves what was staged in the round before
as it is, except that a worker empties its own slot when it begins. -/
theorem staged_step (hindex : ∀ y ∈ x.threads[k]?, y.worker.id.index = k) (i : Nat) :
    (x.step config (past + 1) horizon k).postbox.staged i past =
      if i = k ∧ x.threads[k]?.any (·.isIdle) then [] else x.postbox.staged i past := by
  cases hy : x.threads[k]? with
  | none =>
    rw [step, hy]
    simp
  | some y =>
    have hpast := (y.steps_step config (past + 1) horizon x.postbox).staged.2.2.1 i
    rw [hindex y hy] at hpast
    rw [step_of_some hy]
    exact hpast

/-- **What is taken out in a step is no longer there**, and everything else is. -/
theorem perm_envelopes_step (x : Session U P) (k : Nat) :
    ((x.takes past k).map (·.2) ++ (x.step config (past + 1) horizon k).postbox.envelopes past).Perm
      (x.postbox.envelopes past) := by
  cases hy : x.threads[k]? with
  | none =>
    rw [takes, step, hy]
    exact List.Perm.refl _
  | some y =>
    obtain ⟨_, hsize, hpast, _⟩ := (y.steps_step config (past + 1) horizon x.postbox).staged
    rw [step_of_some hy, takes, hy, Postbox.envelopes, Postbox.envelopes, hsize,
      List.flatMap_congr fun i _ => hpast i]
    dsimp only
    cases y.isIdle with
    | false => simp
    | true =>
      have hperm := perm_append_flatMap_range (f := fun i => x.postbox.staged i past) (k := y.worker.id.index)
        (n := x.postbox.inboxes.size) Postbox.staged_eq_nil_of_size_le
      simpa [Postbox.takeOut] using hperm

/-- **What is taken out in some steps is no longer there**, and everything else is. -/
theorem perm_envelopes_run (x : Session U P) (schedule : List Nat) :
    ((x.taken config (past + 1) horizon schedule).map (·.2) ++
      (x.run config (past + 1) horizon schedule).postbox.envelopes past).Perm (x.postbox.envelopes past) := by
  induction schedule generalizing x with
  | nil => exact List.Perm.refl _
  | cons k schedule ih =>
    rw [taken, Nat.add_sub_cancel, List.map_append, List.append_assoc]
    exact ((ih _).append_left _).trans (x.perm_envelopes_step k)

/-- Whatever a worker takes out in a round was staged for it when the round began. -/
lemma During.mem_staged_of_taken (hx : During config past horizon e x) (schedule : List Nat) :
    ∀ p ∈ x.taken config (past + 1) horizon schedule, p.2 ∈ e.postbox.staged p.1 past := by
  induction schedule generalizing x with
  | nil => nofun
  | cons k schedule ih =>
    intro p hp
    rcases List.mem_append.1 hp with hp | hp
    · rw [Nat.add_sub_cancel, takes] at hp
      cases hy : x.threads[k]? with
      | none => simp [hy] at hp
      | some y =>
        have hpast := hx.staged_past hy
        cases hidle : y.isIdle with
        | false => simp [hy, hidle] at hp
        | true =>
          rw [hidle, if_pos rfl] at hpast
          simp only [hy, hidle, ↓reduceIte, Postbox.takeOut, hx.index_eq hy, hpast] at hp
          obtain ⟨z, hz, rfl⟩ := List.mem_map.1 hp
          exact hz
    · exact ih (hx.step k) p hp

/-- Nothing is left of the round before when all workers have reported. -/
lemma During.staged_past_of_complete (hx : During config past horizon e x) (hc : e.Coherent past)
    (hcomplete : x.Complete) (i : Nat) : x.postbox.staged i past = [] := by
  have hidle := (hc.runRound config horizon).idle i
  rw [Postbox.staged_congr (show (past + 1 + 1) % 2 = past % 2 by omega)] at hidle
  exact List.Perm.eq_nil (hidle ▸ (hx.shuffle_runRound hc hcomplete).staged i past)

end Session

section Runs

variable [Payload P] [SimUnit U P]

/-- What the workers take out of their inboxes in a round that follows a schedule. -/
def Stage.taken (config : RunConfig) (schedule : List Nat) (b : Stage U P) : List (Nat × Envelope P) :=
  (Session.ofEngine b.engine).taken config (b.past + 1) b.horizon.current schedule

namespace Scheduler

variable {s : Scheduler U P} {b t : Stage U P} {ts rest : List (Stage U P)}

/-! ## The slots at the stages of a run -/

namespace Sound

/-- Everything that is sent has a worker to go to. -/
lemma sentIn_owned (hs : s.Sound) {r : Nat} {z : Envelope P} (hz : z ∈ s.sentIn r) :
    ∃ i < s.config.workers, s.table.owner? z.target = some i := by
  obtain ⟨route, hroute⟩ := Option.isSome_iff_exists.1 (hs.isSome_route?_of_sentIn hz)
  have howner : s.table.owner? z.target = some route.worker.index := by rw [RoutingTable.owner?, hroute]; rfl
  exact ⟨_, hs.owner_lt howner, howner⟩

/-- **What is staged at a stage for a worker** is its share of what was sent in the round before. -/
theorem staged_eq (hs : s.Sound) (h : s.stages = ts ++ t :: rest) {i : Nat} (hi : i < s.config.workers) :
    t.engine.postbox.staged i t.past =
      (s.sentIn t.past).filter fun z => s.table.owner? z.target = some i := by
  refine hs.engine_induction (motive := fun _ past e => e.postbox.staged i past =
    (s.sentIn past).filter fun z => s.table.owner? z.target = some i) (hs.staged_firstEngine hi)
    (fun ts t rest h _ _ => ?_) h
  rw [Stage.after, (hs.coherent_of_stages_eq h).staged_runRound
    (by rw [hs.size_workers_of_stages_eq h]; exact hi), hs.table_of_stages_eq h, past_eq_length h,
    sentIn_length h]
  rw [Stage.record, past_eq_length h]

end Sound

/-! ## Handing over in every run -/

/-- The slots in the course of the round after a barrier, in which the workers follow a schedule. -/
structure HandsOver (s : Scheduler U P) (b : Stage U P) (schedule : List Nat) : Prop where
  /-- The next step, whoever does it, posts nothing to the slots of the round before. If it is the first step of
  a worker, the worker empties its own slot. -/
  kept : ∀ k i, (b.session s.config (schedule ++ [k])).postbox.staged i b.past =
    if i = k ∧ (b.session s.config schedule).threads[k]?.any (·.isIdle) then []
    else (b.session s.config schedule).postbox.staged i b.past
  /-- What the workers have posted so far is in the other slots, at the owners of the targets. -/
  posted : ∀ i < s.config.workers, ((b.session s.config schedule).postbox.staged i (b.past + 1)).Perm
    (((b.session s.config schedule).threads.toList.flatMap (·.posted)).filter fun z =>
      s.table.owner? z.target = some i)
  /-- Every envelope of the round before has been taken out once, or is still staged. -/
  taken : ((b.taken s.config schedule).map (·.2) ++
    (b.session s.config schedule).postbox.envelopes b.past).Perm (s.sentIn b.past)
  /-- It is taken out by the owner of its target. -/
  owner : ∀ p ∈ b.taken s.config schedule, s.table.owner? p.2.target = some p.1

/-- The slots when all workers have reported. -/
structure HandedOver (s : Scheduler U P) (b : Stage U P) (schedule : List Nat) : Prop where
  /-- Every envelope of the round before has been taken out once. -/
  taken : ((b.taken s.config schedule).map (·.2)).Perm (s.sentIn b.past)
  /-- Its slots are empty. -/
  emptied : ∀ i, (b.session s.config schedule).postbox.staged i b.past = []
  /-- The workers have posted what is accepted in the round. -/
  posted : (b.session s.config schedule).threads.toList.flatMap (·.posted) = s.sentIn (b.past + 1)
  /-- The deliveries among it are counted. -/
  pending : (b.session s.config schedule).postbox.pendingDeliveries (b.past + 1) =
    (Envelope.messages (s.sentIn (b.past + 1))).length
  /-- The first of them is found. -/
  earliest : (b.session s.config schedule).postbox.earliest (b.past + 1) =
    SimTime.earliest? ((Envelope.messages (s.sentIn (b.past + 1))).map (·.time))

/-- How a barrier and the round after it relay what was accepted in the round before. -/
structure Relays (s : Scheduler U P) (b : Stage U P) : Prop where
  /-- What is accepted in a round is what is granted in its calls. The seeds count as accepted in round 0. -/
  accepted : ∀ r, s.sentIn r = (if r = 0 then s.seeds.toList.map .deliver else []) ++
    (s.transcriptsIn r).flatMap (·.filterMap Exchange.envelope?)
  /-- Everything that is accepted is for a unit of some worker. -/
  owned : ∀ r, ∀ z ∈ s.sentIn r, ∃ i < s.config.workers, s.table.owner? z.target = some i
  /-- The slots of the new round are empty. -/
  vacant : ∀ i, b.engine.postbox.staged i (b.past + 1) = []
  /-- In the other slots is what was accepted in the round before, at the owners of the targets. -/
  staged : ∀ i < s.config.workers, (b.engine.postbox.staged i b.past).Perm
    ((s.sentIn b.past).filter fun z => s.table.owner? z.target = some i)
  /-- The deliveries among it are counted. -/
  pending : b.engine.postbox.pendingDeliveries b.past = (Envelope.messages (s.sentIn b.past)).length
  /-- The first of them is found. -/
  earliest : b.engine.postbox.earliest b.past =
    SimTime.earliest? ((Envelope.messages (s.sentIn b.past)).map (·.time))
  /-- The slots keep their roles in the course of the round. -/
  course : ∀ schedule, s.HandsOver b schedule
  /-- The round can always be completed. -/
  completes : ∀ schedule, ∃ more, (b.session s.config (schedule ++ more)).Complete
  /-- Then the slots change their roles. -/
  complete : ∀ schedule, (b.session s.config schedule).Complete → s.HandedOver b schedule

namespace Sound

/-- What is staged at a barrier for a worker is its share of what was sent in the round before. -/
lemma staged_of_shuffle (hs : s.Sound) (h : s.stages = ts ++ t :: rest) (hbt : b.Shuffle t) {i : Nat}
    (hi : i < s.config.workers) : (b.engine.postbox.staged i b.past).Perm
      ((s.sentIn b.past).filter fun z => s.table.owner? z.target = some i) := by
  rw [hbt.past, ← hs.staged_eq h hi]
  exact hbt.engine.staged i t.past

/-- There are as many inboxes at a barrier as there are workers in the setup. -/
lemma size_inboxes_of_shuffle (hs : s.Sound) (h : s.stages = ts ++ t :: rest) (hbt : b.Shuffle t) :
    b.engine.postbox.inboxes.size = s.config.workers := by
  rw [hbt.engine.size, (hs.coherent_of_stages_eq h).size_eq, hs.size_workers_of_stages_eq h]

/-- What is staged at a barrier is what was sent in the round before. -/
lemma perm_envelopes_of_shuffle (hs : s.Sound) (h : s.stages = ts ++ t :: rest) (hbt : b.Shuffle t) :
    (b.engine.postbox.envelopes b.past).Perm (s.sentIn b.past) := by
  rw [Postbox.envelopes, hs.size_inboxes_of_shuffle h hbt]
  refine List.Perm.trans (List.Perm.flatMap_left _ fun i hi => ?_)
    (flatMap_range_filter_perm_self fun z hz => hs.sentIn_owned hz)
  exact hs.staged_of_shuffle h hbt (List.mem_range.1 hi)

/-- **The slots in the course of a round**, whatever the schedule.

**Proof sketch.** What holds in the course of a round (`Session.During`) says where everything is, and the steps of
the schedule lose nothing (`Session.perm_envelopes_run`). -/
theorem handsOver (hs : s.Sound) (h : s.stages = ts ++ t :: rest) (hbt : b.Shuffle t) (schedule : List Nat) :
    s.HandsOver b schedule := by
  have hc : b.engine.Coherent b.past := hbt.engine.coherent (hbt.past ▸ hs.coherent_of_stages_eq h)
  have hduring := Stage.during_session hc s.config schedule
  refine ⟨fun k i => ?_, fun i hi => ?_, ?_, fun p hp => ?_⟩
  · rw [Stage.session, Session.run, List.foldl_append]
    exact Session.staged_step (fun y hy => hduring.index_eq hy) i
  · rw [← hs.table_of_stages_eq h, ← hbt.engine.table]
    exact hduring.staged_next i (hs.size_inboxes_of_shuffle h hbt ▸ hi)
  · exact (Session.perm_envelopes_run _ schedule).trans (hs.perm_envelopes_of_shuffle h hbt)
  · rw [← hs.table_of_stages_eq h, ← hbt.engine.table]
    have hstart := Session.During.start hc s.config b.horizon.current
    exact hc.staged_owned (hstart.mem_staged_of_taken schedule p hp)

/-- **The slots when all workers have reported** have changed their roles.

**Proof sketch.** Nothing is left of the round before, so that everything has been taken out. The round ends as it
does at the stage of the run (`Sound.session_of_shuffle`), and so the workers have posted what is sent there. -/
theorem handedOver (hs : s.Sound) (h : s.stages = ts ++ t :: rest) (hbt : b.Shuffle t) {schedule : List Nat}
    (hcomplete : (b.session s.config schedule).Complete) : s.HandedOver b schedule := by
  have hct := hs.coherent_of_stages_eq h
  have hc : b.engine.Coherent b.past := hbt.engine.coherent (hbt.past ▸ hct)
  have hduring := Stage.during_session hc s.config schedule
  have hemptied := hduring.staged_past_of_complete hc hcomplete
  have hnil : (b.session s.config schedule).postbox.envelopes b.past = [] :=
    List.flatMap_eq_nil_iff.2 fun i _ => hemptied i
  have htaken := (hs.handsOver h hbt schedule).taken
  rw [hnil, List.append_nil] at htaken
  have hsent : s.sentIn (b.past + 1) = (t.record s.config).sent := by
    rw [hbt.past, past_eq_length h, sentIn_length h]
  have hmessages : ((b.session s.config schedule).postbox.messages (b.past + 1)).Perm
      (Envelope.messages (s.sentIn (b.past + 1))) := by
    rw [hsent, hbt.past]
    exact ((hs.session_of_shuffle h hbt hcomplete (List.Perm.refl _)).1.messages _).trans
      (hct.perm_messages_runRound s.config t.horizon.current)
  obtain ⟨hpending, hearliest⟩ := Postbox.figures_of_perm hmessages
  refine ⟨htaken, hemptied, ?_, hpending, hearliest⟩
  have hround := hbt.engine.runRound_eq hct (hs.nodup_pending h) s.config t.horizon.current
  rw [hsent, Stage.record, ← hround, ← hbt.past, ← hbt.horizon]
  exact hduring.flatMap_posted hcomplete

end Sound

/-- **Handing over from round to round.** At every barrier that a run can reach, the slots of the new round are
empty and the other slots hold what was accepted in the round before, each envelope at the worker that owns its
target. However the workers go on, nobody posts to the slots that are emptied in the round; every envelope is taken
out once, by that worker; and what is posted is found by the coordinator when all workers have reported. What is
accepted in the last round of a run stays where it is, because no round follows.

**Proof sketch.** The barrier is a stage of the run, up to the order of staged envelopes (`Barrier.exists_stage`).
There the slots are as claimed, by induction on the rounds (`Sound.staged_eq`). In the round after it every step
of every worker keeps the slots apart (`Session.staged_step`). -/
theorem IsSetUp.relays (hs : s.IsSetUp) (hb : s.Barrier b) : s.Relays b := by
  have hsound := hs.sound
  obtain ⟨ts, t, rest, h, hbt⟩ := hb.exists_stage hsound
  have hc : b.engine.Coherent b.past :=
    hbt.engine.coherent (hbt.past ▸ hsound.coherent_of_stages_eq h)
  have hmessages : (b.engine.postbox.messages b.past).Perm (Envelope.messages (s.sentIn b.past)) := by
    rw [Postbox.messages, ← Envelope.messages_flatMap]
    exact (hsound.perm_envelopes_of_shuffle h hbt).filterMap _
  obtain ⟨hpending, hearliest⟩ := Postbox.figures_of_perm hmessages
  refine ⟨hsound.sentIn_eq, fun r z hz => hsound.sentIn_owned hz, hc.idle,
    fun i hi => hsound.staged_of_shuffle h hbt hi, hpending, hearliest, hsound.handsOver h hbt,
    Stage.exists_complete hc s.config, fun schedule hcomplete => hsound.handedOver h hbt hcomplete⟩

end Scheduler

end Runs

namespace Scheduler

/-- Two messages were accepted in the first round, both for the first worker. They stay staged while the second
worker begins the next round, and then the first worker takes them out. -/
theorem relays_reportersOvertaken : reporters.Barrier reportersOvertaken ∧ reportersOvertaken.past = 1 ∧
    (reporters.sentIn 1).length = 2 ∧ (reportersOvertaken.engine.postbox.staged 0 2).length = 0 ∧
    (reportersOvertaken.taken reporters.config [1]).map (·.1) = [] ∧
    (reportersOvertaken.taken reporters.config [1, 0, 0, 1, 1, 0]).map (·.1) = [0, 0] ∧
    (reportersOvertaken.session reporters.config [1, 0, 0, 1, 1, 0]).Complete ∧
    reporters.Relays reportersOvertaken := by
  have hsetup : reporters.IsSetUp := isSetUp_pair rfl _ _ _
  exact ⟨barrier_reportersOvertaken, rfl, by decide +kernel, by decide +kernel, by decide +kernel,
    by decide +kernel, by decide +kernel, hsetup.relays barrier_reportersOvertaken⟩

end Scheduler

end EventSim
