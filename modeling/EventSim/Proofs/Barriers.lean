import EventSim.Proofs.Conservation
import EventSim.Proofs.Interleaving
import EventSim.Proofs.Setup

set_option autoImplicit false

/-!
# Runs whose workers do their rounds at the same time

At a barrier all workers wait for the next round. A run reaches it through rounds in each of which the workers
went on in some order and the reports came in in some order. Among messages with keys of their own the order
in which envelopes are staged is lost when they are merged. So a run comes through all its rounds as if one
worker did its part after the other.

## Main definitions

* `EventSim.Stage.session` — a round that follows a schedule.
* `EventSim.Scheduler.Barrier` — the barriers that a run can reach.
* `EventSim.Session.Settles` — how a round settles what follows.

## Main results

* `EventSim.Engine.Shuffle.runRound_eq` — the order of staged envelopes does not change a round.
* `EventSim.Scheduler.Barrier.exists_stage` — every barrier is a stage of the run, up to the order of staged
  envelopes.
* `EventSim.Scheduler.IsSetUp.settles` — every schedule and every order of reports settles the same.
-/

namespace EventSim

/-- A postbox is determined by its routing table and by what is staged. -/
lemma Postbox.ext_staged {P : Type} {b b' : Postbox P} (htable : b.table = b'.table)
    (hsize : b.inboxes.size = b'.inboxes.size) (h : ∀ i round, b.staged i round = b'.staged i round) :
    b = b' := by
  obtain ⟨table, inboxes⟩ := b
  obtain ⟨table', inboxes'⟩ := b'
  cases htable
  congr
  refine Array.ext hsize fun i hi hi' => ?_
  have hslot : ∀ round, inboxes[i].slot round = inboxes'[i].slot round := by
    intro round
    have hstaged := h i round
    rw [staged, staged, Array.getElem?_eq_getElem hi, Array.getElem?_eq_getElem hi'] at hstaged
    exact Array.toList_inj.1 hstaged
  obtain ⟨heven, hodd⟩ := And.intro (hslot 0) (hslot 1)
  generalize inboxes[i] = x at heven hodd ⊢
  generalize inboxes'[i] = x' at heven hodd ⊢
  obtain ⟨even, odd⟩ := x
  obtain ⟨even', odd'⟩ := x'
  exact congr (congrArg Inbox.mk heven) hodd

variable {U P : Type}

/-! ## The order of staged envelopes in a round -/

/-- The order of what is staged does not matter to a worker. -/
lemma Worker.accept_congr {w : Worker U P} {staged staged' : List (Envelope P)}
    (hk : ((w.queue.entries ++ Envelope.messages staged).map Message.key).Nodup) (h : staged.Perm staged') :
    w.accept staged = w.accept staged' := by
  rw [accept, accept, MessageQueue.merge_congr hk h]

namespace Engine.Shuffle

variable {e e' : Engine U P} {past : Nat}

/-- The order of staged envelopes does not make an engine incoherent. -/
lemma coherent (h : e.Shuffle e') (hc : e'.Coherent past) : e.Coherent past where
  index_eq hw := hc.index_eq (h.workers ▸ hw)
  size_eq := by rw [h.size, h.workers, hc.size_eq]
  placed hw := h.table ▸ hc.placed (h.workers ▸ hw)
  owner_lt ho := h.workers ▸ hc.owner_lt (h.table ▸ ho)
  waiting_owned hw := h.table ▸ hc.waiting_owned (h.workers ▸ hw)
  staged_owned hx := h.table ▸ hc.staged_owned ((h.staged _ _).mem_iff.1 hx)
  idle i := List.Perm.eq_nil (hc.idle i ▸ h.staged i (past + 1))

/-- Where nothing is staged for the next round, engines that have emptied their slots are the same. -/
lemma clear_eq (h : e.Shuffle e') (hc : e'.Coherent past) :
    e.postbox.clear past = e'.postbox.clear past := by
  refine Postbox.ext_staged h.table (by simpa using h.size) fun i round => ?_
  by_cases hround : round % 2 = past % 2
  · rw [Postbox.staged_clear hround, Postbox.staged_clear hround]
  · have hnext : round % 2 = (past + 1) % 2 := by omega
    rw [Postbox.staged_clear_of_ne hround, Postbox.staged_clear_of_ne hround, Postbox.staged_congr hnext,
      Postbox.staged_congr hnext, hc.idle, (h.coherent hc).idle]

/-- What is staged for a worker is merged in the same way. -/
lemma accept_eq (h : e.Shuffle e') (hc : e'.Coherent past)
    (hk : ((e'.waiting ++ e'.postbox.messages past).map Message.key).Nodup) {w : Worker U P}
    (hw : w ∈ e'.workers.toList) :
    w.accept (e.postbox.staged w.id.index past) = w.accept (e'.postbox.staged w.id.index past) := by
  have hkeys := hc.nodup_keys hk hw
  rw [stagedFor_eq] at hkeys
  exact (Worker.accept_congr hkeys (h.staged _ _).symm).symm

/-- **The order of staged envelopes does not change a round.** -/
theorem runRound_eq [Payload P] [SimUnit U P] (h : e.Shuffle e') (hc : e'.Coherent past)
    (hk : ((e'.waiting ++ e'.postbox.messages past).map Message.key).Nodup) (config : RunConfig)
    (horizon : SimTime) : e.runRound config (past + 1) horizon = e'.runRound config (past + 1) horizon := by
  have hparts : e.workers.map (fun w => w.runRound config e.postbox.table (past + 1) horizon
        (e.stagedFor w.id past)) =
      e'.workers.map fun w => w.runRound config e'.postbox.table (past + 1) horizon
        (e'.stagedFor w.id past) := by
    rw [h.workers, h.table]
    refine Array.map_congr_left fun w hw => ?_
    have haccept := h.accept_eq hc hk (Array.mem_toList_iff.2 hw)
    rw [stagedFor_eq, stagedFor_eq, Worker.runRound, Worker.runRound, haccept]
  simp only [runRound, Nat.add_sub_cancel, hparts, h.clear_eq hc]

end Engine.Shuffle

/-! ## Barriers -/

section Barriers

variable [Payload P] [SimUnit U P]

namespace Stage

/-- Two stages are the same up to the order of the envelopes in each slot of an inbox. -/
structure Shuffle (b t : Stage U P) : Prop where
  /-- The same rounds are over. -/
  past : b.past = t.past
  /-- The same horizon is set. -/
  horizon : b.horizon = t.horizon
  /-- The engines are the same up to the order. -/
  engine : b.engine.Shuffle t.engine

/-- A round in which the workers follow a schedule. -/
def session (config : RunConfig) (schedule : List Nat) (b : Stage U P) : Session U P :=
  (Session.ofEngine b.engine).run config (b.past + 1) b.horizon.current schedule

/-- What the coordinator makes of the round if the reports come in in the given order. -/
def sessionRecord (config : RunConfig) (schedule : List Nat) (arrivals : List (Report P)) (b : Stage U P) :
    RoundRecord P :=
  (b.session config schedule).record (b.past + 1) b.horizon.current arrivals

/-- What holds in the course of a round holds in one that follows a schedule. -/
lemma during_session {b : Stage U P} (hc : b.engine.Coherent b.past) (config : RunConfig) (schedule : List Nat) :
    Session.During config b.past b.horizon.current b.engine (b.session config schedule) :=
  (Session.During.start hc config b.horizon.current).run schedule

/-- A round can be completed from wherever a schedule has led. -/
lemma exists_complete {b : Stage U P} (hc : b.engine.Coherent b.past) (config : RunConfig) (schedule : List Nat) :
    ∃ more, (b.session config (schedule ++ more)).Complete := by
  obtain ⟨more, hmore⟩ := (during_session hc config schedule).exists_complete
  refine ⟨more, ?_⟩
  rw [session, Session.run, List.foldl_append]
  exact hmore

end Stage

namespace Scheduler

/-- The barriers that a run can reach, whatever the schedules of its rounds and the order of the reports. Units
may be started at the same time too, so that in the beginning envelopes are staged in any order. -/
inductive Barrier (s : Scheduler U P) : Stage U P → Prop where
  /-- All units have started. -/
  | first {t : Stage U P} {e : Engine U P} (ht : s.firstStage? = some t) (he : e.Shuffle t.engine) :
      Barrier s ⟨t.past, t.horizon, e⟩
  /-- All workers have reported, and the run goes on. -/
  | next {b : Stage U P} {schedule : List Nat} {arrivals : List (Report P)} {horizon : Horizon}
      (hb : Barrier s b) (hcomplete : (b.session s.config schedule).Complete)
      (harrivals : arrivals.Perm (b.session s.config schedule).reports)
      (hverdict : (b.sessionRecord s.config schedule arrivals).verdict s.config b.horizon = .next horizon)
      (hlt : b.horizon.current < horizon.current) :
      Barrier s ⟨b.past + 1, horizon, (b.session s.config schedule).engine⟩

end Scheduler

/-- How a round settles what follows, compared with the stage before it. -/
structure Session.Settles (config : RunConfig) (t : Stage U P) (arrivals : List (Report P)) (x : Session U P) :
    Prop where
  /-- The workers are left with the same units, sequence counters, queues and figures. -/
  workers : x.threads.map (·.worker) = (t.after config).workers
  /-- The next merge makes the same queues, and counts the same cancellations. -/
  merged : ∀ w ∈ (t.after config).workers, w.accept (x.postbox.staged w.id.index (t.past + 1)) =
    w.accept ((t.after config).postbox.staged w.id.index (t.past + 1))
  /-- The round has the same figures. -/
  summary : (x.record (t.past + 1) t.horizon.current arrivals).summary = (t.record config).summary
  /-- The same fault is returned, if any. -/
  fault : (x.record (t.past + 1) t.horizon.current arrivals).fault = (t.record config).fault
  /-- The run stops, or goes on with the same horizon. -/
  verdict : (x.record (t.past + 1) t.horizon.current arrivals).verdict config t.horizon =
    (t.record config).verdict config t.horizon

namespace Scheduler

variable {s : Scheduler U P} {b t : Stage U P} {ts rest : List (Stage U P)} {schedule : List Nat}
  {arrivals : List (Report P)}

namespace Sound

/-- **A round at a barrier** ends as it does at the stage of the run.

**Proof sketch.** The session ends as if one worker did its part after the other (`During.shuffle_runRound`),
and the order in which envelopes were staged before does not change that round (`Shuffle.runRound_eq`). -/
theorem session_of_shuffle (hs : s.Sound) (h : s.stages = ts ++ t :: rest) (hb : b.Shuffle t)
    (hcomplete : (b.session s.config schedule).Complete)
    (harrivals : arrivals.Perm (b.session s.config schedule).reports) :
    (b.session s.config schedule).engine.Shuffle (t.after s.config) ∧
      b.sessionRecord s.config schedule arrivals = t.record s.config := by
  have hc := hs.coherent_of_stages_eq h
  obtain ⟨past, horizon, e⟩ := b
  obtain ⟨rfl, rfl, he⟩ := hb
  have hround := he.runRound_eq hc (hs.nodup_pending h) s.config t.horizon.current
  have hduring := Stage.during_session (b := ⟨t.past, t.horizon, e⟩) (he.coherent hc) s.config schedule
  have hshuffle := hduring.shuffle_runRound (he.coherent hc) hcomplete
  have hrecord := hduring.record_eq (he.coherent hc) hcomplete harrivals
  rw [hround] at hshuffle hrecord
  exact ⟨hshuffle, hrecord⟩

end Sound

/-- **Every barrier is a stage of the run**, up to the order of staged envelopes. -/
theorem Barrier.exists_stage (hs : s.Sound) (hb : s.Barrier b) :
    ∃ ts t rest, s.stages = ts ++ t :: rest ∧ b.Shuffle t := by
  induction hb with
  | first ht he => exact ⟨[], _, _, stages_eq_cons ht, rfl, rfl, he⟩
  | @next b schedule arrivals horizon _ hcomplete harrivals hverdict hlt ih =>
    obtain ⟨ts, t, rest, h, hbt⟩ := ih
    obtain ⟨hengine, hrecord⟩ := hs.session_of_shuffle h hbt hcomplete harrivals
    rw [hrecord, hbt.horizon] at hverdict
    rw [hbt.horizon] at hlt
    have hnext : t.next? s.config = some ⟨t.past + 1, horizon, t.after s.config⟩ :=
      Stage.next?_eq_some_iff.2 ⟨hverdict, hlt, rfl, rfl⟩
    have hrest := List.eq_cons_of_mem_head? ((next?_eq_head? h).symm.trans hnext)
    refine ⟨ts ++ [t], ⟨t.past + 1, horizon, t.after s.config⟩, rest.tail, ?_,
      congrArg (· + 1) hbt.past, rfl, hengine⟩
    rw [List.append_assoc, List.singleton_append, ← hrest, h]

/-- **Every schedule and every order of reports settles the same**: at every barrier that a run can reach, the
workers can complete the round, and whenever they do, it settles what follows as the round of the run does in
which one worker does its part after the other.

**Proof sketch.** The barrier is a stage of the run (`Barrier.exists_stage`), and the round ends as it does
there (`Sound.session_of_shuffle`). What remains after the round has keys of its own, so that the next merge
does not depend on the order of staged envelopes either. -/
theorem IsSetUp.settles (hs : s.IsSetUp) (hb : s.Barrier b) :
    (∀ schedule, ∃ more, (b.session s.config (schedule ++ more)).Complete) ∧
      ∃ t ∈ s.stages, t.past = b.past ∧ t.horizon = b.horizon ∧ ∀ schedule arrivals,
        (b.session s.config schedule).Complete → arrivals.Perm (b.session s.config schedule).reports →
          (b.session s.config schedule).Settles s.config t arrivals := by
  obtain ⟨ts, t, rest, h, hbt⟩ := hb.exists_stage hs.sound
  have hc := hs.sound.coherent_of_stages_eq h
  constructor
  · intro schedule
    have hcb : b.engine.Coherent b.past := hbt.engine.coherent (hbt.past ▸ hc)
    have hduring := (Session.During.start hcb s.config b.horizon.current).run schedule
    obtain ⟨more, hmore⟩ := hduring.exists_complete
    refine ⟨more, ?_⟩
    rw [Stage.session, Session.run, List.foldl_append]
    exact hmore
  · refine ⟨t, h ▸ by simp, hbt.past.symm, hbt.horizon.symm, ?_⟩
    intro schedule arrivals hcomplete harrivals
    obtain ⟨hengine, hrecord⟩ := hs.sound.session_of_shuffle h hbt hcomplete harrivals
    rw [Stage.sessionRecord, hbt.past, hbt.horizon] at hrecord
    refine ⟨hengine.workers, fun w hw => ?_, by rw [hrecord], by rw [hrecord], by rw [hrecord]⟩
    exact hengine.accept_eq (hc.runRound s.config t.horizon.current) (hs.sound.nodup_remaining h)
      (Array.mem_toList_iff.2 hw)

end Scheduler

end Barriers

/-! ## Two workers that write to the same unit -/

/-- A unit that writes to itself when it starts, and passes this on to the first unit. -/
def reporter : RuleTable where
  lookahead := ⟨Binary64.ofNat 1⟩
  opening := [.send (.fromNow (Binary64.ofNat 1)) .self (.exactly ⟨1⟩) none false]
  rules := [⟨some 1, some 1, none,
    [.send (.fromNow (Binary64.ofNat 2)) (.unit (Id.ofNat 0)) (.exactly ⟨2⟩) none false]⟩]

namespace Scheduler

/-- Two reporters at two workers. -/
def reporters : Scheduler RuleTable Mark := pair { workers := 2 } reporter (Id.ofNat 0) (Id.ofNat 1)

/-- The reporters before the first round. -/
def reportersAtStart : Stage RuleTable Mark := reporters.firstStage?.get (by decide +kernel)

/-- The reporters after a first round in which the second worker was always ahead of the first. -/
def reportersOvertaken : Stage RuleTable Mark :=
  ⟨1, ⟨⟨Binary64.ofNat 2⟩, ⟨Binary64.ofNat 1⟩⟩,
    (reportersAtStart.session reporters.config [1, 0, 1, 0, 1, 0, 1, 0, 1, 0]).engine⟩

lemma barrier_reportersOvertaken : reporters.Barrier reportersOvertaken := by
  have hstart : reporters.firstStage? = some reportersAtStart := (Option.some_get _).symm
  exact .next (.first hstart (.refl _)) (by decide +kernel) (List.reverse_perm _) (by decide +kernel)
    (by decide +kernel)

/-- The message of the second worker is staged first, other than in the run in which the first worker does its
part first. The next round settles the same. -/
theorem settles_reportersOvertaken : reporters.Barrier reportersOvertaken ∧
    (Envelope.messages (reportersOvertaken.engine.postbox.staged 0 1)).map (·.id.origin.index) = [1, 0] ∧
    ∃ t ∈ reporters.stages, t.past = 1 ∧
      (Envelope.messages (t.engine.postbox.staged 0 1)).map (·.id.origin.index) = [0, 1] ∧
      (reportersOvertaken.session reporters.config [1, 0, 0, 1, 1, 0]).Settles reporters.config t
        (reportersOvertaken.session reporters.config [1, 0, 0, 1, 1, 0]).reports.reverse := by
  have hsetup : reporters.IsSetUp := isSetUp_pair rfl _ _ _
  have horder : ∀ t ∈ reporters.stages, t.past = 1 →
      (Envelope.messages (t.engine.postbox.staged 0 1)).map (·.id.origin.index) = [0, 1] := by
    decide +kernel
  obtain ⟨_, t, ht, hpast, _, hsettles⟩ := hsetup.settles barrier_reportersOvertaken
  exact ⟨barrier_reportersOvertaken, by decide +kernel, t, ht, hpast, horder t ht hpast,
    hsettles _ _ (by decide +kernel) (List.reverse_perm _)⟩

end Scheduler

end EventSim
