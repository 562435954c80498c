import EventSim.Proofs.Causality
import Mathlib.Algebra.Order.Group.Multiset
import Mathlib.Data.List.Perm.Subperm

set_option autoImplicit false

/-!
# Conservation

A message that has been scheduled is in exactly one place: it was handed to its target, it was withdrawn, it
waits in a queue, or it is staged. This holds after every round without fault, and so do the equations
between the counts that follow from it.

## Main definitions

* `EventSim.Scheduler.delivered`, `EventSim.Scheduler.withdrawn` — what some rounds have taken out.
* `EventSim.Scheduler.Conserved` — where all messages are after a round.

## Main results

* `EventSim.Stage.perm_step` — a round without fault moves messages, and loses none.
* `EventSim.Scheduler.Sound.perm_of_stages_eq` — where all messages are at a stage.
* `EventSim.Scheduler.IsSetUp.conservation` — conservation at every barrier and at the end of a run.
-/

namespace EventSim

variable {U P : Type} [Payload P] [SimUnit U P]

namespace Stage

variable {config : RunConfig} {t : Stage U P}

/-- The messages that are handed over in the round. -/
def delivered (config : RunConfig) (t : Stage U P) : List (Message P) :=
  (t.record config).handled.map (·.message)

omit [Payload P] [SimUnit U P] in
/-- The messages that are withdrawn in the round. -/
def withdrawn (t : Stage U P) : List (Message P) := t.engine.withdrawn t.past

/-- All messages that are to come before the round. -/
def pending (t : Stage U P) : List (Message P) :=
  t.engine.waiting ++ t.engine.postbox.messages t.past

/-- All messages that are to come after the round. -/
def remaining (config : RunConfig) (t : Stage U P) : List (Message P) :=
  (t.after config).waiting ++ (t.after config).postbox.messages (t.past + 1)

/-- **A round without fault loses no message.** -/
theorem perm_step (hc : t.engine.Coherent t.past) (hk : (t.pending.map Message.key).Nodup)
    (hf : (t.record config).fault = none) :
    (t.pending ++ (t.record config).accepted).Perm
      (t.delivered config ++ (t.withdrawn ++ t.remaining config)) := by
  have hround := hc.perm_runRound config t.horizon.current hk
  rw [← Engine.handed_of_success hf] at hround
  refine (hround.append_right _).trans ?_
  rw [List.append_assoc, List.append_assoc]
  refine List.Perm.append_left _ (List.Perm.append_left _ (List.Perm.append_left _ ?_))
  exact (hc.perm_messages_runRound config t.horizon.current).symm

/-- What is to come after a round is to come before the next one. -/
lemma pending_of_next? {t' : Stage U P} (h : t.next? config = some t') :
    t'.pending = t.remaining config := by
  obtain ⟨_, _, hpast, hengine⟩ := next?_eq_some_iff.1 h
  rw [pending, remaining, hpast, hengine]

end Stage

namespace Scheduler

variable {s : Scheduler U P} {t : Stage U P} {ts rest : List (Stage U P)}

/-- The messages that have been handed over in some rounds. -/
def delivered (s : Scheduler U P) (ts : List (Stage U P)) : List (Message P) :=
  ts.flatMap (·.delivered s.config)

/-- The messages that have been withdrawn in some rounds. -/
def withdrawn (ts : List (Stage U P)) : List (Message P) := ts.flatMap (·.withdrawn)

/-- Where all messages are after the round of a stage. -/
structure Conserved (s : Scheduler U P) (ts : List (Stage U P)) (t : Stage U P) : Prop where
  /-- Every message has an identity of its own. -/
  nodup : ((s.posted (ts ++ [t])).map (·.id)).Nodup
  /-- Every message is delivered, withdrawn, in a queue, or in one of the two slots of an inbox. -/
  perm : (s.posted (ts ++ [t])).Perm (s.delivered (ts ++ [t]) ++ (withdrawn (ts ++ [t]) ++
    ((t.after s.config).waiting ++ ((t.after s.config).postbox.messages (t.past + 1) ++
      (t.after s.config).postbox.messages (t.past + 2)))))
  /-- The queue, or the inbox, is that of the worker that owns the target. -/
  coherent : (t.after s.config).Coherent (t.past + 1)
  /-- What is delivered for a unit, just this unit has handled, in order. -/
  handled : ∀ t' ∈ ts ++ [t], ∀ u x, t'.engine.slot? u = some x → (t'.after s.config).slot? u =
    some (x.handleAll (t'.engine.setting t'.past t'.horizon.current)
      ((t'.delivered s.config).filter (·.target = u))).1
  /-- Seeded and scheduled messages are as many as delivered, withdrawn, queued and staged ones. -/
  count : (Envelope.messages s.opening).length +
      ((ts ++ [t]).map fun t' => (t'.record s.config).accepted.length).sum =
    ((ts ++ [t]).map fun t' => (t'.record s.config).summary.delivered).sum +
      ((ts ++ [t]).map fun t' => (t'.record s.config).removed).sum +
      (t.record s.config).summary.queued + (t.record s.config).summary.staged

omit [Payload P] [SimUnit U P] in
/-- What is split once more stays split. -/
lemma perm_split {α : Type} {a d w p new d' w' r : List α} (h : a.Perm (d ++ (w ++ p)))
    (h' : (p ++ new).Perm (d' ++ (w' ++ r))) : (a ++ new).Perm ((d ++ d') ++ ((w ++ w') ++ r)) :=
  calc (a ++ new).Perm ((d ++ (w ++ p)) ++ new) := h.append_right new
    _ = d ++ (w ++ (p ++ new)) := by simp only [List.append_assoc]
    List.Perm _ (d ++ (w ++ (d' ++ (w' ++ r)))) := (h'.append_left w).append_left d
    List.Perm _ (d ++ (d' ++ (w ++ (w' ++ r)))) := (List.perm_append_comm_assoc ..).append_left d
    _ = (d ++ d') ++ ((w ++ w') ++ r) := by simp only [List.append_assoc]

namespace Sound

/-- Messages with identities of their own have keys of their own. -/
lemma nodup_key_pending {p : List (Message P)} (hn : ((s.posted ts).map (·.id)).Nodup)
    (hp : (s.posted ts).Perm (s.delivered ts ++ (withdrawn ts ++ p))) : (p.map Message.key).Nodup := by
  have hsub : p.Sublist (s.delivered ts ++ (withdrawn ts ++ p)) :=
    (List.sublist_append_right ..).trans (List.sublist_append_right ..)
  exact Message.nodup_keys (((hp.map (·.id)).nodup_iff.1 hn).sublist (hsub.map _))

/-- If all messages are accounted for at a stage, they are so after a round without fault. -/
lemma perm_after (hs : s.Sound) (h : s.stages = ts ++ t :: rest)
    (hf : (t.record s.config).fault = none)
    (hp : (s.posted ts).Perm (s.delivered ts ++ (withdrawn ts ++ t.pending))) :
    (s.posted (ts ++ [t])).Perm
      (s.delivered (ts ++ [t]) ++ (withdrawn (ts ++ [t]) ++ t.remaining s.config)) := by
  have hk := nodup_key_pending (hs.nodup_posted h) hp
  have hstep := Stage.perm_step (hs.coherent_of_stages_eq h) hk hf
  rw [posted_append, delivered, withdrawn, List.flatMap_append, List.flatMap_append,
    List.flatMap_singleton, List.flatMap_singleton, List.flatMap_singleton]
  exact perm_split hp hstep

/-- **Where all messages are at a stage.** -/
theorem perm_of_stages_eq (hs : s.Sound) (h : s.stages = ts ++ t :: rest) :
    (s.posted ts).Perm (s.delivered ts ++ (withdrawn ts ++ t.pending)) := by
  refine stages_induction (motive := fun ts t =>
    (s.posted ts).Perm (s.delivered ts ++ (withdrawn ts ++ t.pending))) (fun t ht => ?_)
    (fun ts t t' rest hstages hnext ih => ?_) h
  · obtain ⟨delta, _, _, _, rfl⟩ := hs.firstStage?_eq_some_iff.1 ht
    simp only [posted, delivered, withdrawn, Stage.pending, waiting_firstEngine, List.flatMap_nil,
      List.append_nil, List.nil_append]
    exact hs.perm_messages_firstEngine.symm
  · rw [Stage.pending_of_next? hnext]
    exact hs.perm_after hstages (Stage.of_next? hnext).1 ih

/-- What is handed over in a round was pending before it, and is due. -/
lemma mem_pending_of_delivered (hs : s.Sound) (h : s.stages = ts ++ t :: rest) {m : Message P}
    (hm : m ∈ t.delivered s.config) : m ∈ t.pending ∧ m.time ≤ s.config.deliveryLimit t.horizon.current := by
  obtain ⟨x, hx, rfl⟩ := List.mem_map.1 hm
  obtain ⟨hmem, hle⟩ := (hs.coherent_of_stages_eq h).of_mem_due (Engine.mem_due_of_handled hx)
  exact ⟨List.mem_append.2 hmem, hle⟩

/-- What is pending at a stage has been posted before. -/
lemma mem_posted_of_mem_pending (hs : s.Sound) (h : s.stages = ts ++ t :: rest) {m : Message P} (hm : m ∈ t.pending) :
    m ∈ s.posted ts :=
  (hs.perm_of_stages_eq h).symm.subset (List.mem_append_right _ (List.mem_append_right _ hm))

/-- What is pending at a stage has keys of its own. -/
lemma nodup_pending (hs : s.Sound) (h : s.stages = ts ++ t :: rest) : (t.pending.map Message.key).Nodup :=
  nodup_key_pending (hs.nodup_posted h) (hs.perm_of_stages_eq h)

/-- What remains after a round has keys of its own, whether or not the round fails. -/
lemma nodup_remaining (hs : s.Sound) (h : s.stages = ts ++ t :: rest) :
    ((t.remaining s.config).map Message.key).Nodup := by
  have hc := hs.coherent_of_stages_eq h
  have hround := hc.perm_runRound s.config t.horizon.current (hs.nodup_pending h)
  have hpending : t.pending.Subperm (s.posted ts) :=
    ((List.sublist_append_right _ _).trans (List.sublist_append_right _ _)).subperm.trans
      (hs.perm_of_stages_eq h).symm.subperm
  have hwaiting : (t.after s.config).waiting.Subperm (s.posted ts) :=
    (((List.sublist_append_right _ _).trans (List.sublist_append_right _ _)).subperm.trans
      hround.symm.subperm).trans hpending
  have hremaining := hwaiting.append (hc.perm_messages_runRound s.config t.horizon.current).subperm
  obtain ⟨ms, hperm, hsub⟩ := hremaining
  have hstages : s.stages = (ts ++ [t]) ++ rest := by rw [h, List.append_assoc, List.singleton_append]
  have hids := hs.nodup_posted hstages
  rw [posted_append, List.flatMap_singleton] at hids
  exact Message.nodup_keys ((hperm.map (·.id)).nodup_iff.1 (hids.sublist (hsub.map _)))

/-- The stages of a run, one by one. -/
lemma coherent_of_mem (hs : s.Sound) (ht : t ∈ s.stages) : t.engine.Coherent t.past := by
  obtain ⟨ts, rest, h⟩ := List.append_of_mem ht
  exact hs.coherent_of_stages_eq h

end Sound

/-- Before the last stage of a run there was no fault. -/
lemma fault_eq_none_of_mem (h : s.stages = ts ++ t :: rest) {t' : Stage U P} (ht : t' ∈ ts) :
    (t'.record s.config).fault = none := by
  obtain ⟨as, bs, rfl⟩ := List.append_of_mem ht
  rw [List.append_assoc, List.cons_append] at h
  have hnext := next?_eq_head? h
  cases bs with
  | nil => exact (Stage.of_next? hnext).1
  | cons b bs => exact (Stage.of_next? hnext).1

/-- If the last of some rounds has no fault, none of them has. -/
lemma forall_fault_eq_none (h : s.stages = ts ++ t :: rest) (hf : (t.record s.config).fault = none) :
    ∀ t' ∈ ts ++ [t], (t'.record s.config).fault = none := by
  intro t' ht'
  rcases List.mem_append.1 ht' with ht' | ht'
  · exact fault_eq_none_of_mem h ht'
  · rw [List.mem_singleton.1 ht']
    exact hf

/-- In a run that finishes no round has a fault. -/
lemma fault_eq_none_of_finished {stats : RunStats} (hstats : s.outcome = .finished stats) :
    ∀ t ∈ s.stages, (t.record s.config).fault = none := by
  rcases stages_eq_nil_or_append s with ⟨hnil, _⟩ | ⟨ts, t, h⟩
  · rw [hnil]
    exact fun t ht => absurd ht List.not_mem_nil
  · rcases outcome_cases h with ⟨e, _, hfailed⟩ | ⟨p, _, hp, _⟩
    · cases hstats.symm.trans hfailed
    · exact h ▸ forall_fault_eq_none h (Stage.of_outcome hp).1

/-- A run that finishes comes to a first round unless there are no units. -/
lemma leastLookahead_eq_none_of_finished {stats : RunStats} (hstats : s.outcome = .finished stats)
    (hfirst : s.firstStage? = none) : s.leastLookahead = none := by
  rcases (run_of_none hfirst).2 with ⟨_, hnone, _⟩ | ⟨e, hfailed, _⟩ | ⟨c, hcrashed, _⟩
  · exact hnone
  · cases hstats.symm.trans hfailed
  · cases hstats.symm.trans hcrashed

/-- A run that finishes without a round has counted nothing. -/
lemma stats_eq_of_finished {stats : RunStats} (hstats : s.outcome = .finished stats)
    (hfirst : s.firstStage? = none) : stats = { finalHorizon := s.config.startTime } := by
  rcases (run_of_none hfirst).2 with ⟨_, _, hfinished, _⟩ | ⟨e, hfailed, _⟩ | ⟨c, hcrashed, _⟩
  · exact RunOutcome.finished.inj (hstats.symm.trans hfinished)
  · cases hstats.symm.trans hfailed
  · cases hstats.symm.trans hcrashed

/-- The messages of rounds without fault are counted. -/
lemma length_delivered (hf : ∀ t ∈ ts, (t.record s.config).fault = none) :
    (s.delivered ts).length = (ts.map fun t => (t.record s.config).summary.delivered).sum ∧
      (withdrawn ts).length = (ts.map fun t => (t.record s.config).removed).sum := by
  rw [delivered, withdrawn, List.length_flatMap, List.length_flatMap]
  constructor
  · refine congrArg _ (List.map_congr_left fun t ht => ?_)
    rw [Stage.record, (Engine.summary_of_success (hf t ht)).1, Stage.delivered, Stage.record,
      Engine.handed_of_success (hf t ht)]
  · refine congrArg _ (List.map_congr_left fun t _ => ?_)
    exact (Engine.counts_runRound s.config t.past t.horizon.current t.engine).1.symm

namespace Sound

/-- The counters of the workers after a round without fault. -/
lemma total_after (hf : (t.record s.config).fault = none)
    (h : t.engine.total (·.delivered) = (s.delivered ts).length ∧
      t.engine.total (·.cancelled) = (withdrawn ts).length ∧
      t.engine.total (·.produced) = (ts.flatMap fun t => (t.record s.config).accepted).length) :
    (t.after s.config).total (·.delivered) = (s.delivered (ts ++ [t])).length ∧
      (t.after s.config).total (·.cancelled) = (withdrawn (ts ++ [t])).length ∧
      (t.after s.config).total (·.produced) =
        ((ts ++ [t]).flatMap fun t => (t.record s.config).accepted).length := by
  obtain ⟨hdelivered, hcancelled, hproduced⟩ := h
  obtain ⟨hdelivered', hcancelled', hproduced'⟩ := Engine.total_of_success hf
  have hhanded : (t.delivered s.config).length =
      (t.engine.due s.config t.horizon.current t.past).length :=
    congrArg _ (Engine.handed_of_success hf)
  rw [delivered, withdrawn] at *
  simp only [List.flatMap_append, List.flatMap_singleton, List.length_append]
  rw [← hdelivered, ← hcancelled, ← hproduced, hhanded]
  exact ⟨hdelivered', hcancelled', hproduced'⟩

/-- The counters of the workers at a stage. -/
lemma total_of_stages_eq (hs : s.Sound) (h : s.stages = ts ++ t :: rest) :
    t.engine.total (·.delivered) = (s.delivered ts).length ∧
      t.engine.total (·.cancelled) = (withdrawn ts).length ∧
      t.engine.total (·.produced) = (ts.flatMap fun t => (t.record s.config).accepted).length := by
  refine hs.engine_induction (motive := fun ts _ e => e.total (·.delivered) = (s.delivered ts).length ∧
    e.total (·.cancelled) = (withdrawn ts).length ∧
    e.total (·.produced) = (ts.flatMap fun t => (t.record s.config).accepted).length)
    ?_ (fun ts t rest _ hf ih => ?_) h
  · exact ⟨total_firstEngine s fun _ => rfl, total_firstEngine s fun _ => rfl,
      total_firstEngine s fun _ => rfl⟩
  · exact total_after hf ih

/-- All messages are accounted for after a round without fault. -/
lemma conserved (hs : s.Sound) (h : s.stages = ts ++ t :: rest)
    (hf : (t.record s.config).fault = none) : s.Conserved ts t := by
  have hperm := hs.perm_after h hf (hs.perm_of_stages_eq h)
  have hcoherent := (hs.coherent_of_stages_eq h).runRound s.config t.horizon.current
  have hidle : (t.after s.config).postbox.messages (t.past + 2) = [] :=
    List.flatMap_eq_nil_iff.2 fun i _ => by rw [Stage.after, hcoherent.idle, Envelope.messages_nil]
  refine ⟨?_, ?_, hcoherent, fun t' ht' u x hx => ?_, ?_⟩
  · have hsplit : s.stages = (ts ++ [t]) ++ rest := h.trans (List.append_cons ..)
    exact hs.nodup_posted hsplit
  · rw [hidle, List.append_nil]
    exact hperm
  · have hmem : t' ∈ s.stages := by
      rw [h]
      rcases List.mem_append.1 ht' with ht' | ht'
      · exact List.mem_append_left _ ht'
      · rw [List.mem_singleton.1 ht']
        exact List.mem_append_right _ List.mem_cons_self
    exact ((hs.coherent_of_mem hmem).slot?_runRound s.config t'.horizon.current hx).1
  · have hlength := hperm.length_eq
    obtain ⟨hdelivered, hwithdrawn⟩ := length_delivered (forall_fault_eq_none h hf)
    obtain ⟨_, hqueued, _⟩ := Engine.summary_of_success hf
    have hstaged := (Engine.counts_runRound s.config t.past t.horizon.current t.engine).2
    rw [posted, List.length_append, List.length_flatMap, List.length_append, List.length_append,
      Stage.remaining, List.length_append, hdelivered, hwithdrawn] at hlength
    rw [hlength, Stage.record, hqueued]
    have hstaged' : (t.engine.runRound s.config (t.past + 1) t.horizon.current).2.summary.staged =
        ((t.after s.config).postbox.messages (t.past + 1)).length := hstaged
    rw [hstaged', Stage.after]
    omega

/-- **The figures of a finished run** that came to a first round. -/
theorem stats_of_finished (hs : s.Sound) (h : s.stages = ts ++ [t]) {stats : RunStats}
    (hstats : s.outcome = .finished stats) :
    (t.record s.config).fault = none ∧ ∃ delta, s.leastLookahead = some delta ∧ stats =
      { rounds := (ts ++ [t]).length
        horizonDelta := delta
        finalHorizon := t.horizon.current
        seeded := (Envelope.messages s.opening).length
        delivered := ((ts ++ [t]).map fun t => (t.record s.config).summary.delivered).sum
        produced := ((ts ++ [t]).map fun t => (t.record s.config).accepted.length).sum
        cancelled := ((ts ++ [t]).map fun t => (t.record s.config).removed).sum
        undelivered := (t.record s.config).summary.pending
        workers := stats.workers } := by
  obtain ⟨t₀, p, hfirst, h₀, hout, rfl⟩ := of_outcome_finished h hstats
  obtain ⟨delta, hdelta, _, _, ht₀⟩ := hs.firstStage?_eq_some_iff.1 hfirst
  obtain ⟨hf, _, rfl, _⟩ := Stage.of_outcome hout
  obtain ⟨hdelivered, hcancelled, hproduced⟩ := total_after hf (hs.total_of_stages_eq h)
  obtain ⟨hlength, hlength'⟩ := length_delivered (forall_fault_eq_none h hf)
  have hpast : t.past + 1 = (ts ++ [t]).length := by
    rw [Stage.past_of_stages_eq h₀, ht₀, List.length_append, List.length_singleton, Nat.zero_add]
  have hseeded : t₀.engine.postbox.pendingDeliveries 0 = (Envelope.messages s.opening).length := by
    rw [← hs.perm_messages_firstEngine.length_eq, ← Postbox.pendingDeliveries_eq, ht₀]
  have htotal : ∀ f : WorkerStats → Nat, (((t.after s.config).workers.toList.map (·.stats)).map
      f).foldr (· + ·) 0 = (t.after s.config).total f := fun f => by
    rw [List.map_map]
    rfl
  refine ⟨hf, delta, hdelta, ?_⟩
  rw [statsOf, htotal, htotal, htotal, hdelivered, hcancelled, hproduced, hlength, hlength', hseeded,
    List.length_flatMap, hpast, ht₀]
  rfl

end Sound

/-- **Conservation.** After every round without fault, every message that has been scheduled was delivered
to its target, was withdrawn, waits, or is staged, each exactly once; and so the figures of every finished
run add up.

**Proof sketch.** A message has one key from the beginning to the end, so nothing is replaced when it is put
into a queue. Then a round splits what was pending into what it delivers, what it withdraws and what remains
(`Stage.perm_step`), and induction along the stages does the rest. -/
theorem IsSetUp.conservation (hs : s.IsSetUp) :
    (∀ ts t rest, s.stages = ts ++ t :: rest → (t.record s.config).fault = none → s.Conserved ts t) ∧
      ∀ stats, s.outcome = .finished stats →
        stats.seeded + stats.produced = stats.delivered + stats.cancelled + stats.undelivered := by
  refine ⟨fun ts t rest h hf => hs.sound.conserved h hf, fun stats hstats => ?_⟩
  rcases stages_eq_nil_or_append s with ⟨_, hfirst⟩ | ⟨ts, t, h⟩
  · rcases (run_of_none hfirst).2 with ⟨_, _, hfinished, _⟩ | ⟨e, hfailed, _⟩ | ⟨c, hcrashed, _⟩
    · cases hstats.symm.trans hfinished
      rfl
    · cases hstats.symm.trans hfailed
    · cases hstats.symm.trans hcrashed
  · obtain ⟨hf, delta, _, hfigures⟩ := hs.sound.stats_of_finished h hstats
    have hcount := (hs.sound.conserved h hf).count
    rw [hfigures]
    dsimp only
    rw [hcount, RoundSummary.pending, Nat.add_assoc]

/-- What the correspondents come to. -/
lemma outcome_correspondents : correspondents.outcome = .finished {
    rounds := 5, horizonDelta := ⟨Binary64.ofNat 1⟩, finalHorizon := ⟨Binary64.ofNat 5⟩
    seeded := 5, delivered := 5, produced := 2, cancelled := 2, undelivered := 0
    workers := [⟨Id.ofNat 0, 3, 1, 1, 3, 2⟩, ⟨Id.ofNat 1, 2, 1, 1, 2, 3⟩] } := by
  decide +kernel

/-- Two units at two workers withdraw two of their seven messages and receive the other five. -/
theorem conservation_correspondents :
    correspondents.IsSetUp ∧
      (∃ ts t, correspondents.stages = ts ++ [t] ∧
        (t.record correspondents.config).fault = none ∧ correspondents.Conserved ts t) ∧
      ∃ stats, correspondents.outcome = .finished stats ∧
        stats.seeded = 5 ∧ stats.produced = 2 ∧ stats.cancelled = 2 ∧
        stats.seeded + stats.produced = stats.delivered + stats.cancelled + stats.undelivered := by
  obtain ⟨hconserved, hfinished⟩ := isSetUp_correspondents.conservation
  refine ⟨isSetUp_correspondents, ?_, _, outcome_correspondents, rfl, rfl, rfl,
    hfinished _ outcome_correspondents⟩
  have hfault : ∀ t ∈ correspondents.stages, (t.record correspondents.config).fault = none := by
    decide +kernel
  have hlength : correspondents.stages.length = 5 := by decide +kernel
  rcases stages_eq_nil_or_append correspondents with ⟨hnil, _⟩ | ⟨ts, t, h⟩
  · rw [hnil] at hlength
    cases hlength
  · have hmem : t ∈ correspondents.stages := by
      rw [h]
      exact List.mem_append_right ts (List.mem_singleton_self t)
    have hf := hfault t hmem
    exact ⟨ts, t, h, hf, hconserved ts t [] h hf⟩

end Scheduler

end EventSim
