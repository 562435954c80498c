import EventSim.Proofs.Leftovers
import EventSim.Proofs.PartitionIndependence

set_option autoImplicit false

/-!
# Ending a run early

A run with an end time and the same run without one go through the same stages until the horizon passes the
end. The round in which it does so hands over what is due by the end and stops there, and what the longer run
does after that, and whether it fails, concerns only later messages. So an end time is a truncation: each unit
receives what it would receive without it, up to that time.

## Main definitions

* `EventSim.Scheduler.endingAt` — the same setup with an end time.

## Main results

* `EventSim.Worker.deliverAll_append` — messages that are handed over after others do not change what came
  before.
* `EventSim.Stage.handled_endingAt` — a round that is cut off hands over the messages that are due by the end.
* `EventSim.Stage.exists_stages_eq_append` — the run that is cut off goes through the first stages of the other.
* `EventSim.Scheduler.IsSetUp.course_endingAt` — an end time is a truncation.
-/

namespace EventSim

variable {U P : Type}

/-! ## The same setup with an end -/

/-- The configuration with the given end. -/
def RunConfig.endingAt (config : RunConfig) (finish : SimTime) : RunConfig :=
  { config with endTime := some finish }

/-- The scheduler whose run has the given end. -/
def Scheduler.endingAt (s : Scheduler U P) (finish : SimTime) : Scheduler U P :=
  { s with config := s.config.endingAt finish }

namespace RunConfig

variable {config : RunConfig} {horizon finish : SimTime}

/-- Without an end everything within the horizon is due. -/
lemma deliveryLimit_of_none (hnone : config.endTime = none) : config.deliveryLimit horizon = horizon := by
  rw [deliveryLimit, hnone]

/-- Without an end the end is never reached. -/
lemma reachedEnd_of_none (hnone : config.endTime = none) : config.reachedEnd horizon = false := by
  rw [reachedEnd, hnone]

/-- With an end, what is due is also not later than the end. -/
lemma deliveryLimit_endingAt : (config.endingAt finish).deliveryLimit horizon = min horizon finish := rfl

/-- The end is passed by every later horizon. -/
lemma reachedEnd_endingAt : (config.endingAt finish).reachedEnd horizon = decide (finish < horizon) := rfl

end RunConfig

/-! ## Handing over a part of the messages -/

namespace MessageQueue

/-- What is due by a limit begins with what is due by an earlier one. -/
lemma exists_popUpTo_eq_append (q : MessageQueue P) {limit limit' : SimTime} (hle : limit' ≤ limit) :
    ∃ late, (q.popUpTo limit).1 = (q.popUpTo limit').1 ++ late ∧
      ∀ m ∈ late, limit' < m.time ∧ m.time ≤ limit := by
  refine ⟨((q.popUpTo limit').2.popUpTo limit).1, ?_, fun m hm => ?_⟩
  · have hsplit := popUpTo_append q limit'
    have hall : ∀ m ∈ (q.popUpTo limit').1, decide (m.time ≤ limit) = true := fun m hm =>
      decide_eq_true (le_trans (mem_popUpTo.1.1 hm).2 hle)
    change q.entries.takeWhile _ = _
    rw [← hsplit, List.takeWhile_append_of_pos hall]
    rfl
  · obtain ⟨hrest, hdue⟩ := mem_popUpTo.1.1 hm
    exact ⟨not_le.1 (mem_popUpTo.2.1 hrest).2, hdue⟩

end MessageQueue

variable [Payload P] [SimUnit U P]

namespace Worker

variable {table : RoutingTable} {round : Nat} {horizon finish : SimTime} {w : Worker U P}
  {config : RunConfig}

/-- Handing over a message does not touch the queue. -/
lemma deliver_withQueue (q : MessageQueue P) (m : Message P) :
    { w with queue := q }.deliver table round horizon m =
      ({ (w.deliver table round horizon m).1 with queue := q }, (w.deliver table round horizon m).2) := by
  unfold deliver
  dsimp only
  cases (table.route? m.target).bind fun r => (w.slots[r.slot]?).map fun s => (r.slot, s) <;> rfl

/-- What comes of messages does not depend on what still waits. -/
lemma deliverAll_withQueue (q : MessageQueue P) (ms : List (Message P)) :
    ({ w with queue := q }.deliverAll table round horizon ms).2 =
      (w.deliverAll table round horizon ms).2 := by
  induction ms generalizing w with
  | nil => rfl
  | cons m ms ih =>
    rw [deliverAll_cons, deliverAll_cons, deliver_withQueue]
    dsimp only
    rw [ih]
    split <;> rfl

/-- **Messages that are handed over after others do not change what came before.** -/
theorem deliverAll_append (table : RoutingTable) (round : Nat) (horizon : SimTime) (w : Worker U P)
    (ms ns : List (Message P)) :
    ∃ hs, (w.deliverAll table round horizon (ms ++ ns)).2 =
      (w.deliverAll table round horizon ms).2 ++ hs ∧ ∀ h ∈ hs, h.message ∈ ns := by
  induction ms generalizing w with
  | nil =>
    exact ⟨_, rfl, fun h hh =>
      (prefix_messages_deliverAll table round horizon w ns).subset (List.mem_map_of_mem hh)⟩
  | cons m ms ih =>
    rw [List.cons_append, deliverAll_cons, deliverAll_cons]
    split
    · exact ⟨[], rfl, fun h hh => absurd hh List.not_mem_nil⟩
    · obtain ⟨hs, heq, hmem⟩ := ih (w.deliver table round horizon m).1
      exact ⟨hs, congrArg (_ :: ·) heq, hmem⟩

/-- **A worker whose round is cut off hands over the messages that are due by the end.**

**Proof sketch.** What is due comes in order of time, so what is due by the end comes first. Whether or not one
of these messages fails, the later ones do not change what comes of them. -/
theorem handled_endingAt (hnone : config.endTime = none) (staged : List (Envelope P)) :
    (w.runRound (config.endingAt finish) table round horizon staged).2.handled =
      (w.runRound config table round horizon staged).2.handled.filter (·.message.time ≤ finish) := by
  obtain ⟨late, hlate, htime⟩ := (w.queue.merge staged).2.exists_popUpTo_eq_append
    (min_le_left horizon finish)
  have hdue : w.due config horizon staged =
      w.due (config.endingAt finish) horizon staged ++ late := by
    rw [due, RunConfig.deliveryLimit_of_none hnone, hlate]
    rfl
  obtain ⟨hs, heq, hmem⟩ := (w.primed config horizon staged).deliverAll_append
    table round horizon (w.due (config.endingAt finish) horizon staged) late
  -- the worker that stops early differs from the other one in its queue alone
  have hqueue : ((w.primed (config.endingAt finish) horizon staged).deliverAll table round horizon
      (w.due (config.endingAt finish) horizon staged)).2 =
        ((w.primed config horizon staged).deliverAll table round horizon
          (w.due (config.endingAt finish) horizon staged)).2 :=
    deliverAll_withQueue (w := w.primed config horizon staged) ..
  have hwithin : ∀ h ∈ ((w.primed config horizon staged).deliverAll table round horizon
      (w.due (config.endingAt finish) horizon staged)).2, h.message.time ≤ finish := by
    intro h hh
    have hin := (prefix_messages_deliverAll _ _ _ _ _).subset (List.mem_map_of_mem hh)
    exact le_trans (of_mem_due hin).2 (min_le_right horizon finish)
  have hbeyond : ∀ h ∈ hs, ¬ h.message.time ≤ finish := by
    intro h hh hle
    obtain ⟨hlt, hdue⟩ := htime _ (hmem h hh)
    exact absurd hlt (not_lt.2 (le_min hdue hle))
  rw [(runRound_frame ..).2.2.2.2.1, (runRound_frame ..).2.2.2.2.1, handling, handling, hqueue, hdue, heq,
    List.filter_append, List.filter_eq_self.2 (by simpa using hwithin),
    List.filter_eq_nil_iff.2 (by simpa using hbeyond), List.append_nil]

end Worker

/-! ## Rounds that are cut off -/

namespace Engine

/-- A round depends on the configuration only by its limit. -/
lemma runRound_congr {config config' : RunConfig} {horizon : SimTime}
    (h : config.deliveryLimit horizon = config'.deliveryLimit horizon) (round : Nat) (e : Engine U P) :
    e.runRound config round horizon = e.runRound config' round horizon := by
  unfold runRound Worker.runRound
  rw [h]

end Engine

namespace Stage

variable {config : RunConfig} {finish : SimTime} {t t' : Stage U P}

/-- **A round that is cut off hands over the messages that are due by the end.** -/
theorem handled_endingAt (hnone : config.endTime = none) (t : Stage U P) (finish : SimTime) :
    (t.record (config.endingAt finish)).handled =
      (t.record config).handled.filter (·.message.time ≤ finish) := by
  rw [record, record, Engine.handled_runRound, Engine.handled_runRound, List.filter_flatMap]
  apply List.flatMap_congr
  intro w _
  exact Worker.handled_endingAt hnone _

/-- What a unit is handed in a round that is cut off. -/
lemma received_endingAt (hnone : config.endTime = none) (t : Stage U P) (finish : SimTime) (u : UnitId) :
    (t.record (config.endingAt finish)).received u =
      ((t.record config).received u).filter (·.time ≤ finish) := by
  rw [RoundRecord.received, RoundRecord.received, handled_endingAt hnone]
  conv_rhs => rw [List.filter_comm, List.filter_map]
  rfl

/-- Up to the end, the run goes on as it would without an end. -/
lemma next?_endingAt_of_le (hnone : config.endTime = none) (hle : t.horizon.current ≤ finish) :
    t.next? (config.endingAt finish) = t.next? config := by
  have hlimit : (config.endingAt finish).deliveryLimit t.horizon.current =
      config.deliveryLimit t.horizon.current := by
    rw [RunConfig.deliveryLimit_endingAt, RunConfig.deliveryLimit_of_none hnone, min_eq_left hle]
  have hreached : (config.endingAt finish).reachedEnd t.horizon.current =
      config.reachedEnd t.horizon.current := by
    rw [RunConfig.reachedEnd_endingAt, RunConfig.reachedEnd_of_none hnone]
    simpa using hle
  have hskip : (config.endingAt finish).skipIdleRounds = config.skipIdleRounds := rfl
  have hround := Engine.runRound_congr hlimit (t.past + 1) t.engine
  unfold next? record after RoundRecord.verdict
  rw [hround, hreached, hskip]

/-- After the end the run does not go on. -/
lemma next?_endingAt_of_lt (hlt : finish < t.horizon.current) : t.next? (config.endingAt finish) = none := by
  by_contra hne
  obtain ⟨t', ht'⟩ := Option.ne_none_iff_exists'.1 hne
  have hreached := (of_next? ht').2.2
  rw [RunConfig.reachedEnd_endingAt, decide_eq_false_iff_not] at hreached
  exact hreached hlt

/-- **The run that is cut off goes through the first stages of the other**, and if the other goes on, through
one whose horizon is later than the end. -/
theorem exists_stages_eq_append (hnone : config.endTime = none) (t : Stage U P) (finish : SimTime) :
    ∃ rest, t.stages config = t.stages (config.endingAt finish) ++ rest ∧
      (rest = [] ∨ ∃ l ∈ t.stages (config.endingAt finish), finish < l.horizon.current) := by
  fun_induction stages (config.endingAt finish) t with
  | case1 t t' hn ih =>
    obtain ⟨rest, heq, hlast⟩ := ih
    have hle : t.horizon.current ≤ finish := by
      by_contra hlt
      rw [next?_endingAt_of_lt (not_le.1 hlt)] at hn
      cases hn
    rw [next?_endingAt_of_le hnone hle] at hn
    refine ⟨rest, ?_, hlast.imp_right ?_⟩
    · rw [stages_of_some hn, heq, List.cons_append]
    · rintro ⟨l, hl, hlt⟩
      exact ⟨l, List.mem_cons_of_mem _ hl, hlt⟩
  | case2 t hn =>
    rcases le_or_gt t.horizon.current finish with hle | hlt
    · rw [next?_endingAt_of_le hnone hle] at hn
      exact ⟨[], by rw [stages_of_none hn]; rfl, Or.inl rfl⟩
    · exact ⟨_, List.eq_cons_of_mem_head? (head?_stages config t), Or.inr ⟨t, by simp, hlt⟩⟩

end Stage

/-! ## Runs that are cut off -/

namespace Scheduler

variable {s s' : Scheduler U P} {finish : SimTime}

omit [Payload P] in
lemma register_endingAt (s : Scheduler U P) (finish : SimTime) (unit : U) (worker : WorkerId) :
    (s.register unit worker).2.config = s.config ∧
      ((s.endingAt finish).register unit worker).2 = (s.register unit worker).2.endingAt finish := by
  grind [register, endingAt, RunConfig.endingAt]

omit [Payload P] [SimUnit U P] in
lemma unregister_endingAt (s : Scheduler U P) (finish : SimTime) (id : UnitId) :
    (s.unregister id).2.config = s.config ∧
      ((s.endingAt finish).unregister id).2 = (s.unregister id).2.endingAt finish := by
  grind [unregister, endingAt, registered?]

omit [SimUnit U P] in
lemma schedule_endingAt {target : UnitId} {time : SimTime} {payload : P}
    {reply : Except RunError Handle} (h : s.schedule target time payload = .ok (reply, s')) :
    s'.config = s.config ∧
      (s.endingAt finish).schedule target time payload = .ok (reply, s'.endingAt finish) := by
  cases hdescribe : Payload.describe payload
  all_goals grind [schedule, endingAt, registered?, RunConfig.endingAt]

omit [Payload P] [SimUnit U P] in
lemma unschedule_endingAt (s : Scheduler U P) (finish : SimTime) (handle : Handle) :
    (s.unschedule handle).2.config = s.config ∧
      ((s.endingAt finish).unschedule handle).2 = (s.unschedule handle).2.endingAt finish := by
  grind [unschedule, endingAt]

/-- The operations of the setup do not ask for the end. -/
lemma IsSetUp.endingAt (hs : s.IsSetUp) (hvalid : (s.config.endingAt finish).check = .ok ()) :
    (s.endingAt finish).IsSetUp := by
  induction hs with
  | @new config s h =>
    obtain rfl := eq_of_new h
    have hnew : Scheduler.new (config.endingAt finish) =
        .ok (({ config } : Scheduler U P).endingAt finish) := by rw [Scheduler.new, hvalid]; rfl
    exact .new hnew
  | @register s hs unit worker ih =>
    obtain ⟨hconfig, heq⟩ := s.register_endingAt finish unit worker
    rw [hconfig] at hvalid
    rw [← heq]
    exact (ih hvalid).register unit worker
  | @unregister s hs id ih =>
    obtain ⟨hconfig, heq⟩ := s.unregister_endingAt finish id
    rw [hconfig] at hvalid
    rw [← heq]
    exact (ih hvalid).unregister id
  | schedule hs h ih =>
    obtain ⟨hconfig, heq⟩ := schedule_endingAt h
    rw [hconfig] at hvalid
    exact (ih hvalid).schedule heq
  | @unschedule s hs handle ih =>
    obtain ⟨hconfig, heq⟩ := s.unschedule_endingAt finish handle
    rw [hconfig] at hvalid
    rw [← heq]
    exact (ih hvalid).unschedule handle
  | updateUnit hs id f ih => exact (ih hvalid).updateUnit id f

/-- The setup with an end comes to the same first round. -/
lemma firstStage?_endingAt (s : Scheduler U P) (finish : SimTime) :
    (s.endingAt finish).firstStage? = s.firstStage? := rfl

/-- **The run that is cut off goes through the first rounds of the other**, and if the other goes on, through
one whose horizon is later than the end. -/
theorem exists_stages_eq_append (hnone : s.config.endTime = none) (finish : SimTime) :
    ∃ rest, s.stages = (s.endingAt finish).stages ++ rest ∧
      (rest = [] ∨ ∃ l ∈ (s.endingAt finish).stages, finish < l.horizon.current) := by
  rw [stages, stages, firstStage?_endingAt]
  cases s.firstStage? with
  | none => exact ⟨[], rfl, Or.inl rfl⟩
  | some t => exact t.exists_stages_eq_append hnone finish

/-- What a unit is handed in one round, with what it can see of its surroundings. -/
def courseIn (u : UnitId) (r : RoundRecord P) : List (Message P × View) :=
  (r.received u).map fun m => (m, ⟨u, m.time, r.horizon, r.round⟩)

/-- The course of a unit, round by round. -/
lemma course_eq_flatMap (s : Scheduler U P) (u : UnitId) :
    s.course u = s.stages.flatMap fun t => courseIn u (t.record s.config) := by
  rw [course, history_eq_map, List.flatMap_map]
  rfl

/-- What a unit is handed in a round that is cut off. -/
lemma courseIn_endingAt (hnone : s.config.endTime = none) (t : Stage U P) (finish : SimTime) (u : UnitId) :
    courseIn u (t.record (s.endingAt finish).config) =
      (courseIn u (t.record s.config)).filter (·.1.time ≤ finish) := by
  have hreceived : (t.record (s.endingAt finish).config).received u =
      ((t.record s.config).received u).filter (·.time ≤ finish) := Stage.received_endingAt hnone t finish u
  simp only [courseIn, hreceived, Stage.horizon_record, Stage.round_record, List.filter_map,
    Function.comp_def]

/-- What is handed over after a round whose horizon is later than the end is itself later. -/
lemma Sound.lt_of_mem_courseIn (hs : s.Sound) {ts rest : List (Stage U P)} {l t : Stage U P}
    (h : s.stages = ts ++ l :: rest) (hlt : finish < l.horizon.current) (ht : t ∈ rest) {u : UnitId}
    {x : Message P × View} (hx : x ∈ courseIn u (t.record s.config)) : finish < x.1.time := by
  obtain ⟨m, hm, rfl⟩ := List.mem_map.1 hx
  obtain ⟨y, hy, rfl⟩ := List.mem_map.1 (List.mem_of_mem_filter hm)
  exact lt_of_lt_of_le hlt (hs.horizon_le_of_history_eq (history_eq_of_stages_eq h)
    (List.mem_map_of_mem ht) hy)

/-- **An end time is a truncation.** With an end each unit is handed just the messages that it is handed
without it and that are due by then, in the same order and with the same views, however either run ends.

**Proof sketch.** The run with the end goes through the first stages of the other run
(`exists_stages_eq_append`), and in each of their rounds hands over what is due by the end
(`Stage.handled_endingAt`). If the other run goes on, the horizon has passed the end, and nothing that is handed
over later is due before that horizon (`Sound.horizon_le_of_history_eq`). -/
theorem IsSetUp.course_endingAt (hs : s.IsSetUp) (hnone : s.config.endTime = none)
    (hvalid : (s.config.endingAt finish).check = .ok ()) : (s.endingAt finish).IsSetUp ∧
      ∀ u, (s.endingAt finish).course u = (s.course u).filter (·.1.time ≤ finish) := by
  refine ⟨hs.endingAt hvalid, fun u => ?_⟩
  obtain ⟨rest, hstages, hrest⟩ := exists_stages_eq_append hnone finish
  have hlate : (rest.flatMap fun t => courseIn u (t.record s.config)).filter (·.1.time ≤ finish) = [] := by
    rcases hrest with rfl | ⟨l, hl, hlt⟩
    · rfl
    · obtain ⟨as, bs, hsplit⟩ := List.append_of_mem hl
      rw [hsplit, List.append_assoc, List.cons_append] at hstages
      apply List.filter_eq_nil_iff.2
      intro x hx
      obtain ⟨t, ht, hx⟩ := List.mem_flatMap.1 hx
      have htime := hs.sound.lt_of_mem_courseIn hstages hlt (List.mem_append_right _ ht) hx
      simpa using htime
  calc (s.endingAt finish).course u
      = (s.endingAt finish).stages.flatMap fun t =>
          (courseIn u (t.record s.config)).filter (·.1.time ≤ finish) := by
        rw [course_eq_flatMap]
        exact List.flatMap_congr fun t _ => courseIn_endingAt hnone t finish u
    _ = ((s.endingAt finish).stages.flatMap fun t =>
          courseIn u (t.record s.config)).filter (·.1.time ≤ finish) := List.filter_flatMap.symm
    _ = (s.course u).filter (·.1.time ≤ finish) := by
        rw [course_eq_flatMap, hstages, List.flatMap_append, List.filter_append, hlate, List.append_nil]

/-- Without an end the couriers fail in their fourth round, when the first of them receives an eight. If they
end at the third second they finish, and what the first of them has received is cut off there. -/
theorem course_endingAt_couriers :
    (couriers none).outcome = .failed (.unitFailed (Id.ofNat 0) (Id.ofNat 0) ⟨Binary64.ofNat 4⟩ "8"
      (.model "lost")) ∧
      ((couriers none).endingAt ⟨Binary64.ofNat 3⟩).IsSetUp ∧
      (∃ stats, ((couriers none).endingAt ⟨Binary64.ofNat 3⟩).outcome = .finished stats) ∧
      ((couriers none).course (Id.ofNat 0)).map (·.1.payload.value) = [5, 4, 3, 9, 2, 8] ∧
      (((couriers none).endingAt ⟨Binary64.ofNat 3⟩).course (Id.ofNat 0)).map (·.1.payload.value) =
        [5, 4, 3, 9, 2] := by
  have hs : (couriers none).IsSetUp := isSetUp_pair rfl courier _ _
  obtain ⟨hs', hcourse⟩ := hs.course_endingAt
    (rfl : (couriers none).config.endTime = none)
    (rfl : ((couriers none).config.endingAt ⟨Binary64.ofNat 3⟩).check = .ok ())
  refine ⟨by decide +kernel, hs', ⟨_, outcome_couriers⟩, by decide +kernel, ?_⟩
  rw [hcourse]
  decide +kernel

end Scheduler

end EventSim
