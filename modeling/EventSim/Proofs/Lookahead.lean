import EventSim.Proofs.Conservation
import EventSim.Proofs.SumsOfTimes
import EventSim.Proofs.Transcript

set_option autoImplicit false

/-!
# Lookahead

A unit that keeps to its lookahead schedules nothing earlier than that long after the message in hand. The
horizon of a round is one step, the least of all lookaheads, after an instant that nothing to come precedes:
the start, the horizon before, or the earliest message that is to come. As addition is monotone, rounded as it
is, the horizon is not later than the message in hand and the lookahead of its target together, and nothing is
refused for being too early.

## Main definitions

* `EventSim.Exchange.tooEarly` — a message that is refused for being too early.
* `EventSim.Scheduler.KeepsLookahead` — all units keep to their lookaheads.
* `EventSim.Scheduler.Paced` — the horizon is one step after an instant that nothing to come precedes.

## Main results

* `EventSim.Scheduler.IsSetUp.isFinite_of_mem_posted` — whatever is scheduled has a finite time.
* `EventSim.Scheduler.Sound.paced_of_stages_eq` — every stage of a run is paced.
* `EventSim.Scheduler.IsSetUp.horizon_le_of_mem_visits` — a lookahead after the message in hand the horizon has
  passed.
* `EventSim.Scheduler.IsSetUp.tooEarly_eq_false` — nothing is too early if units keep to their lookaheads.
-/

namespace EventSim

variable {U P : Type}

/-! ## Requests that come too early -/

namespace Exchange

/-- The time for which something is requested. -/
def time? : Exchange P → Option SimTime
  | .schedule _ time _ _ => some time
  | _ => none

/-- A message is refused for being too early, or should have been and could not be described. -/
def tooEarly : Exchange P → Bool
  | .schedule _ _ _ (.ok (.error (.causality ..))) => true
  | .schedule _ _ _ (.error _) => true
  | _ => false

variable [Payload P] {c : Context P} {x : Exchange P}

/-- What is refused for being too early is requested for a time before the horizon. -/
lemma exists_lt_of_tooEarly (hx : x.In c) (h : x.tooEarly = true) : ∃ time ∈ x.time?, time < c.view.horizon := by
  cases x with
  | schedule target time payload reply =>
    refine ⟨time, rfl, ?_⟩
    have hx : (c.schedule target time payload).map (·.1) = reply := hx
    by_contra hlt
    unfold Context.schedule at hx
    rw [if_neg hlt] at hx
    split at hx
    · subst hx
      cases h
    split at hx <;> subst hx <;> cases h
  | _ => cases h

/-- What is scheduled has a finite time. -/
lemma isFinite_of_envelope? (hx : x.In c) {m : Message P} (h : x.envelope? = some (.deliver m)) :
    m.time.isFinite = true := by
  unfold envelope? at h
  split at h <;> cases h
  rename_i target time payload handle
  have hx : (c.schedule target time payload).map (·.1) = .ok (.ok handle) := hx
  unfold Context.schedule at hx
  split at hx
  · cases hx
  · rename_i hfinite
    simpa using hfinite

end Exchange

/-- What a call sends has a finite time. -/
lemma Script.isFinite_of_mem_transcript [Payload P] {script : Script U P} {c : Context P} {m : Message P}
    (hm : .deliver m ∈ (script.transcript c).filterMap Exchange.envelope?) : m.time.isFinite = true := by
  obtain ⟨x, hx, henvelope⟩ := List.mem_filterMap.1 hm
  obtain ⟨c', _, _, hin⟩ := exists_of_mem_transcript hx
  exact Exchange.isFinite_of_envelope? hin henvelope

/-- In a call something comes too early only if it is requested for a time before the horizon. -/
lemma Script.exists_lt_of_tooEarly [Payload P] {script : Script U P} {c : Context P} {x : Exchange P}
    (hx : x ∈ script.transcript c) (h : x.tooEarly = true) : ∃ time ∈ x.time?, time < c.view.horizon := by
  obtain ⟨c', _, hsends, hin⟩ := exists_of_mem_transcript hx
  exact hsends.view ▸ Exchange.exists_lt_of_tooEarly hin h

/-! ## Finite times -/

namespace Scheduler

variable [Payload P] [SimUnit U P] {s : Scheduler U P} {t : Stage U P} {ts us rest : List (Stage U P)}

/-- **Whatever is scheduled has a finite time.** -/
theorem IsSetUp.isFinite_of_mem_posted (hs : s.IsSetUp) (h : s.stages = ts ++ us) {m : Message P}
    (hm : m ∈ s.posted ts) : m.time.isFinite = true := by
  rw [mem_posted, envelopes, opening, List.append_assoc] at hm
  rcases List.mem_append.1 hm with hseed | hm
  · obtain ⟨m', hm', heq⟩ := List.mem_map.1 hseed
    cases heq
    exact hs.isFinite_times.2 m hm'
  rcases List.mem_append.1 hm with hopening | hround
  · obtain ⟨x, _, hm⟩ := List.mem_flatMap.1 hopening
    rw [Slot.opening_eq] at hm
    exact Script.isFinite_of_mem_transcript hm
  · obtain ⟨t, ht, hm⟩ := List.mem_flatMap.1 hround
    have hc := hs.sound.coherent_of_mem (h ▸ List.mem_append_left us ht)
    rw [Stage.sent_eq hc] at hm
    obtain ⟨xs, hxs, hm⟩ := List.mem_flatMap.1 hm
    obtain ⟨v, _, rfl⟩ := List.mem_map.1 hxs
    exact Script.isFinite_of_mem_transcript hm

/-! ## Paced stages -/

/-- The horizon of a stage is one step after an instant that nothing to come precedes. -/
def Paced (s : Scheduler U P) (t : Stage U P) : Prop :=
  ∃ base, s.config.startTime ≤ base ∧ t.horizon.current = base + t.horizon.delta ∧
    ∀ m ∈ t.pending, base ≤ m.time

omit [Payload P] [SimUnit U P] in
/-- The horizon moves by one step, or jumps to the earliest message that is to come. -/
lemma horizon_of_verdict {config : RunConfig} {horizon horizon' : Horizon} {r : RoundRecord P}
    (h : r.verdict config horizon = .next horizon') :
    horizon' = horizon.advance ∨ ∃ e, r.earliest = some e ∧ horizon' = horizon.advanceTo e := by
  unfold RoundRecord.verdict at h
  split at h
  · cases h
  split at h
  · cases h
  split at h
  · cases h
  split at h
  · split at h
    · rename_i e he
      exact Or.inr ⟨e, he, (Verdict.next.inj h).symm⟩
    · exact Or.inl (Verdict.next.inj h).symm
  · exact Or.inl (Verdict.next.inj h).symm

/-- What is to come when the run goes on is not due before the horizon that has passed. -/
lemma Sound.horizon_le_of_mem_pending (hs : s.Sound) {t' : Stage U P} (h : s.stages = ts ++ t :: rest)
    (hnext : t.next? s.config = some t') {m : Message P} (hm : m ∈ t'.pending) :
    t.horizon.current ≤ m.time := by
  rcases List.mem_append.1 hm with hm | hm
  · exact le_of_lt (Stage.lt_of_mem_waiting hnext hm)
  · exact (Engine.sent_runRound s.config t.past t.horizon.current t.engine).1 _
      (Stage.mem_accepted_of_staged (hs.coherent_of_stages_eq h) hnext hm)

/-- **Every stage of a run is paced**, and its step is the least lookahead. -/
theorem Sound.paced_of_stages_eq (hs : s.Sound) (h : s.stages = ts ++ t :: rest) :
    s.Paced t ∧ s.leastLookahead = some t.horizon.delta := by
  refine stages_induction (motive := fun _ t => s.Paced t ∧ s.leastLookahead = some t.horizon.delta)
    (fun t ht => ?_) (fun ts t t' rest hstages hnext ih => ?_) h
  · obtain ⟨delta, hdelta, _, _, rfl⟩ := hs.firstStage?_eq_some_iff.1 ht
    refine ⟨⟨s.config.startTime, le_refl _, rfl, fun m hm => ?_⟩, hdelta⟩
    rw [Stage.pending, waiting_firstEngine, List.nil_append] at hm
    exact hs.start_le_of_opening (hs.perm_messages_firstEngine.subset hm)
  · obtain ⟨_, hdelta⟩ := ih
    have hpast : ∀ m ∈ t'.pending, t.horizon.current ≤ m.time := fun m =>
      hs.horizon_le_of_mem_pending hstages hnext
    have hstart : s.config.startTime < t.horizon.current :=
      hs.start_lt_horizon (hstages ▸ List.mem_append_right ts List.mem_cons_self)
    obtain ⟨hverdict, _⟩ := Stage.next?_eq_some_iff.1 hnext
    rcases horizon_of_verdict hverdict with hadvance | ⟨e, he, hadvance⟩
    · rw [hadvance]
      exact ⟨⟨t.horizon.current, le_of_lt hstart, by rw [hadvance]; rfl, hpast⟩, hdelta⟩
    · have hearliest : SimTime.earliest? (t'.pending.map (·.time)) = some e := by
        rw [Stage.pending_of_next? hnext, ← he]
        exact (Engine.summary_of_success (Stage.of_next? hnext).1).2.2.symm
      obtain ⟨hmem, hle⟩ := SimTime.earliest?_eq_some_iff.1 hearliest
      have hpast' : ∀ m ∈ t'.pending, e ≤ m.time := fun m hm => hle _ (List.mem_map_of_mem hm)
      obtain ⟨m, hm, rfl⟩ := List.mem_map.1 hmem
      have hstart' := le_trans (le_of_lt hstart) (hpast m hm)
      rw [hadvance]
      refine ⟨?_, hdelta⟩
      rcases max_choice (t.horizon.current + t.horizon.delta) (m.time + t.horizon.delta) with hmax | hmax
      · exact ⟨t.horizon.current, le_of_lt hstart, by rw [hadvance]; exact hmax, hpast⟩
      · exact ⟨m.time, hstart', by rw [hadvance]; exact hmax, hpast'⟩

/-! ## Units that keep to their lookahead -/

/-- All units keep to their lookaheads. What they request may otherwise be refused for any reason. -/
structure KeepsLookahead (s : Scheduler U P) : Prop where
  /-- Every lookahead is finite and positive. -/
  positive : ∀ p ∈ s.unitList, (SimUnit.lookahead p.2).secs.isPositiveFinite = true
  /-- A unit that starts schedules nothing before the start. -/
  start_le : ∀ x ∈ s.placed, ∀ y ∈ x.startTranscript s.table s.config.startTime, ∀ time ∈ y.time?,
    s.config.startTime ≤ time
  /-- A unit that is handed a message schedules nothing before its own lookahead has passed, the one that is
  read before the run. -/
  lookahead_le : ∀ t ∈ s.stages, ∀ v ∈ t.visits s.config, ∀ y ∈ v.transcript t.setting, ∀ time ∈ y.time?,
    ∀ unit ∈ s.unit? v.slot.id, v.message.time + SimUnit.lookahead unit ≤ time

/-- What a visit handles is to come before the round, and is for a unit that is registered. -/
lemma Sound.of_mem_visits (hs : s.Sound) (h : s.stages = ts ++ t :: rest) {v : Visit U P}
    (hv : v ∈ t.visits s.config) : v.message ∈ t.pending ∧ (s.registered? v.slot.id).isSome := by
  have hc := hs.coherent_of_stages_eq h
  obtain ⟨y, hy, houtline⟩ := Stage.exists_handled_of_mem_visits hc hv
  have hmessage : y.message = v.message := congrArg (·.1) houtline
  obtain ⟨x, hx⟩ := hc.exists_slot_of_handled hy
  obtain ⟨i, w, hi, hx⟩ := hc.slot?_eq_some_iff.1 hx
  have howner := hc.owner_of_slot? hi hx
  refine ⟨?_, ?_⟩
  · rw [Stage.pending, List.mem_append, ← hmessage]
    exact (Stage.of_handled hc hy).1
  · rw [hs.table_of_stages_eq h, RoutingTable.owner?, Option.map_eq_some_iff] at howner
    obtain ⟨route, hroute, _⟩ := howner
    rw [(Stage.map_outline_handled hc).2 v hv, ← hmessage, ← hs.isSome_route?]
    exact Option.isSome_of_eq_some hroute

/-- **A lookahead after the message in hand the horizon has passed.**

**Proof sketch.** The message is not due before the base of the horizon. So with `delta` the least lookahead,
the horizon `base + delta` is at most the time of the message and the lookahead of its target together. All
these times are finite, as addition need not be monotone otherwise. -/
theorem IsSetUp.horizon_le_of_mem_visits (hs : s.IsSetUp)
    (hpositive : ∀ p ∈ s.unitList, (SimUnit.lookahead p.2).secs.isPositiveFinite = true)
    (h : s.stages = ts ++ t :: rest) {v : Visit U P} (hv : v ∈ t.visits s.config) {r : Registered U}
    (hr : s.registered? v.slot.id = some r) :
    t.horizon.current ≤ v.message.time + SimUnit.lookahead r.unit := by
  obtain ⟨hpending, _⟩ := hs.sound.of_mem_visits h hv
  obtain ⟨⟨base, hstart, hhorizon, hbase⟩, hdelta⟩ := hs.sound.paced_of_stages_eq h
  obtain ⟨hmem, hleast⟩ := SimTime.earliest?_eq_some_iff.1 hdelta
  obtain ⟨p, hp, hdelta⟩ := List.mem_map.1 hmem
  have hnow := hs.isFinite_of_mem_posted h (hs.sound.mem_posted_of_mem_pending h hpending)
  have hfinite := SimTime.isFinite_of_le_of_le hs.isFinite_times.1 hnow hstart (hbase _ hpending)
  rw [hhorizon]
  refine SimTime.add_le_add hfinite hnow ?_ (hpositive _ (mem_unitList hr)) (hbase _ hpending)
    (hleast _ (List.mem_map_of_mem (mem_unitList hr)))
  rw [← hdelta]
  exact hpositive p hp

/-- **Lookahead soundness.** If all units keep to their lookaheads, no request of any call in the run comes too
early, however many workers there are and whatever becomes of idle rounds and of the end. -/
theorem IsSetUp.tooEarly_eq_false (hs : s.IsSetUp) (hk : s.KeepsLookahead) :
    ∀ xs ∈ s.transcripts, ∀ y ∈ xs, y.tooEarly = false := by
  intro xs hxs y hy
  rw [Bool.eq_false_iff]
  intro hearly
  rcases mem_transcripts.1 hxs with ⟨x, hx, rfl⟩ | ⟨t, ht, v, hv, rfl⟩
  · obtain ⟨time, htime, hlt⟩ := Script.exists_lt_of_tooEarly hy hearly
    exact not_le.2 hlt (hk.start_le x hx y hy time htime)
  · obtain ⟨time, htime, hlt⟩ := Script.exists_lt_of_tooEarly hy hearly
    obtain ⟨ts, rest, h⟩ := List.append_of_mem ht
    obtain ⟨r, hr⟩ := Option.isSome_iff_exists.1 (hs.sound.of_mem_visits h hv).2
    have hunit : s.unit? v.slot.id = some r.unit := by rw [unit?, hr, Option.map_some]
    have hbound := hs.horizon_le_of_mem_visits hk.positive h hv hr
    exact not_le.2 hlt (le_trans hbound (hk.lookahead_le t ht v hv y hy time htime _ hunit))

/-- Two units at two workers keep to their lookaheads, and nothing is too early. -/
theorem tooEarly_eq_false_correspondents :
    correspondents.KeepsLookahead ∧ ∀ xs ∈ correspondents.transcripts, ∀ y ∈ xs, y.tooEarly = false := by
  have hk : correspondents.KeepsLookahead := ⟨by decide +kernel, by decide +kernel, by decide +kernel⟩
  exact ⟨hk, isSetUp_correspondents.tooEarly_eq_false hk⟩

end Scheduler

end EventSim
