import EventSim.Proofs.Exits
import EventSim.Proofs.MessageNumbers

set_option autoImplicit false

/-!
# The log of a setup

A log lists the operations of a setup with the replies that were given. Everything that a run is handed can be
read off the log: the units that are there, each with its number and its worker, are those that were registered
and not taken away afterwards, and the seeds are the messages that were scheduled and neither withdrawn nor
dropped with their target afterwards.

## Main definitions

* `EventSim.SetupCall`, `EventSim.SetupStep` — a call of an operation of the setup, and the same with the reply.
* `EventSim.SetupStep.lasting` — what the steps of a log bring and no later step takes away.
* `EventSim.SetupStep.residents`, `EventSim.SetupStep.standing` — the units and the seeds that a log leaves.
* `EventSim.Scheduler.perform` — carrying out a call.
* `EventSim.Scheduler.SetUpBy` — the schedulers that arise from the operations of the setup, with the log.

## Main results

* `EventSim.Scheduler.SetUpBy.index_given` — the numbers of units are given one after another.
* `EventSim.Scheduler.SetUpBy.residents_eq` — the units that are there.
* `EventSim.Scheduler.SetUpBy.seeds_eq` — the seeds that are there.
-/

namespace EventSim

variable {U P : Type}

/-! ## Calls and replies -/

/-- A call of an operation of the setup. -/
inductive SetupCall (U P : Type) where
  /-- A unit is to be registered. -/
  | register (unit : U) (worker : WorkerId)
  /-- A unit is to be taken away. -/
  | unregister (id : UnitId)
  /-- A seed is to be scheduled. -/
  | schedule (target : UnitId) (time : SimTime) (payload : P)
  /-- A seed is to be withdrawn. -/
  | unschedule (handle : Handle)
  /-- The state of a unit is to be changed from outside. -/
  | updateUnit (id : UnitId) (f : U → U)

/-- What the reply to a call can be. The reply to `schedule` is missing if the message comes too early and
describing it breaks down. -/
def SetupCall.Reply : SetupCall U P → Type
  | .register _ _ => Except RunError UnitId
  | .unregister _ => Except RunError U
  | .schedule _ _ _ => Except Crash (Except RunError Handle)
  | .unschedule _ => Except RunError Bool
  | .updateUnit _ _ => Unit

/-- A call with the reply to it. -/
structure SetupStep (U P : Type) where
  /-- The call. -/
  call : SetupCall U P
  /-- The reply. -/
  reply : call.Reply

namespace SetupStep

/-- The unit number that is given, with the worker that the unit is pinned to. -/
def resident? : SetupStep U P → Option (UnitId × WorkerId)
  | ⟨.register _ worker, .ok id⟩ => some (id, worker)
  | _ => none

/-- The unit is taken away. -/
def evicts (p : UnitId × WorkerId) : SetupStep U P → Bool
  | ⟨.unregister id, .ok _⟩ => id = p.1
  | _ => false

/-- The message that is accepted as a seed. -/
def seed? : SetupStep U P → Option (Message P)
  | ⟨.schedule target time payload, .ok (.ok h)⟩ => some ⟨h.id, target, time, payload⟩
  | _ => none

/-- The message is withdrawn, or its target is taken away. -/
def drops (m : Message P) : SetupStep U P → Bool
  | ⟨.unschedule h, .ok _⟩ => h.id = m.id
  | ⟨.unregister id, .ok _⟩ => id = m.target
  | _ => false

/-- What the steps of a log bring and no later step takes away, in order. -/
def lasting {α : Type} (brings : SetupStep U P → Option α) (removes : α → SetupStep U P → Bool) :
    List (SetupStep U P) → List α
  | [] => []
  | x :: later => (brings x).toList.filter (fun a => !later.any (removes a)) ++ lasting brings removes later

/-- The units that a log leaves, with their workers. -/
def residents (log : List (SetupStep U P)) : List (UnitId × WorkerId) := lasting resident? evicts log

/-- The seeds that a log leaves. -/
def standing (log : List (SetupStep U P)) : List (Message P) := lasting seed? drops log

/-- One more step takes away some of what was there, and then brings something of its own. -/
lemma lasting_concat {α : Type} (brings : SetupStep U P → Option α) (removes : α → SetupStep U P → Bool)
    (log : List (SetupStep U P)) (x : SetupStep U P) : lasting brings removes (log ++ [x]) =
      (lasting brings removes log).filter (fun a => !removes a x) ++ (brings x).toList := by
  induction log with
  | nil => simp [lasting]
  | cons y log ih =>
    rw [List.cons_append, lasting, ih, lasting, List.filter_append, List.filter_filter, List.append_assoc]
    simp only [List.any_append, List.any_cons, List.any_nil, Bool.or_false, Bool.not_or, Bool.and_comm]

end SetupStep

namespace Scheduler

variable [Payload P] [SimUnit U P] {s s' : Scheduler U P} {x : SetupStep U P} {log : List (SetupStep U P)}

/-- Carries out a call. -/
def perform (s : Scheduler U P) : (c : SetupCall U P) → c.Reply × Scheduler U P
  | .register unit worker => s.register unit worker
  | .unregister id => s.unregister id
  | .schedule target time payload =>
    match s.schedule target time payload with
    | .ok (reply, s') => (.ok reply, s')
    | .error c => (.error c, s)
  | .unschedule handle => s.unschedule handle
  | .updateUnit id f => ((), s.updateUnit id f)

/-- A message is scheduled or refused, unless it must be described and cannot be. -/
lemma perform_schedule_cases (s : Scheduler U P) (target : UnitId) (time : SimTime) (payload : P) :
    (∃ reply s', s.schedule target time payload = .ok (reply, s') ∧
        s.perform (.schedule target time payload) = (.ok reply, s')) ∨
      ∃ c, s.perform (.schedule target time payload) = (.error c, s) := by
  cases h : s.schedule target time payload with
  | ok r => exact Or.inl ⟨r.1, r.2, rfl, by simp only [perform, h]⟩
  | error c => exact Or.inr ⟨c, by simp only [perform, h]⟩

/-- The schedulers that arise from the operations of the setup, in any order and with any arguments, with the
log of these operations. -/
inductive SetUpBy : List (SetupStep U P) → Scheduler U P → Prop
  /-- A new scheduler has an empty log. -/
  | new {config : RunConfig} {s : Scheduler U P} (h : Scheduler.new config = .ok s) : SetUpBy [] s
  /-- One more call is carried out. -/
  | step {log : List (SetupStep U P)} {s : Scheduler U P} (h : SetUpBy log s) (c : SetupCall U P) :
    SetUpBy (log ++ [⟨c, (s.perform c).1⟩]) (s.perform c).2

/-- A scheduler that is set up stays so with every call. -/
lemma IsSetUp.perform (h : s.IsSetUp) (c : SetupCall U P) : (s.perform c).2.IsSetUp := by
  cases c with
  | register unit worker => exact h.register unit worker
  | unregister id => exact h.unregister id
  | schedule target time payload =>
    rcases s.perform_schedule_cases target time payload with ⟨reply, s', hreply, hp⟩ | ⟨c, hp⟩ <;> rw [hp]
    · exact h.schedule hreply
    · exact h
  | unschedule handle => exact h.unschedule handle
  | updateUnit id f => exact h.updateUnit id f

/-- Whatever the log, the scheduler is set up. -/
lemma SetUpBy.isSetUp (h : SetUpBy log s) : s.IsSetUp := by
  induction h with
  | new h => exact .new h
  | step _ c ih => exact ih.perform c

/-- Carries out calls one after another. Returns their log with the scheduler. -/
def performAll (s : Scheduler U P) : List (SetupCall U P) → List (SetupStep U P) × Scheduler U P
  | [] => ([], s)
  | c :: cs => (⟨c, (s.perform c).1⟩ :: ((s.perform c).2.performAll cs).1, ((s.perform c).2.performAll cs).2)

lemma SetUpBy.performAll (h : SetUpBy log s) (cs : List (SetupCall U P)) :
    SetUpBy (log ++ (s.performAll cs).1) (s.performAll cs).2 := by
  induction cs generalizing log s with
  | nil => simpa [Scheduler.performAll] using h
  | cons c cs ih => simpa [Scheduler.performAll] using ih (h.step c)

/-- A new scheduler may be set up by any calls. -/
lemma setUpBy_performAll {config : RunConfig} (h : config.check = .ok ()) (cs : List (SetupCall U P)) :
    SetUpBy (({ config } : Scheduler U P).performAll cs).1 (({ config } : Scheduler U P).performAll cs).2 := by
  have hnew : Scheduler.new config = .ok ({ config } : Scheduler U P) := by rw [Scheduler.new, h]
  have hlog := (SetUpBy.new hnew).performAll cs
  rwa [List.nil_append] at hlog

/-! ## What one call does -/

/-- The numbers that have been given to units, those that are vacant now included. -/
def numbers (s : Scheduler U P) : List UnitId := (List.range s.unitCount).map Id.ofNat

/-- The registered units in the order of their numbers, with the workers that they are pinned to. -/
def residents (s : Scheduler U P) : List (UnitId × WorkerId) :=
  s.numbers.filterMap fun u => (s.registered? u).map fun r => (u, r.worker)

section Steps

omit [Payload P] [SimUnit U P]

lemma Sound.index_ofNat (hs : s.Sound) {i : Nat} (hi : i < s.unitCount) : (Id.ofNat i : UnitId).index = i :=
  Nat.mod_eq_of_lt (Nat.lt_trans hi hs.units_lt)

/-- The numbers are dense. -/
lemma Sound.map_index_numbers (hs : s.Sound) : s.numbers.map (·.index) = List.range s.unitCount := by
  rw [numbers, List.map_map]
  refine (List.map_congr_left fun i hi => ?_).trans (List.map_id _)
  exact hs.index_ofNat (List.mem_range.1 hi)

/-- No number is given twice. -/
lemma Sound.nodup_numbers (hs : s.Sound) : s.numbers.Nodup := by
  refine List.Nodup.of_map (·.index) ?_
  rw [hs.map_index_numbers]
  exact List.nodup_range

/-- Units are registered under numbers that have been given. -/
lemma Sound.mem_numbers (hs : s.Sound) {u : UnitId} {r : Registered U} (hr : s.registered? u = some r) :
    u ∈ s.numbers := by
  have hlt := index_lt_of_registered? hr
  exact List.mem_map.2 ⟨u.index, List.mem_range.2 hlt, Id.ext_index (hs.index_ofNat hlt)⟩

/-- Just the registered units are listed, with their workers. -/
lemma Sound.mem_residents (hs : s.Sound) {u : UnitId} {w : WorkerId} :
    (u, w) ∈ s.residents ↔ s.workerOf? u = some w := by
  rw [residents, List.mem_filterMap, workerOf?]
  constructor
  · rintro ⟨v, _, hv⟩
    obtain ⟨r, hr, hpair⟩ := Option.map_eq_some_iff.1 hv
    cases hpair
    rw [hr, Option.map_some]
  · intro h
    obtain ⟨r, hr, rfl⟩ := Option.map_eq_some_iff.1 h
    exact ⟨u, hs.mem_numbers hr, by rw [hr]; rfl⟩

/-- The list depends on who is registered with which worker. -/
lemma residents_congr (hcount : s'.unitCount = s.unitCount)
    (h : ∀ u, s'.workerOf? u = s.workerOf? u) : s'.residents = s.residents := by
  rw [residents, residents, numbers, numbers, hcount]
  apply List.filterMap_congr
  intro u _
  have hpair : ∀ o : Option (Registered U), (o.map fun r => (u, r.worker)) =
      (o.map (·.worker)).map (u, ·) := fun o => by cases o <;> rfl
  rw [hpair, hpair]
  exact congrArg _ (h u)

/-- A unit that is registered comes last. -/
lemma Sound.residents_push (hs : s.Sound) {r : Registered U} (h : s'.units = s.units.push (some r))
    {id : UnitId} (hid : id.index = s.units.size) : s'.numbers = s.numbers ++ [id] ∧
      s'.residents = s.residents ++ [(id, r.worker)] := by
  have hnumbers : s'.numbers = s.numbers ++ [id] := by
    have hlast : Id.ofNat s.units.size = id := by
      rw [← hid]
      exact Id.ext_index (Nat.mod_eq_of_lt id.index_lt)
    rw [numbers, unitCount, h, Array.size_push, List.range_succ, List.map_append, List.map_singleton, hlast]
    rfl
  refine ⟨hnumbers, ?_⟩
  rw [residents, hnumbers, List.filterMap_append, residents]
  congr 1
  · apply List.filterMap_congr
    intro u hu
    obtain ⟨i, hi, rfl⟩ := List.mem_map.1 hu
    rw [registered?_push h, if_neg]
    rw [hs.index_ofNat (List.mem_range.1 hi)]
    exact Nat.ne_of_lt (List.mem_range.1 hi)
  · rw [List.filterMap_cons, registered?_push h, if_pos hid]
    rfl

/-- A unit that is taken away is no longer listed. -/
lemma residents_vacate {id : UnitId} (h : s'.units = s.units.setIfInBounds id.index none) :
    s'.residents = s.residents.filter (fun p => !decide (id = p.1)) := by
  rw [residents, residents, List.filter_filterMap, numbers, numbers, unitCount, unitCount, h,
    Array.size_setIfInBounds]
  apply List.filterMap_congr
  intro u _
  rw [registered?_vacate h]
  by_cases hu : u = id
  · subst hu
    cases s.registered? u <;> simp [Option.filter_some]
  · have hne : ¬ id = u := fun h => hu h.symm
    rw [if_neg hu]
    cases s.registered? u <;> simp [Option.filter_some, hne]

end Steps

/-- The step takes some of the units and seeds away, and then brings some of its own. -/
structure Changes (s : Scheduler U P) (x : SetupStep U P) (s' : Scheduler U P) : Prop where
  /-- The numbers that have been given. -/
  numbers : s'.numbers = s.numbers ++ (x.resident?.map (·.1)).toList
  /-- The units that are there. -/
  residents : s'.residents = s.residents.filter (fun p => !x.evicts p) ++ x.resident?.toList
  /-- The seeds that are there. -/
  seeds : s'.seeds.toList = s.seeds.toList.filter (fun m => !x.drops m) ++ x.seed?.toList

omit [Payload P] [SimUnit U P] in
/-- A step that leaves all units alone changes the seeds at most. -/
lemma Changes.of_units_eq (hunits : s'.units = s.units) (hresident : x.resident? = none)
    (hevicts : ∀ p, x.evicts p = false)
    (hseeds : s'.seeds.toList = s.seeds.toList.filter (fun m => !x.drops m) ++ x.seed?.toList) :
    s.Changes x s' := by
  have hcount : s'.unitCount = s.unitCount := congrArg Array.size hunits
  have hresidents : s'.residents = s.residents := residents_congr hcount fun u => by
    rw [workerOf?, workerOf?, registered?_eq, registered?_eq, hunits]
  refine ⟨?_, ?_, hseeds⟩
  · simp [Scheduler.numbers, hcount, hresident]
  · simp [hresidents, hresident, hevicts]

omit [Payload P] [SimUnit U P] in
/-- What is refused changes nothing. -/
lemma Changes.of_refused (hresident : x.resident? = none) (hseed : x.seed? = none)
    (hevicts : ∀ p, x.evicts p = false) (hdrops : ∀ m, x.drops m = false) : s.Changes x s :=
  .of_units_eq rfl hresident hevicts (by simp [hseed, hdrops])

omit [Payload P] in
lemma Sound.changes_register (hs : s.Sound) (unit : U) (worker : WorkerId) :
    s.Changes ⟨.register unit worker, (s.register unit worker).1⟩ (s.register unit worker).2 := by
  rcases s.register_reply unit worker with ⟨e, h⟩ | ⟨id, hid, _, _, h⟩
  · rw [h]
    exact .of_refused rfl rfl (fun _ => rfl) fun _ => rfl
  · have hunits : (s.register unit worker).2.units = s.units.push (some ⟨unit, worker, 0⟩) := by rw [h]
    obtain ⟨hnumbers, hresidents⟩ := hs.residents_push hunits hid
    rw [h] at hnumbers hresidents ⊢
    refine ⟨hnumbers, ?_, ?_⟩
    · simpa [SetupStep.evicts, SetupStep.resident?] using hresidents
    · simp [SetupStep.drops, SetupStep.seed?]

omit [Payload P] [SimUnit U P] in
lemma changes_unregister (s : Scheduler U P) (id : UnitId) :
    s.Changes ⟨.unregister id, (s.unregister id).1⟩ (s.unregister id).2 := by
  rcases s.unregister_reply id with ⟨e, h⟩ | ⟨r, _, h⟩
  · rw [h]
    exact .of_refused rfl rfl (fun _ => rfl) fun _ => rfl
  · have hunits : (s.unregister id).2.units = s.units.setIfInBounds id.index none := by rw [h]
    have hresidents := residents_vacate hunits
    rw [h] at hresidents ⊢
    refine ⟨?_, ?_, ?_⟩
    · simp [numbers, unitCount, SetupStep.resident?]
    · simpa [SetupStep.evicts, SetupStep.resident?] using hresidents
    · simp [SetupStep.drops, SetupStep.seed?, eq_comm]

omit [SimUnit U P] in
lemma changes_schedule {target : UnitId} {time : SimTime} {payload : P} {reply : Except RunError Handle}
    (h : s.schedule target time payload = .ok (reply, s')) :
    s.Changes ⟨.schedule target time payload, .ok reply⟩ s' := by
  rcases schedule_reply h with ⟨⟨e, rfl⟩, rfl⟩ | ⟨m, hm, rfl, rfl, _⟩
  · exact .of_refused rfl rfl (fun _ => rfl) fun _ => rfl
  · refine .of_units_eq rfl rfl (fun _ => rfl) ?_
    simp [SetupStep.drops, SetupStep.seed?, hm, Message.handle]

omit [Payload P] [SimUnit U P] in
/-- A seed is withdrawn, and the reply tells whether it was there. -/
lemma Sound.unschedule_reply (hs : s.Sound) (handle : Handle) : s.unschedule handle =
    (.ok (s.seeds.any (·.id = handle.id)), { s with seeds := s.seeds.filter (·.id ≠ handle.id) }) :=
  if_neg (not_not.2 hs.state_eq)

omit [Payload P] [SimUnit U P] in
lemma Sound.changes_unschedule (hs : s.Sound) (handle : Handle) :
    s.Changes ⟨.unschedule handle, (s.unschedule handle).1⟩ (s.unschedule handle).2 := by
  rw [hs.unschedule_reply handle]
  refine .of_units_eq rfl rfl (fun _ => rfl) ?_
  simp [SetupStep.drops, SetupStep.seed?, eq_comm]

omit [Payload P] [SimUnit U P] in
lemma changes_updateUnit (s : Scheduler U P) (id : UnitId) (f : U → U) :
    s.Changes ⟨.updateUnit id f, ()⟩ (s.updateUnit id f) := by
  have hcount : (s.updateUnit id f).unitCount = s.unitCount := Array.size_modify
  have hresidents : (s.updateUnit id f).residents = s.residents := by
    refine residents_congr hcount fun u => ?_
    rw [workerOf?, workerOf?, registered?_updateUnit, Option.map_map]
    refine Option.map_congr fun r _ => ?_
    rw [Function.comp_apply]
    split <;> rfl
  refine ⟨?_, ?_, ?_⟩
  · simp [numbers, hcount, SetupStep.resident?]
  · simpa [SetupStep.evicts, SetupStep.resident?] using hresidents
  · simp [SetupStep.drops, SetupStep.seed?, Scheduler.updateUnit]

/-- **What one call does** to the units and the seeds. -/
theorem Sound.changes_perform (hs : s.Sound) (c : SetupCall U P) :
    s.Changes ⟨c, (s.perform c).1⟩ (s.perform c).2 := by
  cases c with
  | register unit worker => exact hs.changes_register unit worker
  | unregister id => exact s.changes_unregister id
  | schedule target time payload =>
    rcases s.perform_schedule_cases target time payload with ⟨reply, s', hreply, hp⟩ | ⟨c, hp⟩ <;> rw [hp]
    · exact changes_schedule hreply
    · exact .of_refused rfl rfl (fun _ => rfl) fun _ => rfl
  | unschedule handle => exact hs.changes_unschedule handle
  | updateUnit id f => exact s.changes_updateUnit id f

/-! ## What a log tells -/

namespace SetUpBy

/-- **The numbers of units are given one after another**, and none is given twice. -/
theorem numbers_eq (h : SetUpBy log s) : log.filterMap (·.resident?.map (·.1)) = s.numbers := by
  induction h with
  | new h =>
    obtain rfl := eq_of_new h
    rfl
  | step h c ih =>
    rw [List.filterMap_append, ih, (h.isSetUp.sound.changes_perform c).numbers, List.filterMap_cons,
      List.filterMap_nil]
    split <;> simp [*]

/-- **The units that are there** are those that were registered and not taken away afterwards, with the workers
that they were registered for. -/
theorem residents_eq (h : SetUpBy log s) : s.residents = SetupStep.residents log := by
  induction h with
  | new h =>
    obtain rfl := eq_of_new h
    rfl
  | step h c ih =>
    rw [(h.isSetUp.sound.changes_perform c).residents, ih, SetupStep.residents, SetupStep.residents,
      SetupStep.lasting_concat]

/-- **The seeds that are there** are the messages that were scheduled and neither withdrawn nor dropped with
their target afterwards, in order. -/
theorem seeds_eq (h : SetUpBy log s) : s.seeds.toList = SetupStep.standing log := by
  induction h with
  | new h =>
    obtain rfl := eq_of_new h
    rfl
  | step h c ih =>
    rw [(h.isSetUp.sound.changes_perform c).seeds, ih, SetupStep.standing, SetupStep.standing,
      SetupStep.lasting_concat]

end SetUpBy

/-! ## What a run makes of the setup -/

/-- A finished run has counted what was staged before the first round. -/
lemma Sound.seeded_eq (hs : s.Sound) {stats : RunStats} (hstats : s.outcome = .finished stats) :
    stats.seeded = (Envelope.messages s.opening).length := by
  rcases stages_eq_nil_or_append s with ⟨_, hfirst⟩ | ⟨ts, t, h⟩
  · rw [hs.opening_eq_nil (leastLookahead_eq_none_of_finished hstats hfirst),
      stats_eq_of_finished hstats hfirst]
    rfl
  · obtain ⟨_, _, _, hfigures⟩ := hs.stats_of_finished h hstats
    rw [hfigures]

/-- What a log has made of the setup, and what a run makes of that. -/
structure Kept (s : Scheduler U P) (log : List (SetupStep U P)) : Prop where
  /-- The numbers of units are given in the order of registration, without gaps, and none is given twice. -/
  dense : (log.filterMap fun x => x.resident?.map (·.1.index)) = List.range s.unitCount
  /-- The seeds are the messages that were accepted, and neither withdrawn nor dropped with their target
  afterwards, in the order of the calls. -/
  seeds : s.seeds.toList = SetupStep.standing log
  /-- Every seed has a finite time that is not before the start. -/
  time : ∀ m ∈ s.seeds.toList, m.time.isFinite = true ∧ s.config.startTime ≤ m.time
  /-- Every seed is for a unit that is registered. -/
  target : ∀ m ∈ s.seeds.toList, (s.registered? m.target).isSome
  /-- The setup is the origin of all seeds. -/
  origin : ∀ m ∈ s.seeds.toList, m.id.origin = UnitId.setup
  /-- Every seed has an identity of its own. -/
  nodup : (s.seeds.toList.map (·.id)).Nodup
  /-- A withdrawal is never refused, and the reply tells whether the message is among the seeds. -/
  unschedule : ∀ h : Handle, ∃ found, (s.unschedule h).1 = .ok found ∧
    (found = true ↔ ∃ m ∈ s.seeds.toList, m.id = h.id)
  /-- A run does not fail because the target of a seed, or any other unit, is not there. -/
  unknownUnit : ∀ u, s.outcome ≠ .failed (.unknownUnit u)
  /-- A run that finishes has counted the seeds, and the messages that were accepted when the units started. -/
  seeded : ∀ stats, s.outcome = .finished stats → stats.seeded =
    s.seeds.size + ((s.transcriptsIn 0).flatMap (·.filterMap Exchange.handle?)).length

/-- **The setup keeps its books.** Whatever is registered, taken away, scheduled and withdrawn, in any order and
with any arguments, units are numbered through, the seeds are the messages that stand, and a run can post all
of them.

**Proof sketch.** Every step removes some units and seeds and then brings at most one of its own
(`Sound.changes_perform`), just as one more step of the log does (`SetupStep.lasting_concat`); so log and scheduler
agree by induction. As every seed is for a registered unit, and just the registered units have routes, no target is
missing when the run begins (`Sound.outcome_ne_unknownUnit`). -/
theorem SetUpBy.kept (h : SetUpBy log s) : s.Kept log := by
  have hs := h.isSetUp.sound
  refine ⟨?_, h.seeds_eq, fun m hm => ⟨h.isSetUp.isFinite_times.2 m hm, hs.seed_time m hm⟩, hs.seed_target,
    fun m hm => (hs.seed_origin m hm).1, hs.seed_nodup, fun handle => ?_, hs.outcome_ne_unknownUnit,
    fun stats hstats => ?_⟩
  · rw [← hs.map_index_numbers, ← h.numbers_eq, List.map_filterMap]
    simp only [Option.map_map]
    rfl
  · refine ⟨_, congrArg Prod.fst (hs.unschedule_reply handle), ?_⟩
    rw [Array.any_eq_true']
    simp
  · have hlength := congrArg List.length (map_id_opening s)
    rw [hs.seeded_eq hstats]
    simpa using hlength

/-! ### A setup with everything in it -/

/-- Three bookkeepers, of which the second is taken away again, and seeds for them. A seed for the second is
dropped with it, another one is refused after that, and a seed for the third is withdrawn twice. -/
def bureau : List (SetupStep RuleTable Mark) × Scheduler RuleTable Mark :=
  ({ config := { workers := 2 } } : Scheduler RuleTable Mark).performAll
    [.register bookkeeper (Id.ofNat 0), .register bookkeeper (Id.ofNat 1),
      .schedule (Id.ofNat 1) ⟨Binary64.ofNat 3⟩ ⟨4⟩, .schedule (Id.ofNat 0) ⟨Binary64.ofNat 4⟩ ⟨4⟩,
      .unregister (Id.ofNat 1), .schedule (Id.ofNat 1) ⟨Binary64.ofNat 5⟩ ⟨4⟩,
      .register bookkeeper (Id.ofNat 1), .schedule (Id.ofNat 2) ⟨Binary64.ofNat 3⟩ ⟨4⟩,
      .schedule (Id.ofNat 2) ⟨Binary64.ofNat 6⟩ ⟨4⟩,
      .unschedule ⟨⟨UnitId.setup, 3⟩, Id.ofNat 2, ⟨Binary64.ofNat 6⟩⟩,
      .unschedule ⟨⟨UnitId.setup, 3⟩, Id.ofNat 2, ⟨Binary64.ofNat 6⟩⟩]

lemma setUpBy_bureau : SetUpBy bureau.1 bureau.2 := setUpBy_performAll rfl _

/-- Two of the four seeds that are accepted remain, and two more messages are scheduled when the units start. The
number of the unit that was taken away stays vacant. -/
theorem kept_bureau :
    SetUpBy bureau.1 bureau.2 ∧ bureau.2.seeds.toList.map (·.id.seq) = [1, 2] ∧ bureau.2.unitCount = 3 ∧
      (bureau.2.registered? (Id.ofNat 1)).isNone ∧ (∃ stats, bureau.2.outcome = .finished stats ∧
        stats.seeded = 4) ∧ bureau.2.Kept bureau.1 := by
  have houtcome : bureau.2.outcome = .finished {
      rounds := 4, horizonDelta := ⟨Binary64.ofNat 1⟩, finalHorizon := ⟨Binary64.ofNat 4⟩
      seeded := 4, delivered := 8, produced := 4, cancelled := 0, undelivered := 0
      workers := [⟨Id.ofNat 0, 4, 2, 0, 4, 0⟩, ⟨Id.ofNat 1, 4, 2, 0, 3, 1⟩] } := by
    decide +kernel
  exact ⟨setUpBy_bureau, by decide +kernel, by decide +kernel, by decide +kernel, ⟨_, houtcome, rfl⟩,
    setUpBy_bureau.kept⟩

end Scheduler

end EventSim
