import EventSim.Engine.Scheduler
import EventSim.Proofs.TimeOrder
import EventSim.Unit.RuleTable
import Mathlib.Data.List.Nodup

set_option autoImplicit false

/-!
# Schedulers that are set up

Before its run a scheduler is changed by the operations of its setup alone. They check what they are given,
so that whatever has been done, every unit is pinned to a worker that is there, and every seed has an
identity of its own, a target that is there, and a time that is not before the start.

## Main definitions

* `EventSim.Scheduler.IsSetUp` — the schedulers that arise from the operations of the setup.
* `EventSim.Scheduler.Sound` — what the checks of these operations achieve.
* `EventSim.Scheduler.pair`, `EventSim.Scheduler.correspondents` — small schedulers that are set up.

## Main results

* `EventSim.Scheduler.IsSetUp.sound` — the operations keep a scheduler sound.
* `EventSim.Scheduler.IsSetUp.isFinite_times` — they accept finite times only.
-/

namespace EventSim

namespace Scheduler

variable {U P : Type} {s s' : Scheduler U P}

/-! ## The operations of the setup -/

/-- The schedulers that arise from the operations of the setup, in any order and with any arguments. -/
inductive IsSetUp [Payload P] [SimUnit U P] : Scheduler U P → Prop
  /-- A new scheduler. -/
  | new {config : RunConfig} {s : Scheduler U P} (h : Scheduler.new config = .ok s) : IsSetUp s
  /-- A unit is registered, or refused. -/
  | register {s : Scheduler U P} (hs : IsSetUp s) (unit : U) (worker : WorkerId) :
    IsSetUp (s.register unit worker).2
  /-- A unit is taken away. -/
  | unregister {s : Scheduler U P} (hs : IsSetUp s) (id : UnitId) : IsSetUp (s.unregister id).2
  /-- A seed is scheduled, or refused. -/
  | schedule {s s' : Scheduler U P} (hs : IsSetUp s) {target : UnitId} {time : SimTime} {payload : P}
    {reply : Except RunError Handle} (h : s.schedule target time payload = .ok (reply, s')) : IsSetUp s'
  /-- A seed is withdrawn. -/
  | unschedule {s : Scheduler U P} (hs : IsSetUp s) (handle : Handle) :
    IsSetUp (s.unschedule handle).2
  /-- The state of a unit is changed from outside. -/
  | updateUnit {s : Scheduler U P} (hs : IsSetUp s) (id : UnitId) (f : U → U) :
    IsSetUp (s.updateUnit id f)

/-- What the checks of the setup achieve. -/
structure Sound (s : Scheduler U P) : Prop where
  /-- The run has not begun. -/
  state_eq : s.state = .setup
  /-- There are at most as many workers as worker numbers. -/
  workers_le : s.config.workers ≤ maxWorkers
  /-- No unit has the number that stands for the setup. -/
  units_lt : s.units.size < UInt32.size
  /-- Every unit is pinned to a worker that is there. -/
  worker_lt : ∀ u r, s.registered? u = some r → r.worker.index < s.config.workers
  /-- No unit has sent anything. -/
  nextSeq_eq : ∀ u r, s.registered? u = some r → r.nextSeq = 0
  /-- Every seed is for a unit that is there. -/
  seed_target : ∀ m ∈ s.seeds.toList, (s.registered? m.target).isSome
  /-- No seed is due before the start. -/
  seed_time : ∀ m ∈ s.seeds.toList, s.config.startTime ≤ m.time
  /-- The identities of the seeds are those of the setup. -/
  seed_origin : ∀ m ∈ s.seeds.toList, m.id.origin = UnitId.setup ∧ m.id.seq < s.nextSetupSeq
  /-- Every seed has an identity of its own. -/
  seed_nodup : (s.seeds.toList.map (·.id)).Nodup

/-! ## What is registered after an operation -/

lemma registered?_eq (s : Scheduler U P) (u : UnitId) :
    s.registered? u = (s.units[u.index]?).join := rfl

/-- Where the same is registered, the units have the same states. -/
lemma unit?_congr (h : s'.units = s.units) (u : UnitId) : s'.unit? u = s.unit? u := by
  rw [unit?, unit?, registered?_eq, registered?_eq, h]

/-- A registered unit has one of the numbers that have been given. -/
lemma index_lt_of_registered? {u : UnitId} {r : Registered U} (h : s.registered? u = some r) :
    u.index < s.units.size := by
  by_contra hge
  rw [registered?_eq, Array.getElem?_eq_none (by omega)] at h
  cases h

/-- What is registered when a unit has got the next number. -/
lemma registered?_push {s' : Scheduler U P} {r : Registered U} (h : s'.units = s.units.push (some r))
    (u : UnitId) : s'.registered? u = if u.index = s.units.size then some r else s.registered? u := by
  rw [registered?_eq, h, Array.getElem?_push]
  split <;> rfl

/-- What is registered when a number has become vacant. -/
lemma registered?_vacate {s' : Scheduler U P} {id : UnitId}
    (h : s'.units = s.units.setIfInBounds id.index none) (u : UnitId) :
    s'.registered? u = if u = id then none else s.registered? u := by
  rw [registered?_eq, h]
  split
  · rename_i hu
    rw [hu, Array.getElem?_setIfInBounds_self]
    split <;> rfl
  · rename_i hu
    rw [Array.getElem?_setIfInBounds_ne fun h => hu (Id.ext_index h.symm), registered?_eq]

/-- What is registered when the state of a unit has been changed. -/
lemma registered?_updateUnit (s : Scheduler U P) (id : UnitId) (f : U → U) (u : UnitId) :
    (s.updateUnit id f).registered? u =
      (s.registered? u).map fun r => if u = id then { r with unit := f r.unit } else r := by
  simp only [Scheduler.updateUnit, registered?, Array.getElem?_modify]
  by_cases hu : u = id
  · subst hu
    cases s.units[u.index]? with
    | none => simp
    | some r => cases r <;> simp
  · have hne : id.index ≠ u.index := fun h => hu (Id.ext_index h.symm)
    rw [if_neg hne]
    simp [hu]

/-- No unit has the number that stands for the setup. -/
lemma Sound.ne_setup (hs : s.Sound) {u : UnitId} (hu : (s.registered? u).isSome) :
    u ≠ UnitId.setup := by
  rintro rfl
  obtain ⟨r, hr⟩ := Option.isSome_iff_exists.1 hu
  have hlt := index_lt_of_registered? hr
  have hsize := hs.units_lt
  have hindex : UnitId.setup.index = UInt32.size - 1 := rfl
  omega

/-- The scheduler stays sound if units and seeds are only taken away or changed in their states. -/
lemma Sound.of_subset (hs : s.Sound) (hconfig : s'.config = s.config) (hstate : s'.state = s.state)
    (hsize : s'.units.size = s.units.size) (hseq : s'.nextSetupSeq = s.nextSetupSeq)
    (hunits : ∀ u r, s'.registered? u = some r →
      ∃ r₀, s.registered? u = some r₀ ∧ r.worker = r₀.worker ∧ r.nextSeq = r₀.nextSeq)
    (hseeds : s'.seeds.toList.Sublist s.seeds.toList)
    (htargets : ∀ m ∈ s'.seeds.toList, (s.registered? m.target).isSome →
      (s'.registered? m.target).isSome) : s'.Sound where
  state_eq := hstate.trans hs.state_eq
  workers_le := hconfig ▸ hs.workers_le
  units_lt := hsize ▸ hs.units_lt
  worker_lt u r hr := by
    obtain ⟨r₀, hr₀, hworker, _⟩ := hunits u r hr
    rw [hworker, hconfig]
    exact hs.worker_lt u r₀ hr₀
  nextSeq_eq u r hr := by
    obtain ⟨r₀, hr₀, _, hnext⟩ := hunits u r hr
    rw [hnext]
    exact hs.nextSeq_eq u r₀ hr₀
  seed_target m hm := htargets m hm (hs.seed_target m (hseeds.subset hm))
  seed_time m hm := hconfig ▸ hs.seed_time m (hseeds.subset hm)
  seed_origin m hm := hseq ▸ hs.seed_origin m (hseeds.subset hm)
  seed_nodup := hs.seed_nodup.sublist (hseeds.map _)

/-! ## Each operation -/

variable [Payload P] [SimUnit U P]

omit [Payload P] [SimUnit U P] in
/-- A new scheduler has nothing but its configuration. -/
lemma eq_of_new {config : RunConfig} (h : Scheduler.new config = .ok s) : s = { config } := by
  unfold Scheduler.new at h
  split at h <;> cases h
  rfl

omit [Payload P] [SimUnit U P] in
lemma sound_new {config : RunConfig} (h : Scheduler.new config = .ok s) : s.Sound := by
  unfold Scheduler.new at h
  split at h
  · rename_i hcheck
    cases h
    refine ⟨rfl, ?_, by simp, ?_, ?_, by simp, by simp, by simp, by simp⟩
    · by_contra hmany
      have hpos : config.workers ≠ 0 := by
        simp only [maxWorkers] at hmany
        omega
      unfold RunConfig.check at hcheck
      rw [if_neg hpos, if_pos (by simpa using hmany)] at hcheck
      cases hcheck
    · intro u r hr
      simp [registered?] at hr
    · intro u r hr
      simp [registered?] at hr
  · cases h

omit [Payload P] in
/-- A registration is refused and changes nothing, or it gives the unit the next number, which is not the one
that stands for the setup. -/
lemma register_reply (s : Scheduler U P) (unit : U) (worker : WorkerId) :
    (∃ e, s.register unit worker = (.error e, s)) ∨
      ∃ id : UnitId, id.index = s.units.size ∧ worker.index < s.config.workers ∧
        s.units.size + 1 < UInt32.size ∧
        s.register unit worker = (.ok id, { s with units := s.units.push (some ⟨unit, worker, 0⟩) }) := by
  unfold Scheduler.register
  split
  · exact Or.inl ⟨_, rfl⟩
  split
  · exact Or.inl ⟨_, rfl⟩
  rename_i hworker
  split
  · exact Or.inl ⟨_, rfl⟩
  rename_i id hid
  dsimp only
  split
  · exact Or.inl ⟨_, rfl⟩
  rename_i hvalid
  split
  · exact Or.inl ⟨_, rfl⟩
  obtain ⟨hlt, rfl⟩ : ∃ h : s.units.size < IdKind.unit.capacity, (⟨s.units.size, h⟩ : UnitId) = id := by
    unfold Id.ofNat? at hid
    split at hid
    · rename_i h
      exact ⟨h, Option.some.inj hid⟩
    · cases hid
  have hsize : s.units.size ≠ UInt32.size - 1 := fun h => hvalid (Id.ext_index h)
  have hcapacity : IdKind.unit.capacity = UInt32.size := rfl
  exact Or.inr ⟨_, rfl, Nat.lt_of_not_le hworker, by omega, rfl⟩

omit [Payload P] in
/-- A registration that is not refused adds the unit behind all others. -/
lemma register_cases (s : Scheduler U P) (unit : U) (worker : WorkerId) :
    (s.register unit worker).2 = s ∨ worker.index < s.config.workers ∧
      s.units.size + 1 < UInt32.size ∧
      (s.register unit worker).2 = { s with units := s.units.push (some ⟨unit, worker, 0⟩) } := by
  rcases s.register_reply unit worker with ⟨e, h⟩ | ⟨id, _, hworker, hsize, h⟩ <;> rw [h]
  · exact Or.inl rfl
  · exact Or.inr ⟨hworker, hsize, rfl⟩

omit [Payload P] [SimUnit U P] in
/-- A unit is taken away if there is one, and otherwise nothing changes. -/
lemma unregister_reply (s : Scheduler U P) (id : UnitId) :
    (∃ e, s.unregister id = (.error e, s)) ∨ ∃ r, s.registered? id = some r ∧ s.unregister id =
      (.ok r.unit, { s with
        units := s.units.setIfInBounds id.index none, seeds := s.seeds.filter (·.target ≠ id) }) := by
  unfold Scheduler.unregister
  split
  · exact Or.inl ⟨_, rfl⟩
  split
  · exact Or.inl ⟨_, rfl⟩
  · rename_i r hr
    exact Or.inr ⟨r, hr, rfl⟩

omit [Payload P] in
lemma Sound.register (hs : s.Sound) (unit : U) (worker : WorkerId) :
    (s.register unit worker).2.Sound := by
  rcases s.register_cases unit worker with heq | ⟨hworker, hsize, heq⟩
  · rw [heq]
    exact hs
  have hunits : (s.register unit worker).2.units = s.units.push (some ⟨unit, worker, 0⟩) := by rw [heq]
  have hpush := registered?_push hunits
  rw [heq] at hpush ⊢
  have hnew : ∀ u r, registered? { s with units := s.units.push (some ⟨unit, worker, 0⟩) } u = some r →
      r = ⟨unit, worker, 0⟩ ∨ s.registered? u = some r := by
    intro u r hr
    rw [hpush] at hr
    split at hr
    · exact Or.inl (Option.some.inj hr).symm
    · exact Or.inr hr
  refine ⟨hs.state_eq, hs.workers_le, ?_, fun u r hr => ?_, fun u r hr => ?_, fun m hm => ?_,
    hs.seed_time, hs.seed_origin, hs.seed_nodup⟩
  · simpa only [Array.size_push] using hsize
  · rcases hnew u r hr with rfl | hr
    · exact hworker
    · exact hs.worker_lt u r hr
  · rcases hnew u r hr with rfl | hr
    · rfl
    · exact hs.nextSeq_eq u r hr
  · rw [hpush]
    split
    · rfl
    · exact hs.seed_target m hm

omit [Payload P] [SimUnit U P] in
lemma Sound.unregister (hs : s.Sound) (id : UnitId) : (s.unregister id).2.Sound := by
  rcases s.unregister_reply id with ⟨e, h⟩ | ⟨r₀, _, h⟩
  · rw [h]
    exact hs
  have hunits : (s.unregister id).2.units = s.units.setIfInBounds id.index none := by rw [h]
  have hvacate := registered?_vacate hunits
  rw [h] at hvacate ⊢
  refine hs.of_subset rfl rfl Array.size_setIfInBounds rfl (fun u r hr => ?_) ?_ fun m hm hsome => ?_
  · rw [hvacate] at hr
    split at hr
    · cases hr
    · exact ⟨r, hr, rfl, rfl⟩
  · simp only [Array.toList_filter]
    exact List.filter_sublist
  · simp only [Array.toList_filter, List.mem_filter, ne_eq, decide_not, Bool.not_eq_true',
      decide_eq_false_iff_not] at hm
    rwa [hvacate, if_neg hm.2]

omit [SimUnit U P] in
/-- What is scheduled is refused and changes nothing, or it takes the next number of the setup and comes after
all other seeds. -/
lemma schedule_reply {target : UnitId} {time : SimTime} {payload : P} {reply : Except RunError Handle}
    (h : s.schedule target time payload = .ok (reply, s')) :
    (∃ e, reply = .error e) ∧ s' = s ∨ ∃ m : Message P,
      m = ⟨⟨UnitId.setup, s.nextSetupSeq⟩, target, time, payload⟩ ∧ reply = .ok m.handle ∧
        s' = { s with nextSetupSeq := s.nextSetupSeq + 1, seeds := s.seeds.push m } ∧
        time.isFinite = true ∧ s.config.startTime ≤ time ∧ (s.registered? target).isSome := by
  unfold Scheduler.schedule at h
  split at h
  · cases h
    exact Or.inl ⟨⟨_, rfl⟩, rfl⟩
  split at h
  · cases h
    exact Or.inl ⟨⟨_, rfl⟩, rfl⟩
  rename_i hfinite
  split at h
  · split at h <;> cases h
    exact Or.inl ⟨⟨_, rfl⟩, rfl⟩
  rename_i hearly
  split at h
  · cases h
    exact Or.inl ⟨⟨_, rfl⟩, rfl⟩
  rename_i htarget
  cases h
  exact Or.inr ⟨_, rfl, rfl, rfl, by simpa using hfinite, not_lt.1 hearly,
    Option.isSome_iff_ne_none.2 fun h => htarget (Option.isNone_iff_eq_none.2 h)⟩

omit [SimUnit U P] in
lemma Sound.schedule (hs : s.Sound) {target : UnitId} {time : SimTime} {payload : P}
    {reply : Except RunError Handle} (h : s.schedule target time payload = .ok (reply, s')) :
    s'.Sound := by
  rcases schedule_reply h with ⟨_, rfl⟩ | ⟨n, hn, _, rfl, _, hstart, htarget⟩
  · exact hs
  have hnew : ∀ m ∈ (s.seeds.push n).toList, m ∈ s.seeds.toList ∨ m = n := fun m hm => by
    rwa [Array.toList_push, List.mem_append, List.mem_singleton] at hm
  refine ⟨hs.state_eq, hs.workers_le, hs.units_lt, hs.worker_lt, hs.nextSeq_eq, fun m hm => ?_,
    fun m hm => ?_, fun m hm => ?_, ?_⟩
  · rcases hnew m hm with hm | rfl
    · exact hs.seed_target m hm
    · rwa [hn]
  · rcases hnew m hm with hm | rfl
    · exact hs.seed_time m hm
    · rwa [hn]
  · rcases hnew m hm with hm | rfl
    · exact ⟨(hs.seed_origin m hm).1, Nat.lt_succ_of_lt (hs.seed_origin m hm).2⟩
    · rw [hn]
      exact ⟨rfl, Nat.lt_succ_self _⟩
  · simp only [Array.toList_push, List.map_append, List.map_singleton]
    refine List.nodup_append.2 ⟨hs.seed_nodup, List.nodup_singleton _, fun a ha b hb heq => ?_⟩
    obtain ⟨m, hm, rfl⟩ := List.mem_map.1 ha
    have hlt := (hs.seed_origin m hm).2
    rw [heq, List.mem_singleton.1 hb, hn] at hlt
    exact Nat.lt_irrefl _ hlt

omit [Payload P] [SimUnit U P] in
lemma Sound.unschedule (hs : s.Sound) (handle : Handle) : (s.unschedule handle).2.Sound := by
  unfold Scheduler.unschedule
  split
  · exact hs
  refine hs.of_subset rfl rfl rfl rfl (fun u r hr => ⟨r, hr, rfl, rfl⟩) ?_ fun m _ hsome => hsome
  simp only [Array.toList_filter]
  exact List.filter_sublist

omit [Payload P] [SimUnit U P] in
lemma Sound.updateUnit (hs : s.Sound) (id : UnitId) (f : U → U) : (s.updateUnit id f).Sound := by
  have hget := s.registered?_updateUnit id f
  refine hs.of_subset rfl rfl Array.size_modify rfl (fun u r hr => ?_) (List.Sublist.refl _)
    fun m _ hsome => by rw [hget]; simpa using hsome
  rw [hget] at hr
  obtain ⟨r₀, hr₀, rfl⟩ := Option.map_eq_some_iff.1 hr
  refine ⟨r₀, hr₀, ?_, ?_⟩ <;> split <;> rfl

/-- **The operations of the setup keep a scheduler sound.** -/
theorem IsSetUp.sound (h : s.IsSetUp) : s.Sound := by
  induction h with
  | new h => exact sound_new h
  | register _ unit worker ih => exact ih.register unit worker
  | unregister _ id ih => exact ih.unregister id
  | schedule _ h ih => exact ih.schedule h
  | unschedule _ handle ih => exact ih.unschedule handle
  | updateUnit _ id f ih => exact ih.updateUnit id f

/-! ## Finite times -/

omit [Payload P] [SimUnit U P] in
/-- A configuration without fault has a finite start. -/
lemma isFinite_startTime_of_check {config : RunConfig} (h : config.check = .ok ()) :
    config.startTime.isFinite = true := by
  unfold RunConfig.check at h
  by_contra hstart
  have hno : SimTime.ofSecs? config.startTime.secs = .error (.invalidTime config.startTime.secs) :=
    if_neg hstart
  rw [hno] at h
  by_cases hpool : config.workers = 0
  · rw [if_pos hpool] at h
    cases h
  by_cases hmany : maxWorkers < config.workers
  · rw [if_neg hpool, if_pos hmany] at h
    cases h
  · rw [if_neg hpool, if_neg hmany] at h
    cases h

/-- **The operations of the setup accept finite times only.** -/
theorem IsSetUp.isFinite_times (hs : s.IsSetUp) :
    s.config.startTime.isFinite = true ∧ ∀ m ∈ s.seeds.toList, m.time.isFinite = true := by
  induction hs with
  | new h =>
    unfold Scheduler.new at h
    split at h <;> cases h
    rename_i hcheck
    exact ⟨isFinite_startTime_of_check hcheck, by simp⟩
  | @register s hs unit worker ih =>
    rcases s.register_cases unit worker with heq | ⟨_, _, heq⟩ <;> rw [heq] <;> exact ih
  | @unregister s hs id ih =>
    rcases s.unregister_reply id with ⟨e, h⟩ | ⟨r, _, h⟩ <;> rw [h]
    · exact ih
    · refine ⟨ih.1, fun m hm => ih.2 m ?_⟩
      rw [Array.toList_filter] at hm
      exact List.mem_of_mem_filter hm
  | schedule hs h ih =>
    rcases schedule_reply h with ⟨_, rfl⟩ | ⟨n, hn, _, rfl, hfinite, _⟩
    · exact ih
    · refine ⟨ih.1, fun m hm => ?_⟩
      rw [Array.toList_push, List.mem_append, List.mem_singleton] at hm
      rcases hm with hm | rfl
      · exact ih.2 m hm
      · rwa [hn]
  | @unschedule s hs handle ih =>
    unfold Scheduler.unschedule
    split
    · exact ih
    · refine ⟨ih.1, fun m hm => ih.2 m ?_⟩
      rw [Array.toList_filter] at hm
      exact List.mem_of_mem_filter hm
  | updateUnit hs id f ih => exact ih

/-! ## Two units -/

/-- A unit that sends two messages to the other one when it starts, two and nine seconds later. It answers
the first one that it receives, and withdraws its own second one when it is answered. -/
def correspondent : RuleTable where
  lookahead := ⟨Binary64.ofNat 1⟩
  opening :=
    [.send (.fromNow (Binary64.ofNat 2)) (.hop 1 2) (.exactly ⟨5⟩) none false,
      .send (.fromNow (Binary64.ofNat 9)) (.hop 1 2) (.exactly ⟨7⟩) (some 0) false]
  rules :=
    [⟨some 5, some 5, none, [.send (.fromNow (Binary64.ofNat 2)) (.hop 1 2) (.exactly ⟨1⟩) none false]⟩,
      ⟨some 1, some 1, none, [.cancelSlot 0 false]⟩]

/-- Two units of the same kind that are pinned to the given workers, and a seed for the first. -/
def pair (config : RunConfig) (unit : RuleTable) (w₀ w₁ : WorkerId) : Scheduler RuleTable Mark :=
  let s := ((({ config } : Scheduler RuleTable Mark).register unit w₀).2.register unit w₁).2
  match s.schedule (Id.ofNat 0) ⟨Binary64.ofNat 3⟩ ⟨9⟩ with
  | .ok (_, s) => s
  | .error _ => s

/-- The two units are set up by way of the operations. -/
lemma isSetUp_pair {config : RunConfig} (h : config.check = .ok ()) (unit : RuleTable)
    (w₀ w₁ : WorkerId) : (pair config unit w₀ w₁).IsSetUp := by
  have hnew : Scheduler.new config = .ok ({ config } : Scheduler RuleTable Mark) := by
    rw [Scheduler.new, h]
  have hs := ((IsSetUp.new hnew).register unit w₀).register unit w₁
  unfold pair
  dsimp only
  split
  · rename_i reply s hschedule
    exact hs.schedule hschedule
  · exact hs

/-- Two correspondents at two workers. -/
def correspondents : Scheduler RuleTable Mark :=
  pair { workers := 2 } correspondent (Id.ofNat 0) (Id.ofNat 1)

lemma isSetUp_correspondents : correspondents.IsSetUp := isSetUp_pair rfl _ _ _

/-- Two correspondents at one worker. -/
def housemates : Scheduler RuleTable Mark :=
  pair { workers := 1 } correspondent (Id.ofNat 0) (Id.ofNat 0)

lemma isSetUp_housemates : housemates.IsSetUp := isSetUp_pair rfl _ _ _

end Scheduler

end EventSim
