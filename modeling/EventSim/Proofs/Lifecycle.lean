import EventSim.Proofs.HandBack

set_option autoImplicit false

/-!
# The life of a scheduler

A scheduler is used by any operations in any order, before its run and after it. An operation that is refused
leaves everything as it was. Only one run ever begins: with it the setup is over for good, and whatever needs the
setup is refused from then on, also if a unit has broken down while it started and the scheduler has remained
running.

## Main definitions

* `EventSim.Operation` — a call of the setup, or a run.
* `EventSim.LifeStep` — an operation on a scheduler, with what comes of it.
* `EventSim.Scheduler.life` — the steps of carrying out operations one after another.
* `EventSim.Scheduler.OneWay` — what is said of the steps of a life.

## Main results

* `EventSim.Scheduler.perform_of_error` — a call of the setup that is refused changes nothing.
* `EventSim.LifeStep.state_after` — the only step that changes the state is a run that begins.
* `EventSim.Scheduler.oneWay_life` — refused operations change nothing, and a scheduler runs once.
-/

namespace EventSim

variable {U P : Type}

/-! ## Operations -/

/-- The error that a call of the setup is refused with. -/
def SetupStep.error? : SetupStep U P → Option RunError
  | ⟨.register _ _, .error e⟩ => some e
  | ⟨.unregister _, .error e⟩ => some e
  | ⟨.schedule _ _ _, .ok (.error e)⟩ => some e
  | ⟨.unschedule _, .error e⟩ => some e
  | _ => none

/-- What can be done with a scheduler. -/
inductive Operation (U P : Type) : Type 1 where
  /-- A call of the setup. -/
  | setup (call : SetupCall U P)
  /-- A run that is followed by an observer. -/
  | run {α : Type} (observe : α → Observation P → α) (a : α)

namespace Operation

/-- The operation is a run. -/
def isRun : Operation U P → Bool
  | run _ _ => true
  | setup _ => false

/-- The operation is for the setup only: a unit is taken away, and the state of a unit is changed, after a run as
well. -/
def needsSetup : Operation U P → Bool
  | run _ _ | setup (.register _ _) | setup (.schedule _ _ _) | setup (.unschedule _) => true
  | setup (.unregister _) | setup (.updateUnit _ _) => false

end Operation

/-- An operation on a scheduler. -/
structure LifeStep (U P : Type) : Type 1 where
  /-- The scheduler as it is before. -/
  before : Scheduler U P
  /-- The operation. -/
  operation : Operation U P

variable [Payload P] [SimUnit U P]

namespace LifeStep

/-- The scheduler as it is afterwards. -/
def after : LifeStep U P → Scheduler U P
  | ⟨s, .setup call⟩ => (s.perform call).2
  | ⟨s, .run observe a⟩ => (s.run observe a).2.1

/-- The error that is returned. -/
def error? : LifeStep U P → Option RunError
  | ⟨s, .setup call⟩ => SetupStep.error? ⟨call, (s.perform call).1⟩
  | ⟨s, .run observe a⟩ =>
    match (s.run observe a).2.2 with
    | .failed e => some e
    | _ => none

omit [Payload P] [SimUnit U P] in
/-- A run begins: it is not refused because another one has been there. -/
def begins (x : LifeStep U P) : Bool := x.operation.isRun && x.before.state = .setup

end LifeStep

namespace Scheduler

variable {s : Scheduler U P}

/-- The steps of a life in which operations are carried out one after another. -/
def life (s : Scheduler U P) : List (Operation U P) → List (LifeStep U P)
  | [] => []
  | op :: ops => ⟨s, op⟩ :: life (LifeStep.after ⟨s, op⟩) ops

/-! ## Calls of the setup -/

/-- **A call of the setup that is refused changes nothing**, whatever state the scheduler is in. -/
theorem perform_of_error {c : SetupCall U P} {e : RunError}
    (h : SetupStep.error? ⟨c, (s.perform c).1⟩ = some e) : (s.perform c).2 = s := by
  cases c with
  | register unit worker =>
    rw [perform] at h ⊢
    rcases s.register_reply unit worker with ⟨_, heq⟩ | ⟨id, _, _, _, heq⟩ <;> rw [heq] at h ⊢
    cases h
  | unregister id =>
    rw [perform] at h ⊢
    rcases s.unregister_reply id with ⟨_, heq⟩ | ⟨r, _, heq⟩ <;> rw [heq] at h ⊢
    cases h
  | schedule target time payload =>
    rcases s.perform_schedule_cases target time payload with ⟨reply, s', hreply, heq⟩ | ⟨c, heq⟩ <;>
      rw [heq] at h ⊢
    rcases schedule_reply hreply with ⟨_, hsame⟩ | ⟨m, _, rfl, _⟩
    · exact hsame
    · cases h
  | unschedule handle =>
    rw [perform, Scheduler.unschedule] at h ⊢
    split
    · rfl
    · rename_i hstate
      rw [if_neg hstate] at h
      cases h
  | updateUnit id f => cases h

/-- No call of the setup changes the state. -/
lemma state_perform (s : Scheduler U P) (c : SetupCall U P) : (s.perform c).2.state = s.state := by
  cases c with
  | register unit worker =>
    rw [perform]
    rcases s.register_cases unit worker with heq | ⟨_, _, heq⟩ <;> rw [heq]
  | unregister id =>
    rw [perform]
    rcases s.unregister_reply id with ⟨_, heq⟩ | ⟨r, _, heq⟩ <;> rw [heq]
  | schedule target time payload =>
    rcases s.perform_schedule_cases target time payload with ⟨reply, s', hreply, heq⟩ | ⟨c, heq⟩ <;> rw [heq]
    rcases schedule_reply hreply with ⟨_, rfl⟩ | ⟨m, _, _, rfl, _⟩ <;> rfl
  | unschedule handle =>
    rw [perform, Scheduler.unschedule]
    split <;> rfl
  | updateUnit id f => rfl

/-- What holds of a scheduler all its life: it is set up, or the setup is over. -/
def Regular (s : Scheduler U P) : Prop := s.IsSetUp ∨ s.state ≠ .setup

end Scheduler

/-! ## One step -/

namespace LifeStep

variable {x : LifeStep U P}

/-- When the setup is over, whatever needs it is refused for that reason. -/
lemma error?_of_state_ne (h : x.before.state ≠ .setup) (hneeds : x.operation.needsSetup = true) :
    x.error? = some .alreadyStarted := by
  obtain ⟨s, op⟩ := x
  cases op with
  | run observe a => rw [error?, Scheduler.run_of_state_ne h]
  | setup call =>
    rw [error?]
    cases call with
    | register unit worker => rw [Scheduler.perform, Scheduler.register, if_pos h]; rfl
    | schedule target time payload => rw [Scheduler.perform, Scheduler.schedule, if_pos h]; rfl
    | unschedule handle => rw [Scheduler.perform, Scheduler.unschedule, if_pos h]; rfl
    | unregister id => cases hneeds
    | updateUnit id f => cases hneeds

/-- What is refused changes nothing, unless it is a run that has begun. -/
lemma after_of_error (hbegins : x.begins = false) {e : RunError} (h : x.error? = some e) :
    x.after = x.before := by
  obtain ⟨s, op⟩ := x
  cases op with
  | setup call => exact Scheduler.perform_of_error h
  | run observe a =>
    have hstate : s.state ≠ .setup := of_decide_eq_false hbegins
    rw [after, Scheduler.run_of_state_ne hstate]

/-- **The only step that changes the state is a run that begins**, and it ends the setup. -/
theorem state_after (h : x.before.Regular) :
    x.after.state ≠ .setup ∧ x.begins = true ∨ x.after.state = x.before.state ∧ x.begins = false := by
  obtain ⟨s, op⟩ := x
  cases op with
  | setup call => exact Or.inr ⟨s.state_perform call, rfl⟩
  | run observe a =>
    by_cases hstate : s.state = .setup
    · have hs := (h.resolve_right (not_not.2 hstate)).sound
      exact Or.inl ⟨(hs.exit observe a).state_ne, decide_eq_true hstate⟩
    · refine Or.inr ⟨?_, decide_eq_false hstate⟩
      rw [after, Scheduler.run_of_state_ne hstate]

/-- Every step keeps a scheduler regular. -/
lemma regular_after (h : x.before.Regular) : x.after.Regular := by
  obtain ⟨s, op⟩ := x
  cases op with
  | setup call =>
    rcases h with hsetup | hstate
    · exact Or.inl (hsetup.perform call)
    · exact Or.inr ((s.state_perform call).trans_ne hstate)
  | run observe a =>
    rcases state_after h with ⟨hafter, _⟩ | ⟨hsame, hbegins⟩
    · exact Or.inr hafter
    · exact Or.inr (hsame.trans_ne (of_decide_eq_false hbegins))

/-- A run begins just if it is not refused because another one has been there. -/
lemma begins_iff (h : x.before.Regular) (hrun : x.operation.isRun = true) :
    x.begins = true ↔ x.error? ≠ some .alreadyStarted := by
  obtain ⟨s, op⟩ := x
  cases op with
  | setup call => cases hrun
  | run observe a =>
    refine ⟨fun hbegins herror => ?_, fun herror => ?_⟩
    · have hstate : s.state = .setup := of_decide_eq_true hbegins
      have hs := (h.resolve_right (not_not.2 hstate)).sound
      have hexit := hs.exit observe a
      rw [error?] at herror
      split at herror <;> cases herror
      rename_i houtcome
      rw [houtcome] at hexit
      cases hexit.endsRun hs
    · by_contra hbegins
      have hstate : s.state ≠ .setup := of_decide_eq_false (Bool.eq_false_of_not_eq_true hbegins)
      exact herror (error?_of_state_ne hstate rfl)

end LifeStep

/-! ## A whole life -/

namespace Scheduler

variable {s : Scheduler U P} {ops : List (Operation U P)}

/-- All schedulers of a life are regular if the first one is. -/
lemma regular_of_mem_life (h : s.Regular) {x : LifeStep U P} (hx : x ∈ s.life ops) : x.before.Regular := by
  induction ops generalizing s with
  | nil => cases hx
  | cons op ops ih =>
    rcases List.mem_cons.1 hx with rfl | hx
    · exact h
    · exact ih (LifeStep.regular_after (x := ⟨s, op⟩) h) hx

/-- When the setup is over, it remains so for the rest of a life. -/
lemma state_ne_of_mem_life (hstate : s.state ≠ .setup) {x : LifeStep U P} (hx : x ∈ s.life ops) :
    x.before.state ≠ .setup := by
  induction ops generalizing s with
  | nil => cases hx
  | cons op ops ih =>
    rcases List.mem_cons.1 hx with rfl | hx
    · exact hstate
    rcases LifeStep.state_after (x := ⟨s, op⟩) (Or.inr hstate) with ⟨hafter, _⟩ | ⟨hsame, _⟩
    · exact ih hafter hx
    · exact ih (hsame.trans_ne hstate) hx

/-- No run begins when the setup is over. -/
lemma filter_begins_of_state_ne (hstate : s.state ≠ .setup) : (s.life ops).filter (·.begins) = [] := by
  refine List.filter_eq_nil_iff.2 fun x hx hbegins => ?_
  have hsetup := (Bool.and_eq_true_iff.1 hbegins).2
  exact state_ne_of_mem_life hstate hx (of_decide_eq_true hsetup)

/-- What is said of the steps of a life. -/
structure OneWay (steps : List (LifeStep U P)) : Prop where
  /-- An operation that returns an error leaves the scheduler exactly as it was, unless it is a run that has
  begun. -/
  unchanged : ∀ x ∈ steps, x.begins = false → x.error?.isSome → x.after = x.before
  /-- A run begins just if it is not refused because another one has been there. -/
  begins_iff : ∀ x ∈ steps, x.operation.isRun = true → (x.begins = true ↔ x.error? ≠ some .alreadyStarted)
  /-- After a step the setup lasts just if it did before and the step was not a run. -/
  state : ∀ x ∈ steps, x.after.state = .setup ↔ x.before.state = .setup ∧ x.operation.isRun = false
  /-- At most one run begins. -/
  once : (steps.filter (·.begins)).length ≤ 1
  /-- When a run has begun the setup is over for good, and whatever needs it is refused for that reason. -/
  closed : steps.Pairwise fun x y => x.begins = true →
    y.before.state ≠ .setup ∧ (y.operation.needsSetup = true → y.error? = some .alreadyStarted)

/-- **A scheduler runs once, and refused operations change nothing.** This holds of any operations in any order,
beginning with a scheduler that is set up or one whose setup is over: a run of it has finished or failed, or
something has broken down and left it running.

**Proof sketch.** Every branch of a call that replies with an error returns the scheduler as it is
(`perform_of_error`). The state changes only when a run begins (`LifeStep.state_after`), because each of the ends of
a run leaves another state than that of the setup (`Exit.state_ne`); induction on the operations carries this through
the rest of the life (`state_ne_of_mem_life`). That a run which begins is not refused in the same words is what
`Exit.endsRun` says of the errors of rounds. -/
theorem oneWay_life (h : s.IsSetUp ∨ s.state ≠ .setup) (ops : List (Operation U P)) : OneWay (s.life ops) := by
  have hregular : ∀ x ∈ s.life ops, x.before.Regular := fun x hx => regular_of_mem_life h hx
  refine ⟨fun x _ hbegins herror => ?_, fun x hx => LifeStep.begins_iff (hregular x hx), fun x hx => ?_, ?_, ?_⟩
  · obtain ⟨e, he⟩ := Option.isSome_iff_exists.1 herror
    exact LifeStep.after_of_error hbegins he
  · rcases LifeStep.state_after (hregular x hx) with ⟨hafter, hbegins⟩ | ⟨hsame, hbegins⟩
    · have hrun := (Bool.and_eq_true_iff.1 hbegins).1
      simp [hafter, hrun]
    · rw [hsame]
      refine ⟨fun hsetup => ⟨hsetup, ?_⟩, fun hboth => hboth.1⟩
      simpa [LifeStep.begins, hsetup] using hbegins
  · clear hregular
    induction ops generalizing s with
    | nil => exact Nat.zero_le _
    | cons op ops ih =>
      rw [life, List.filter_cons]
      rcases LifeStep.state_after (x := ⟨s, op⟩) h with ⟨hafter, hbegins⟩ | ⟨_, hbegins⟩
      · rw [if_pos hbegins, filter_begins_of_state_ne hafter]
        exact Nat.le_refl _
      · rw [if_neg (Bool.eq_false_iff.1 hbegins)]
        exact ih (LifeStep.regular_after (x := ⟨s, op⟩) h)
  · clear hregular
    induction ops generalizing s with
    | nil => exact List.Pairwise.nil
    | cons op ops ih =>
      refine List.Pairwise.cons (fun y hy hbegins => ?_) (ih (LifeStep.regular_after (x := ⟨s, op⟩) h))
      rcases LifeStep.state_after (x := ⟨s, op⟩) h with ⟨hafter, _⟩ | ⟨_, hnot⟩
      · have hstate := state_ne_of_mem_life hafter hy
        exact ⟨hstate, LifeStep.error?_of_state_ne hstate⟩
      · cases hnot.symm.trans hbegins

/-! ### A life in which a unit breaks down -/

/-- A unit that breaks down when it starts. -/
def faintheart : RuleTable where
  lookahead := ⟨Binary64.ofNat 1⟩
  opening := [.crash ⟨some "stage fright"⟩]

/-- A faintheart is registered, some calls are refused, and then everything is tried again after the run that the
faintheart does not survive. -/
def mishap : List (Operation RuleTable Mark) :=
  [.setup (.register faintheart (Id.ofNat 7)), .setup (.register faintheart (Id.ofNat 0)),
    .setup (.schedule (Id.ofNat 3) ⟨Binary64.ofNat 2⟩ ⟨4⟩), .setup (.unregister (Id.ofNat 3)),
    .run Engine.keepRecords #[], .setup (.register faintheart (Id.ofNat 0)), .setup (.unregister (Id.ofNat 0)),
    .setup (.schedule (Id.ofNat 0) ⟨Binary64.ofNat 2⟩ ⟨4⟩), .setup (.unschedule ⟨⟨UnitId.setup, 0⟩, Id.ofNat 0,
      ⟨Binary64.ofNat 2⟩⟩), .run Engine.keepRecords #[]]

/-- After a run that finishes, a unit is taken away twice, and another run is tried. -/
def sequel : List (Operation RuleTable Mark) :=
  [.run Engine.keepRecords #[], .setup (.unregister (Id.ofNat 0)), .setup (.unregister (Id.ofNat 0)),
    .run Engine.keepRecords #[]]

/-- After the breakdown the scheduler remains running and refuses everything. After a run that finishes it still
hands out its units. -/
theorem oneWay_mishap_sequel :
    (({ config := {} } : Scheduler RuleTable Mark).IsSetUp ∧
      ((({ config := {} } : Scheduler RuleTable Mark).life mishap).map fun x => (x.error?, x.after.state)) =
        [(some (.workerOutOfRange (Id.ofNat 7) 1), .setup), (none, .setup),
          (some (.unknownUnit (Id.ofNat 3)), .setup), (some (.unknownUnit (Id.ofNat 3)), .setup), (none, .running),
          (some .alreadyStarted, .running), (some .alreadyStarted, .running), (some .alreadyStarted, .running),
          (some .alreadyStarted, .running), (some .alreadyStarted, .running)] ∧
      OneWay (({ config := {} } : Scheduler RuleTable Mark).life mishap)) ∧
    correspondents.IsSetUp ∧
      ((correspondents.life sequel).map fun x => (x.error?, x.after.state)) =
        [(none, .finished), (none, .finished), (some (.unknownUnit (Id.ofNat 0)), .finished),
          (some .alreadyStarted, .finished)] ∧
      OneWay (correspondents.life sequel) := by
  have hempty : Scheduler.new {} = .ok ({ config := {} } : Scheduler RuleTable Mark) := rfl
  have hnew := IsSetUp.new hempty
  exact ⟨⟨hnew, by decide +kernel, oneWay_life (Or.inl hnew) mishap⟩, isSetUp_correspondents, by decide +kernel,
    oneWay_life (Or.inl isSetUp_correspondents) sequel⟩

end Scheduler

end EventSim
