import EventSim.Proofs.Lookahead
import EventSim.Proofs.SetupLog

set_option autoImplicit false

/-!
# The step of the horizon

The step of the horizon is the least lookahead of all units. A lookahead is checked when its unit is registered,
and the state of the unit may be changed after that. What the run then checks is only that one step after the start
is later than the start. That refuses negative steps, negative NaNs, steps that are lost in the rounding, and zeros
as a rule; positive infinity and positive NaNs pass, and so does positive zero if the start is negative zero.

## Main definitions

* `EventSim.Binary64.Slips` — the steps that pass though they are not finite and positive.
* `EventSim.Scheduler.ChecksStep` — what a run makes of the step of its horizon.

## Main results

* `EventSim.Binary64.ordinal_lt_add_iff` — a sum is later than its first term for just these steps and the finite and
  positive ones that are not lost in the rounding.
* `EventSim.Scheduler.IsSetUp.checksStep` — a run that comes to its first round has one of these steps.
* `EventSim.Scheduler.exists_slip` — runs that do have a step that is not finite and positive.
-/

namespace EventSim

/-! ## Steps after which it is later -/

namespace Binary64

open Float.Model

variable {x y d : Binary64}

/-- The number with the sign bit set and no other one. -/
def negZero : Binary64 := ⟨0x8000000000000000⟩

/-- The steps that make a number larger in the total order though they are not finite and positive. -/
def Slips (x d : Binary64) : Prop :=
  d = infinity ∨ d.isNaN = true ∧ d.isNegative = false ∨ d = zero ∧ x = negZero

instance (x d : Binary64) : Decidable (x.Slips d) := inferInstanceAs (Decidable (_ ∨ _ ∧ _ ∨ _ ∧ _))

/-- There are two numbers without significand. -/
lemma eq_of_significand_eq_zero (hx : x.significand = 0) : x = zero ∨ x = negZero := by
  have hmagnitude := magnitude_eq x
  have hfield := le_significand (x := x)
  have hbits := toNat_magnitude x
  have hlt : x.bits.toNat < 2 ^ 64 := x.bits.toNat_lt
  have hcases : x.bits.toNat = 0 ∨ x.bits.toNat = 2 ^ 63 := by omega
  obtain ⟨bits⟩ := x
  rcases hcases with h | h
  · exact Or.inl (congrArg Binary64.mk (UInt64.toNat_inj.1 h))
  · exact Or.inr (congrArg Binary64.mk (UInt64.toNat_inj.1 h))

/-- A zero is added to any number but a zero without effect. -/
lemma add_eq_self (hx : x.isFinite = true) (hne : x.significand ≠ 0) (hd : d = zero ∨ d = negZero) : x + d = x := by
  have hfinite : d.isFinite = true := by rcases hd with rfl | rfl <;> rfl
  have hsignificand : d.significand = 0 := by rcases hd with rfl | rfl <;> rfl
  have hsum : UnpackedFloat.add Format.binary64 x.unpacked d.unpacked = x.unpacked := by
    rw [unpacked_of_isFinite hx, dif_neg hne, unpacked_of_isFinite hfinite, dif_pos hsignificand]
    rfl
  rw [add_eq hx hfinite, hsum, ofUnpacked_unpacked hx, if_neg (by simp [isNaN_eq_false_of_isFinite hx])]

/-- Zero is added to zero with its sign, and to any other number without effect. -/
lemma ordinal_lt_add_zero_iff (hx : x.isFinite = true) (hd : d = zero ∨ d = negZero) :
    x.ordinal < (x + d).ordinal ↔ d = zero ∧ x = negZero := by
  by_cases hzero : x.significand = 0
  · rcases eq_of_significand_eq_zero hzero with rfl | rfl <;> rcases hd with rfl | rfl <;> decide
  · rw [add_eq_self hx hzero hd]
    refine iff_of_false (lt_irrefl _) ?_
    rintro ⟨_, rfl⟩
    exact hzero rfl

/-- Positive zero makes no number smaller. -/
lemma ordinal_le_add_zero (hx : x.isFinite = true) : x.ordinal ≤ (x + zero).ordinal := by
  by_cases hzero : x.significand = 0
  · rcases eq_of_significand_eq_zero hzero with rfl | rfl <;> decide
  · rw [add_eq_self hx hzero (Or.inl rfl)]

/-- A negative step does not make a number larger. -/
lemma ordinal_add_le (hx : x.isFinite = true) (hd : d.isFinite = true) (hneg : d.isNegative = true)
    (hne : d.significand ≠ 0) : (x + d).ordinal ≤ x.ordinal := by
  have hunits : d.units ≤ 0 := by
    rw [units, if_pos hneg]
    omega
  rw [(ordinal_add hx hd (Or.inr hne)).2]
  by_cases hzero : x.significand = 0
  · rw [units_eq_zero hzero, Int.zero_add, nearestOrdinal_units hd fun _ => units_ne_zero hne, ordinal, if_pos hneg,
      ordinal]
    have hx := magnitude_eq x
    have hd := magnitude_eq d
    have hfield := le_significand (x := x)
    split <;> omega
  · rw [← nearestOrdinal_units hx fun _ => units_ne_zero hzero]
    exact nearestOrdinal_mono (by omega)

/-- A step that is not a number leads to the like, on the same side of all numbers. -/
lemma add_nan (hx : x.isFinite = true) (hd : d.isNaN = true) :
    (x + d).isNegative = d.isNegative ∧ (x + d).isNaN = true := by
  rw [add_eq_ite, if_neg (by simp [isNaN_eq_false_of_isFinite hx]), if_pos hd]
  exact ⟨isNegative_quiet d, isNaN_quiet hd⟩

/-- What is finite and not zero does not slip through. -/
lemma not_slips (hd : d.isFinite = true) (hne : d.significand ≠ 0) : ¬ x.Slips d := by
  rintro (rfl | ⟨hnan, _⟩ | ⟨rfl, _⟩)
  · cases hd
  · cases hnan.symm.trans (isNaN_eq_false_of_isFinite hd)
  · exact hne rfl

/-- A positive step makes a number larger unless it is lost in the rounding. -/
lemma ordinal_lt_add_positive_iff (hx : x.isFinite = true) (hd : d.isPositiveFinite = true) :
    x.ordinal < (x + d).ordinal ↔ x + d ≠ x := by
  rw [(ordinal_le_add hx hd).lt_iff_ne]
  exact not_congr ⟨fun h => ordinal_inj h.symm, fun h => by rw [h]⟩

/-- What is not a number is beyond all numbers, on the side of its sign. -/
lemma ordinal_lt_add_nan_iff (hx : x.isFinite = true) (hd : d.isNaN = true) :
    x.ordinal < (x + d).ordinal ↔ d.isNegative = false := by
  obtain ⟨hsign, hsum⟩ := add_nan hx hd
  have hbounds := isFinite_iff_ordinal.1 hx
  have hfar := isNaN_iff.1 hsum
  have hposition : (x + d).ordinal =
      if (x + d).isNegative then -((x + d).magnitude.toNat : Int) - 1 else (x + d).magnitude.toNat := rfl
  rw [← hsign]
  split at hposition <;> rename_i h
  · exact iff_of_false (by omega) (by simp [h])
  · exact iff_of_true (by omega) (Bool.eq_false_of_not_eq_true h)

/-- Only positive infinity makes a number larger. -/
lemma ordinal_lt_add_infinite (hx : x.isFinite = true) :
    x.ordinal < (x + infinity).ordinal ∧ ¬ x.ordinal < (x + negInfinity).ordinal := by
  have hbounds := isFinite_iff_ordinal.1 hx
  have hpos : infinity.ordinal = infinity.magnitude.toNat := rfl
  have hneg : negInfinity.ordinal = -(infinity.magnitude.toNat : Int) - 1 := rfl
  rw [(add_infinite hx (Or.inl rfl)).1, (add_infinite hx (Or.inr rfl)).1]
  omega

/-- Of what is not a number, the positive slips through. -/
lemma slips_iff_of_isNaN (hd : d.isNaN = true) : x.Slips d ↔ d.isNegative = false := by
  refine ⟨?_, fun h => Or.inr (Or.inl ⟨hd, h⟩)⟩
  rintro (rfl | ⟨_, h⟩ | ⟨rfl, _⟩)
  · cases hd
  · exact h
  · cases hd

/-- Of the zeros, positive zero slips through negative zero. -/
lemma slips_iff_of_zero (hd : d = zero ∨ d = negZero) : x.Slips d ↔ d = zero ∧ x = negZero := by
  rcases hd with rfl | rfl <;> simp [Slips, show zero ≠ infinity by decide, show negZero ≠ infinity by decide,
    show zero.isNaN = false from rfl, show negZero.isNaN = false from rfl]

/-- **A step makes a finite number larger in the total order** just if it is finite and positive and not lost in
the rounding, or slips through. -/
theorem ordinal_lt_add_iff (hx : x.isFinite = true) :
    x.ordinal < (x + d).ordinal ↔ d.isPositiveFinite = true ∧ x + d ≠ x ∨ x.Slips d := by
  by_cases hd : d.isFinite = true
  · by_cases hzero : d.significand = 0
    · have hd0 := eq_of_significand_eq_zero hzero
      have hpositive : ¬ (d.isPositiveFinite = true ∧ x + d ≠ x) := by
        rcases hd0 with rfl | rfl <;> exact fun h => Bool.false_ne_true h.1
      rw [or_iff_right hpositive, slips_iff_of_zero hd0]
      exact ordinal_lt_add_zero_iff hx hd0
    rw [or_iff_left (not_slips hd hzero)]
    by_cases hneg : d.isNegative = true
    · refine iff_of_false (not_lt.2 (ordinal_add_le hx hd hneg hzero)) fun h => ?_
      cases hneg.symm.trans (isPositiveFinite_iff.1 h.1).2.1
    · have hsize := magnitude_eq d
      have hpositive : d.isPositiveFinite = true :=
        isPositiveFinite_iff.2 ⟨hd, Bool.eq_false_of_not_eq_true hneg, by omega⟩
      rw [and_iff_right hpositive]
      exact ordinal_lt_add_positive_iff hx hpositive
  have hd := Bool.eq_false_of_not_eq_true hd
  rw [or_iff_right fun h => Bool.false_ne_true (hd.symm.trans (isPositiveFinite_iff.1 h.1).1)]
  by_cases hnan : d.isNaN = true
  · rw [slips_iff_of_isNaN hnan]
    exact ordinal_lt_add_nan_iff hx hnan
  · rcases eq_of_isInfinite hd (Bool.eq_false_of_not_eq_true hnan) with rfl | rfl
    · exact iff_of_true (ordinal_lt_add_infinite hx).1 (Or.inl rfl)
    · refine iff_of_false (ordinal_lt_add_infinite hx).2 ?_
      rintro (h | ⟨h, _⟩ | ⟨h, _⟩) <;> cases h

/-- A step that makes one finite number larger makes none smaller. -/
lemma ordinal_le_add_of_lt (hx : x.isFinite = true) (hy : y.isFinite = true) (h : x.ordinal < (x + d).ordinal) :
    y.ordinal ≤ (y + d).ordinal := by
  rcases (ordinal_lt_add_iff hx).1 h with ⟨hpositive, _⟩ | rfl | ⟨hnan, hsign⟩ | ⟨rfl, _⟩
  · exact ordinal_le_add hy hpositive
  · exact le_of_lt (ordinal_lt_add_infinite hy).1
  · exact le_of_lt ((ordinal_lt_add_nan_iff hy hnan).2 hsign)
  · exact ordinal_le_add_zero hy

end Binary64

/-! ## The check before the run -/

namespace Scheduler

variable {U P : Type} [Payload P] [SimUnit U P] {s : Scheduler U P} {delta : SimTime}

/-- **The first horizon is later than the start** just if the step is finite and positive and not lost in the
rounding, or slips through. -/
theorem IsSetUp.start_lt_first_iff (hs : s.IsSetUp) :
    s.config.startTime < (Horizon.first s.config.startTime delta).current ↔
      delta.secs.isPositiveFinite = true ∧ s.config.startTime + delta ≠ s.config.startTime ∨
        s.config.startTime.secs.Slips delta.secs := by
  have hsecs : ∀ a b : SimTime, a = b ↔ a.secs = b.secs := fun a b => ⟨congrArg _, fun h => by
    cases a
    cases b
    exact congrArg SimTime.mk h⟩
  rw [SimTime.lt_iff_ordinal, ne_eq, hsecs]
  exact Binary64.ordinal_lt_add_iff hs.isFinite_times.1

/-- What a run makes of the step of its horizon. -/
structure ChecksStep (s : Scheduler U P) : Prop where
  /-- The step of every round is the least lookahead. It is finite and positive, or slips through. -/
  used : ∀ t ∈ s.stages, s.leastLookahead = some t.horizon.delta ∧
    (t.horizon.delta.secs.isPositiveFinite = true ∨ s.config.startTime.secs.Slips t.horizon.delta.secs)
  /-- With any other step the run fails before its first round, and the observer is told nothing. -/
  refused : ∀ delta, s.leastLookahead = some delta → delta.secs.isPositiveFinite = false →
    ¬ s.config.startTime.secs.Slips delta.secs → s.stages = [] ∧
      ∀ {α : Type} (observe : α → Observation P → α) (a : α), s.run observe a =
        (a, { s with state := .failed },
          .failed (.horizonStalled s.config.startTime (s.config.startTime + delta)))
  /-- If there are units and no first round, there is an error, unless a unit breaks down while it starts. -/
  unreached : s.stages = [] → s.leastLookahead ≠ none → (∃ e, s.outcome = .failed e) ∨ ∃ c, s.outcome = .crashed c
  /-- If all units start, every step that slips through is used. -/
  slips : ∀ delta, s.leastLookahead = some delta → s.config.startTime.secs.Slips delta.secs →
    (∀ u x, s.slot? u = some x → x.Starts s.table s.config.startTime) → ∃ t ∈ s.stages, t.horizon.delta = delta

/-- **The step of the horizon is checked before the first round, but for the steps that slip through.** Whatever has
been done in the setup, and whatever the states of the units have been changed to since they were registered: a run
that has a first round goes by the least lookahead of all units, and that is finite and positive or one of
the steps that slip through. With any other step the run fails before that.

**Proof sketch.** A run has a first round only if the first horizon is later than the start, which is finite. For a
finite positive step the sum is the number nearest to the sum of the values, and so not less than the start; for a
negative one it is not greater (`Binary64.ordinal_add_le`). Zeros, infinities and NaNs are computed. -/
theorem IsSetUp.checksStep (hs : s.IsSetUp) : s.ChecksStep where
  used t ht := by
    obtain ⟨ts, rest, h⟩ := List.append_of_mem ht
    obtain ⟨_, hdelta⟩ := hs.sound.paced_of_stages_eq h
    obtain ⟨t₀, hfirst, _⟩ := firstStage?_of_stages_eq h
    obtain ⟨delta, hdelta', hmoves, _⟩ := hs.sound.firstStage?_eq_some_iff.1 hfirst
    obtain rfl := Option.some.inj (hdelta.symm.trans hdelta')
    exact ⟨hdelta, (hs.start_lt_first_iff.1 hmoves).imp_left (·.1)⟩
  refused delta hdelta hinvalid hslips := by
    have hstalled : ¬ s.config.startTime < (Horizon.first s.config.startTime delta).current := by
      rw [hs.start_lt_first_iff]
      rintro (⟨hpositive, _⟩ | h)
      · cases hinvalid.symm.trans hpositive
      · exact hslips h
    constructor
    · rcases s.stages_eq_nil_or_append with ⟨h, _⟩ | ⟨ts, t, h⟩
      · exact h
      obtain ⟨t₀, hfirst, _⟩ := firstStage?_of_stages_eq h
      obtain ⟨delta', hdelta', hmoves, _⟩ := hs.sound.firstStage?_eq_some_iff.1 hfirst
      obtain rfl := Option.some.inj (hdelta.symm.trans hdelta')
      exact absurd hmoves hstalled
    · intro α observe a
      unfold run
      rw [if_neg (not_not.2 hs.sound.state_eq), hdelta]
      exact if_neg hstalled
  unreached h hsome := by
    rcases s.stages_eq_nil_or_append with ⟨_, hfirst⟩ | ⟨ts, t, h'⟩
    · rcases (run_of_none hfirst).2 with ⟨_, hnone, _⟩ | ⟨e, he, _⟩ | ⟨c, hc, _⟩
      · exact absurd hnone hsome
      · exact Or.inl ⟨e, he⟩
      · exact Or.inr ⟨c, hc⟩
    · rw [h] at h'
      simp at h'
  slips delta hdelta hslips hstarts := by
    have hfirst := hs.sound.firstStage?_eq_some_iff.2
      ⟨delta, hdelta, hs.start_lt_first_iff.2 (Or.inr hslips), hstarts, rfl⟩
    refine ⟨⟨0, Horizon.first s.config.startTime delta, s.firstEngine⟩, ?_, rfl⟩
    rw [stages_eq_cons hfirst]
    exact List.mem_append_right _ List.mem_cons_self

/-! ### A lookahead that is changed after registration -/

/-- A unit that only receives, which is given another lookahead when it has been registered, and a message to it. -/
def relaxed (start lookahead : SimTime) : Scheduler RuleTable Mark :=
  (({ config := { startTime := start } } : Scheduler RuleTable Mark).performAll
    [.register { lookahead := ⟨Binary64.ofNat 1⟩ } (Id.ofNat 0), .schedule (Id.ofNat 0) ⟨Binary64.ofNat 3⟩ ⟨9⟩,
      .updateUnit (Id.ofNat 0) fun u => { u with lookahead }]).2

/-- With a negative lookahead the run is refused, with another positive one it takes place. -/
theorem checksStep_relaxed :
    ((relaxed SimTime.zero ⟨-Binary64.ofNat 2⟩).IsSetUp ∧
      (relaxed SimTime.zero ⟨-Binary64.ofNat 2⟩).outcome =
        .failed (.horizonStalled SimTime.zero ⟨-Binary64.ofNat 2⟩) ∧
      (relaxed SimTime.zero ⟨-Binary64.ofNat 2⟩).ChecksStep) ∧
    (relaxed SimTime.zero ⟨Binary64.ofNat 2⟩).IsSetUp ∧
      (relaxed SimTime.zero ⟨Binary64.ofNat 2⟩).stages.map (·.horizon.current) =
        [⟨Binary64.ofNat 2⟩, ⟨Binary64.ofNat 4⟩] ∧
      (relaxed SimTime.zero ⟨Binary64.ofNat 2⟩).ChecksStep := by
  have hsetup : ∀ lookahead, (relaxed SimTime.zero lookahead).IsSetUp := fun _ => (setUpBy_performAll rfl _).isSetUp
  exact ⟨⟨hsetup _, by decide +kernel, (hsetup _).checksStep⟩, hsetup _, by decide +kernel, (hsetup _).checksStep⟩

/-- **Steps slip through.** After its registration a unit is given an infinite lookahead, a NaN for one, or none
while the start is negative zero. The check before the run lets each of them pass, and there is a first round; with
the first two the run finishes. -/
theorem exists_slip :
    (∀ p ∈ [(Binary64.zero, Binary64.infinity), (Binary64.zero, Binary64.nan), (Binary64.negZero, Binary64.zero)],
      (relaxed ⟨p.1⟩ ⟨p.2⟩).IsSetUp ∧ p.2.isPositiveFinite = false ∧
        ∃ t ∈ (relaxed ⟨p.1⟩ ⟨p.2⟩).stages, t.past = 0 ∧ t.horizon.delta = ⟨p.2⟩) ∧
    (∃ stats, (relaxed SimTime.zero ⟨Binary64.infinity⟩).outcome = .finished stats) ∧
      ∃ stats, (relaxed SimTime.zero ⟨Binary64.nan⟩).outcome = .finished stats := by
  have hstages : ∀ p ∈ [(Binary64.zero, Binary64.infinity), (Binary64.zero, Binary64.nan),
      (Binary64.negZero, Binary64.zero)], p.2.isPositiveFinite = false ∧
        ∃ t ∈ (relaxed ⟨p.1⟩ ⟨p.2⟩).stages, t.past = 0 ∧ t.horizon.delta = ⟨p.2⟩ := by
    decide +kernel
  refine ⟨fun p hp => ⟨?_, hstages p hp⟩, ?_, ?_⟩
  · simp only [List.mem_cons, List.not_mem_nil, or_false] at hp
    rcases hp with rfl | rfl | rfl <;> exact (setUpBy_performAll rfl _).isSetUp
  · exact ⟨{
      rounds := 1, horizonDelta := ⟨Binary64.infinity⟩, finalHorizon := ⟨Binary64.infinity⟩
      seeded := 1, delivered := 1, produced := 0, cancelled := 0, undelivered := 0
      workers := [⟨Id.ofNat 0, 1, 0, 0, 1, 0⟩] }, by decide +kernel⟩
  · exact ⟨{
      rounds := 1, horizonDelta := ⟨Binary64.nan⟩, finalHorizon := ⟨Binary64.nan⟩
      seeded := 1, delivered := 1, produced := 0, cancelled := 0, undelivered := 0
      workers := [⟨Id.ofNat 0, 1, 0, 0, 1, 0⟩] }, by decide +kernel⟩

end Scheduler

end EventSim
