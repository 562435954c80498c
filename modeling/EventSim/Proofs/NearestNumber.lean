import EventSim.Binary64.Rounding
import Mathlib.Data.Nat.Log
import Mathlib.Tactic.Ring

set_option autoImplicit false

/-!
# The nearest number

Every finite number is a multiple of the least positive one, the *unit* `2 ^ (-1074)`. Among the nonnegative
numbers, counted from zero upwards, the one nearest to `n` units has position `nearest n`. What is larger is
rounded to what is at least as large, and a number that is held exactly is its own nearest one. The number nearest to
a fraction `n / d` of units has position `nearestRatio n d`.

## Main definitions

* `EventSim.Binary64.nearest` — the position of the number nearest to so many units.
* `EventSim.Binary64.nearestRatio` — the position of the number nearest to a fraction of units.
* `EventSim.Binary64.units` — the value of a finite number in units.
* `EventSim.Binary64.ordinal` — the position of a number in the total order, counted from zero.
* `EventSim.Binary64.level` — its position in the usual order, in which the two zeros are equal.

## Main results

* `EventSim.Binary64.nearest_mono` — rounding is monotone.
* `EventSim.Binary64.nearestRatio_pos_iff`, `EventSim.Binary64.le_nearestRatio_iff` — which fractions are rounded to
  zero, and which to a power of two or beyond.
* `EventSim.Binary64.nearest_size` — numbers are rounded to themselves.
* `EventSim.Binary64.units_le_units` — values are ordered like positions.
-/

namespace EventSim.Binary64

/-! ## Rounding a quotient -/

section Quotient

variable {n n' d q : Nat}

/-- A rounded quotient is the quotient or the next natural. -/
lemma roundDivEven_cases (n d : Nat) : roundDivEven n d = n / d ∧ 2 * (n % d) ≤ d ∨
    roundDivEven n d = n / d + 1 ∧ d ≤ 2 * (n % d) := by
  unfold roundDivEven
  dsimp only
  split
  · exact Or.inl ⟨rfl, by omega⟩
  split
  · exact Or.inr ⟨rfl, by omega⟩
  split
  · exact Or.inl ⟨rfl, by omega⟩
  · exact Or.inr ⟨rfl, by omega⟩

/-- **Rounding a quotient is monotone.** -/
theorem roundDivEven_mono (h : n ≤ n') (d : Nat) : roundDivEven n d ≤ roundDivEven n' d := by
  have hdiv : n / d ≤ n' / d := Nat.div_le_div_right h
  rcases Nat.lt_or_eq_of_le hdiv with hlt | heq
  · rcases roundDivEven_cases n d with ⟨h₁, _⟩ | ⟨h₁, _⟩ <;>
      rcases roundDivEven_cases n' d with ⟨h₂, _⟩ | ⟨h₂, _⟩ <;> omega
  · -- the remainders decide, as the quotients are the same
    have hmod : n % d ≤ n' % d := by
      have hn := Nat.div_add_mod n d
      have hn' := Nat.div_add_mod n' d
      rw [heq] at hn
      omega
    unfold roundDivEven
    rw [heq]
    dsimp only
    split_ifs <;> omega

/-- An exact quotient is not rounded. -/
lemma roundDivEven_mul (hd : 0 < d) (q : Nat) : roundDivEven (q * d) d = q := by
  unfold roundDivEven
  rw [Nat.mul_div_cancel q hd, Nat.mul_mod_left]
  exact if_pos hd

/-- What is at most so many times the divisor has at most that rounded quotient. -/
lemma roundDivEven_le (hd : 0 < d) (h : n ≤ q * d) : roundDivEven n d ≤ q :=
  (roundDivEven_mono h d).trans_eq (roundDivEven_mul hd q)

/-- What is at least so many times the divisor has at least that rounded quotient. -/
lemma le_roundDivEven (hd : 0 < d) (h : q * d ≤ n) : q ≤ roundDivEven n d :=
  (roundDivEven_mul hd q).symm.trans_le (roundDivEven_mono h d)

/-- A common factor does not matter. -/
lemma roundDivEven_mul_mul {c : Nat} (hc : 0 < c) (n d : Nat) :
    roundDivEven (n * c) (d * c) = roundDivEven n d := by
  have hscale : ∀ a b : Nat, a * c < b * c ↔ a < b := fun a b => Nat.mul_lt_mul_right hc
  unfold roundDivEven
  rw [Nat.mul_div_mul_right n d hc, Nat.mul_mod_mul_right]
  dsimp only
  simp only [← Nat.mul_assoc, hscale]

/-- The rounded quotient is above a natural if the quotient is above the middle to the next one, or in the middle and
the natural is odd. -/
lemma lt_roundDivEven_iff (hd : 0 < d) (q : Nat) :
    q < roundDivEven n d ↔ if q % 2 = 0 then (2 * q + 1) * d < 2 * n else (2 * q + 1) * d ≤ 2 * n := by
  have hlt : n % d < d := Nat.mod_lt _ hd
  have hsplit := Nat.div_add_mod n d
  have hexpand : ∀ p, (2 * p + 1) * d = 2 * (d * p) + d := fun p => by ring
  have hcases := roundDivEven_cases n d
  rw [hexpand]
  rcases lt_trichotomy q (n / d) with h | h | h
  · have hmul : d * (q + 1) ≤ d * (n / d) := Nat.mul_le_mul_left d h
    rw [Nat.mul_add, Nat.mul_one] at hmul
    split <;> omega
  · subst h
    unfold roundDivEven
    dsimp only
    split_ifs <;> omega
  · have hmul : d * (n / d + 1) ≤ d * q := Nat.mul_le_mul_left d h
    rw [Nat.mul_add, Nat.mul_one] at hmul
    split <;> omega

end Quotient

/-! ## Positions of nonnegative numbers -/

/-- The position of the number nearest to `n` units among the nonnegative numbers, if they went on beyond the
largest finite one. With `k` the position of the last place, the significand is `n / 2 ^ k`, rounded, and
each of the `2 ^ 52` significands of a place takes one position. -/
def nearest (n : Nat) : Nat := (n.log2 - 52) * 2 ^ 52 + roundDivEven n (2 ^ (n.log2 - 52))

section Nearest

variable {n n' : Nat}

/-- The significand of a value fits into its places. -/
lemma lt_two_pow_log2 (n : Nat) : n < 2 ^ 53 * 2 ^ (n.log2 - 52) := by
  have hlt : n < 2 ^ (n.log2 + 1) := Nat.lt_log2_self
  have hle : 2 ^ (n.log2 + 1) ≤ 2 ^ (53 + (n.log2 - 52)) := Nat.pow_le_pow_right (by decide) (by omega)
  rw [← Nat.pow_add]
  omega

/-- The significand of a value fills its places, unless they are the lowest ones. -/
lemma two_pow_log2_le (h : n.log2 - 52 ≠ 0) : 2 ^ 52 * 2 ^ (n.log2 - 52) ≤ n := by
  have hn : n ≠ 0 := by rintro rfl; simp at h
  have hle : 2 ^ n.log2 ≤ n := Nat.log2_self_le hn
  rwa [← Nat.pow_add, show 52 + (n.log2 - 52) = n.log2 by omega]

/-- The logarithm is monotone. -/
lemma log2_mono (h : n ≤ n') : n.log2 ≤ n'.log2 := by
  rw [Nat.log2_eq_log_two, Nat.log2_eq_log_two]
  exact Nat.log_mono_right h

/-- **Rounding is monotone.**

**Proof sketch.** With the same last place, quotients by the same power are rounded. With a higher one, the
smaller value is rounded to at most the first number of the next places, and the larger one to at least that
of its own. -/
theorem nearest_mono (h : n ≤ n') : nearest n ≤ nearest n' := by
  have hpow : ∀ k : Nat, 0 < 2 ^ k := fun k => Nat.pow_pos (by decide)
  rcases Nat.lt_or_eq_of_le (Nat.sub_le_sub_right (log2_mono h) 52) with hlt | heq
  · have hup : roundDivEven n (2 ^ (n.log2 - 52)) ≤ 2 ^ 53 :=
      roundDivEven_le (hpow _) (Nat.le_of_lt (lt_two_pow_log2 n))
    have hdown : 2 ^ 52 ≤ roundDivEven n' (2 ^ (n'.log2 - 52)) :=
      le_roundDivEven (hpow _) (two_pow_log2_le (by omega))
    have hstep : (n.log2 - 52 + 1) * 2 ^ 52 ≤ (n'.log2 - 52) * 2 ^ 52 := Nat.mul_le_mul_right _ hlt
    unfold nearest
    omega
  · unfold nearest
    rw [heq]
    exact Nat.add_le_add_left (roundDivEven_mono h _) _

/-- A significand of a place is rounded to its own position. -/
lemma nearest_of_significand {f k : Nat} (hlow : k ≠ 0 → 2 ^ 52 ≤ f) (hup : f < 2 ^ 53) :
    nearest (f * 2 ^ k) = k * 2 ^ 52 + f := by
  have hk : (f * 2 ^ k).log2 - 52 = k := by
    rcases Nat.eq_zero_or_pos f with rfl | hf
    · have hzero : k = 0 := by
        by_contra hne
        exact absurd (hlow hne) (by decide)
      simp [hzero]
    · have hne : f * 2 ^ k ≠ 0 := Nat.mul_ne_zero (Nat.ne_of_gt hf) (Nat.ne_of_gt (Nat.pow_pos (by decide)))
      have hlt : (f * 2 ^ k).log2 < 53 + k := by
        rw [Nat.log2_lt hne, Nat.pow_add]
        exact Nat.mul_lt_mul_of_pos_right hup (Nat.pow_pos (by decide))
      rcases Nat.eq_zero_or_pos k with rfl | hpos
      · omega
      · have hle : 52 + k ≤ (f * 2 ^ k).log2 := by
          rw [Nat.le_log2 hne, Nat.pow_add]
          exact Nat.mul_le_mul_right _ (hlow (by omega))
        omega
  rw [nearest, hk, roundDivEven_mul (Nat.pow_pos (by decide))]

end Nearest

/-! ## Positions of ratios -/

/-- The position of the number nearest to `n / d` units among the nonnegative numbers, if they went on beyond the
largest finite one. -/
def nearestRatio (n d : Nat) : Nat :=
  ((n / d).log2 - 52) * 2 ^ 52 + roundDivEven n (d * 2 ^ ((n / d).log2 - 52))

section Ratio

variable {n n' d d' : Nat}

lemma nearestRatio_one (n : Nat) : nearestRatio n 1 = nearest n := by
  rw [nearestRatio, nearest, Nat.div_one, Nat.one_mul]

/-- A common factor does not matter. -/
lemma nearestRatio_mul_mul {c : Nat} (hc : 0 < c) (n d : Nat) : nearestRatio (n * c) (d * c) = nearestRatio n d := by
  rw [nearestRatio, nearestRatio, Nat.mul_div_mul_right n d hc, Nat.mul_right_comm d c, roundDivEven_mul_mul hc]

/-- Equal ratios are rounded to the same number. -/
lemma nearestRatio_congr (hd : 0 < d) (hd' : 0 < d') (h : n * d' = n' * d) : nearestRatio n d = nearestRatio n' d' := by
  rw [← nearestRatio_mul_mul hd' n d, h, Nat.mul_comm d d', nearestRatio_mul_mul hd]

/-- A ratio is rounded to zero if it is at most half a unit. -/
lemma nearestRatio_pos_iff (hd : 0 < d) : 0 < nearestRatio n d ↔ d < 2 * n := by
  rcases Nat.eq_zero_or_pos ((n / d).log2 - 52) with hk | hk
  · rw [nearestRatio, hk, Nat.zero_mul, Nat.zero_add, Nat.pow_zero, Nat.mul_one, lt_roundDivEven_iff hd]
    simp
  · have hle := two_pow_log2_le (n := n / d) hk.ne'
    have hpos : 1 ≤ n / d := le_trans (Nat.mul_pos (by decide) (Nat.pow_pos (by decide))) hle
    have hmul := Nat.mul_le_mul_right (n := 1) d hpos
    have hn := Nat.div_mul_le_self n d
    exact iff_of_true (Nat.add_pos_left (Nat.mul_pos hk (Nat.pow_pos (by decide))) _) (by omega)

/-- Where a ratio has its last place. -/
lemma roundDivEven_ratio_bounds (hd : 0 < d) : roundDivEven n (d * 2 ^ ((n / d).log2 - 52)) ≤ 2 ^ 53 ∧
    ((n / d).log2 - 52 ≠ 0 → 2 ^ 52 ≤ roundDivEven n (d * 2 ^ ((n / d).log2 - 52))) := by
  have hpos : 0 < d * 2 ^ ((n / d).log2 - 52) := Nat.mul_pos hd (Nat.pow_pos (by decide))
  constructor
  · have hlt := (Nat.div_lt_iff_lt_mul hd).1 (lt_two_pow_log2 (n / d))
    exact roundDivEven_le hpos (by rw [Nat.mul_left_comm, Nat.mul_comm d]; exact hlt.le)
  · intro h
    have hle := (Nat.le_div_iff_mul_le hd).1 (two_pow_log2_le h)
    exact le_roundDivEven hpos (by rw [Nat.mul_left_comm, Nat.mul_comm d]; exact hle)

/-- A ratio is rounded to the first number of a higher place or beyond it, if it is at least in the middle between that
number and the last one of the place below. -/
lemma le_nearestRatio_iff (hd : 0 < d) (k : Nat) :
    (k + 1) * 2 ^ 52 + 2 ^ 53 ≤ nearestRatio n d ↔ (2 ^ 54 - 1) * 2 ^ k * d ≤ n := by
  obtain ⟨hup, hlow⟩ := roundDivEven_ratio_bounds (n := n) hd
  have hlt := (Nat.div_lt_iff_lt_mul hd).1 (lt_two_pow_log2 (n / d))
  have hge := fun h => (Nat.le_div_iff_mul_le hd).1 (two_pow_log2_le (n := n / d) h)
  rw [nearestRatio]
  generalize (n / d).log2 - 52 = j at *
  have hpos : 0 < d * 2 ^ j := Nat.mul_pos hd (Nat.pow_pos (by decide))
  have hscale : ∀ {i i'}, i ≤ i' → d * 2 ^ i ≤ d * 2 ^ i' := fun h =>
    Nat.mul_le_mul_left d (Nat.pow_le_pow_right (by decide) h)
  have hassoc : ∀ c i, c * 2 ^ i * d = c * (d * 2 ^ i) := fun c i => by ring
  rw [hassoc] at hlt hge ⊢
  rcases lt_trichotomy j (k + 1) with h | rfl | h
  · have hj := hscale (Nat.le_of_lt_succ h)
    have hmul : j * 2 ^ 52 ≤ k * 2 ^ 52 := Nat.mul_le_mul_right _ (Nat.le_of_lt_succ h)
    exact iff_of_false (by omega) (by omega)
  · have hhalf : d * 2 ^ (k + 1) = 2 * (d * 2 ^ k) := by ring
    have hcarry := lt_roundDivEven_iff (n := n) hpos (2 ^ 53 - 1)
    rw [if_neg (by decide)] at hcarry
    omega
  · have hj := hscale (i := k + 2) h
    have hdouble : d * 2 ^ (k + 2) = 4 * (d * 2 ^ k) := by ring
    have hcarry : (k + 1) * 2 ^ 52 + 2 ^ 53 = (k + 2) * 2 ^ 52 + 2 ^ 52 := by ring
    have hbase := hge (by omega)
    refine iff_of_true ?_ (by omega)
    rw [hcarry]
    exact Nat.add_le_add (Nat.mul_le_mul_right _ h) (hlow (by omega))

end Ratio

/-! ## The value of a number -/

/-- The absolute value of a finite number in units. -/
def size (x : Binary64) : Nat := x.significand * 2 ^ (x.exponentField - 1)

/-- The value of a finite number in units. -/
def units (x : Binary64) : Int := if x.isNegative then -(x.size : Int) else x.size

/-- The position of a number in the total order, counted from positive zero. -/
def ordinal (x : Binary64) : Int :=
  if x.isNegative then -(x.magnitude.toNat : Int) - 1 else x.magnitude.toNat

/-- The position of a number if the two zeros share one. -/
def level (x : Binary64) : Int := if x.isNegative then -(x.magnitude.toNat : Int) else x.magnitude.toNat

/-- The position that is nearest to a value in units. -/
def nearestOrdinal (n : Int) : Int :=
  if n < 0 then -(min (nearest n.natAbs) infinity.magnitude.toNat : Nat) - 1
  else (min (nearest n.natAbs) infinity.magnitude.toNat : Nat)

section Value

variable {x y : Binary64}

lemma toNat_magnitude (x : Binary64) : x.magnitude.toNat = x.bits.toNat % 2 ^ 63 := UInt64.toNat_mod ..

lemma isNegative_iff : x.isNegative = true ↔ 2 ^ 63 ≤ x.bits.toNat := by
  rw [isNegative, decide_eq_true_eq, UInt64.le_iff_toNat_le]
  exact Iff.rfl

lemma isFinite_iff : x.isFinite = true ↔ x.magnitude.toNat < infinity.magnitude.toNat := by
  rw [isFinite, decide_eq_true_eq, UInt64.lt_iff_toNat_lt]
  exact Iff.rfl

lemma isNaN_iff : x.isNaN = true ↔ infinity.magnitude.toNat < x.magnitude.toNat := by
  rw [isNaN, decide_eq_true_eq, UInt64.lt_iff_toNat_lt]
  exact Iff.rfl

/-- A finite number is a number. -/
lemma isNaN_eq_false_of_isFinite (hx : x.isFinite = true) : x.isNaN = false := by
  rw [Bool.eq_false_iff, ne_eq, isNaN_iff]
  exact Nat.lt_asymm (isFinite_iff.1 hx)

lemma isPositiveFinite_iff : x.isPositiveFinite = true ↔
    x.isFinite = true ∧ x.isNegative = false ∧ 0 < x.magnitude.toNat := by
  have hinf : infinity.magnitude.toNat = 0x7ff0000000000000 := by decide
  have hlt : x.bits.toNat < 2 ^ 64 := x.bits.toNat_lt
  have hmagnitude := toNat_magnitude x
  rw [isPositiveFinite, Bool.and_eq_true, decide_eq_true_eq, decide_eq_true_eq, UInt64.lt_iff_toNat_lt,
    UInt64.lt_iff_toNat_lt, isFinite_iff, ← Bool.not_eq_true, isNegative_iff, hinf]
  change 0 < x.bits.toNat ∧ x.bits.toNat < 0x7ff0000000000000 ↔ _
  omega

lemma exponentField_eq (x : Binary64) : x.exponentField = x.magnitude.toNat / 2 ^ 52 :=
  Nat.shiftRight_eq_div_pow ..

lemma fractionField_eq (x : Binary64) : x.fractionField = x.magnitude.toNat % 2 ^ 52 := by
  rw [fractionField, Nat.one_shiftLeft]

/-- The implicit leading bit is set above the lowest places. -/
lemma significand_eq (x : Binary64) : x.significand =
    if x.exponentField = 0 then x.fractionField else x.fractionField + 2 ^ 52 := by
  rw [significand, Nat.one_shiftLeft]

/-- A significand has at most fifty-three bits. -/
lemma significand_lt (x : Binary64) : x.significand < 2 ^ 53 := by
  have hlt : x.magnitude.toNat % 2 ^ 52 < 2 ^ 52 := Nat.mod_lt _ (by decide)
  rw [← fractionField_eq] at hlt
  have hsignificand := significand_eq x
  split at hsignificand <;> omega

/-- Above the lowest places a significand has all fifty-three bits. -/
lemma le_significand (h : x.exponentField - 1 ≠ 0) : 2 ^ 52 ≤ x.significand := by
  rw [significand_eq, if_neg (by omega)]
  exact Nat.le_add_left ..

/-- The significand and its last place make up the magnitude. -/
lemma magnitude_eq (x : Binary64) : (x.exponentField - 1) * 2 ^ 52 + x.significand = x.magnitude.toNat := by
  have hsplit := Nat.div_add_mod x.magnitude.toNat (2 ^ 52)
  rw [← exponentField_eq, ← fractionField_eq] at hsplit
  have hsignificand := significand_eq x
  split at hsignificand <;> omega

/-- Finite numbers have a bounded size. -/
lemma size_lt (hx : x.isFinite = true) : x.size < 2 ^ 53 * 2 ^ 2045 := by
  have hinf : infinity.magnitude.toNat = 2047 * 2 ^ 52 := by decide
  have hfinite := isFinite_iff.1 hx
  have hfield := exponentField_eq x
  have hlast : x.exponentField - 1 ≤ 2045 := by omega
  have hmul : ∀ {i j : Nat}, i ≤ j → 2 ^ 53 * 2 ^ i ≤ 2 ^ 53 * 2 ^ j := fun h =>
    Nat.mul_le_mul_left _ (Nat.pow_le_pow_right Nat.two_pos h)
  exact (Nat.mul_lt_mul_of_pos_right (significand_lt x) (Nat.pow_pos Nat.two_pos)).trans_le (hmul hlast)

/-- **Numbers are rounded to themselves.** -/
theorem nearest_size (x : Binary64) : nearest x.size = x.magnitude.toNat := by
  rw [size, nearest_of_significand le_significand (significand_lt x), magnitude_eq]

/-- The size of a number depends on its magnitude alone. -/
lemma size_congr (h : x.magnitude = y.magnitude) : x.size = y.size := by
  unfold size significand fractionField exponentField
  rw [h]

/-- Sizes are ordered like magnitudes. -/
lemma size_le_size (h : x.magnitude.toNat ≤ y.magnitude.toNat) : x.size ≤ y.size := by
  by_contra hlt
  have hle := nearest_mono (Nat.le_of_lt (Nat.lt_of_not_le hlt))
  rw [nearest_size, nearest_size] at hle
  exact hlt (size_congr (UInt64.toNat_inj.1 (Nat.le_antisymm h hle))).le

/-- A larger magnitude is a larger size. -/
lemma size_lt_size (h : x.magnitude.toNat < y.magnitude.toNat) : x.size < y.size := by
  by_contra hle
  have hmono := nearest_mono (Nat.not_lt.1 hle)
  rw [nearest_size, nearest_size] at hmono
  exact Nat.not_lt.2 hmono h

/-- **Values are ordered like positions.** -/
theorem units_le_units (h : x.ordinal ≤ y.ordinal) : x.units ≤ y.units := by
  unfold ordinal at h
  unfold units
  split at h <;> split at h <;> rename_i hx hy
  · have hle := size_le_size (x := y) (y := x) (by omega)
    rw [if_pos hx, if_pos hy]
    omega
  · rw [if_pos hx, if_neg hy]
    omega
  · omega
  · have hle := size_le_size (x := x) (y := y) (by omega)
    rw [if_neg hx, if_neg hy]
    omega

/-- A number that is numerically smaller has a smaller value. -/
lemma units_lt_units (h : x.level < y.level) : x.units < y.units := by
  unfold level at h
  unfold units
  split at h <;> split at h <;> rename_i hx hy
  · have hlt := size_lt_size (x := y) (y := x) (by omega)
    rw [if_pos hx, if_pos hy]
    omega
  · rw [if_pos hx, if_neg hy]
    rcases Nat.eq_zero_or_pos y.magnitude.toNat with hzero | hpos
    · have hlt := size_lt_size (x := y) (y := x) (by omega)
      omega
    · have hlt := size_lt_size (x := zero) (y := y) hpos
      omega
  · omega
  · have hlt := size_lt_size (x := x) (y := y) (by omega)
    rw [if_neg hx, if_neg hy]
    omega

/-- A number without significand has no value. -/
lemma units_eq_zero (hx : x.significand = 0) : x.units = 0 := by
  unfold units size
  rw [hx, Nat.zero_mul]
  split <;> rfl

/-- A number with a significand has a value. -/
lemma units_ne_zero (hx : x.significand ≠ 0) : x.units ≠ 0 := by
  have hsize : x.size ≠ 0 := Nat.mul_ne_zero hx (Nat.pow_pos (by decide)).ne'
  unfold units
  split <;> omega

/-- What is neither finite nor a NaN is one of the infinities. -/
lemma eq_of_isInfinite (hx : x.isFinite = false) (hnan : x.isNaN = false) : x = infinity ∨ x = negInfinity := by
  have hinf : infinity.magnitude.toNat = 2047 * 2 ^ 52 := by decide
  have hbits := toNat_magnitude x
  have hlt : x.bits.toNat < 2 ^ 64 := x.bits.toNat_lt
  have hlow := mt isFinite_iff.2 (Bool.eq_false_iff.1 hx)
  have hhigh := mt isNaN_iff.2 (Bool.eq_false_iff.1 hnan)
  have hcases : x.bits.toNat = 2047 * 2 ^ 52 ∨ x.bits.toNat = 2 ^ 63 + 2047 * 2 ^ 52 := by omega
  obtain ⟨bits⟩ := x
  rcases hcases with h | h
  · exact Or.inl (congrArg Binary64.mk (UInt64.toNat_inj.1 h))
  · exact Or.inr (congrArg Binary64.mk (UInt64.toNat_inj.1 h))

/-- The finite numbers lie between the infinities. -/
lemma isFinite_iff_ordinal : x.isFinite = true ↔
    -(infinity.magnitude.toNat : Int) - 1 < x.ordinal ∧ x.ordinal < infinity.magnitude.toNat := by
  rw [isFinite_iff, ordinal]
  split <;> omega

/-- The ranks of the total order are the positions, counted from below. -/
lemma rank_eq_ordinal (x : Binary64) : (x.rank.toNat : Int) = x.ordinal + 2 ^ 63 := by
  have hlt : x.bits.toNat < 2 ^ 64 := x.bits.toNat_lt
  rw [rank_toNat, ordinal, toNat_magnitude]
  rcases Nat.lt_or_ge x.bits.toNat (2 ^ 63) with h | h
  · have hneg : ¬ x.isNegative = true := fun hneg => absurd (isNegative_iff.1 hneg) (by omega)
    rw [if_pos (show x.bits.toNat < 0x8000000000000000 from h), if_neg hneg]
    omega
  · rw [if_neg (show ¬ x.bits.toNat < 0x8000000000000000 from Nat.not_lt.2 h),
      if_pos (isNegative_iff.2 h)]
    omega

/-- The total order is that of the positions. -/
lemma rank_le_iff : x.rank ≤ y.rank ↔ x.ordinal ≤ y.ordinal := by
  have hx := rank_eq_ordinal x
  have hy := rank_eq_ordinal y
  rw [UInt64.le_iff_toNat_le]
  omega

/-- Numbers at the same position are equal. -/
lemma ordinal_inj (h : x.ordinal = y.ordinal) : x = y := by
  have hx := rank_eq_ordinal x
  have hy := rank_eq_ordinal y
  exact rank_inj (UInt64.toNat_inj.1 (by omega))

/-- The numbers that are not negative are those from positive zero on. -/
lemma isNegative_iff_ordinal : x.isNegative = true ↔ x.ordinal < 0 := by
  rw [ordinal]
  split <;> rename_i h
  · exact iff_of_true h (by omega)
  · exact iff_of_false h (by omega)

/-- The positive finite numbers are those between zero and infinity. -/
lemma isPositiveFinite_iff_ordinal : x.isPositiveFinite = true ↔ x.isFinite = true ∧ 0 < x.ordinal := by
  rw [isPositiveFinite_iff, ordinal]
  refine and_congr_right fun _ => ?_
  cases x.isNegative <;> simp

/-- A comparison in the usual sense is one of positions, where the two zeros have the same. -/
lemma numericLt_iff : x.numericLt y = true ↔ x.isNaN = false ∧ y.isNaN = false ∧ x.level < y.level := by
  have hzero : ∀ z : Binary64, z.isZero = true ↔ z.magnitude.toNat = 0 := fun z => by
    rw [isZero, beq_iff_eq, ← UInt64.toNat_inj]
    rfl
  have hrank : x.rank < y.rank ↔ x.ordinal < y.ordinal := by
    rw [← not_iff_not, UInt64.not_lt, rank_le_iff, not_lt]
  rw [numericLt]
  simp only [Bool.and_eq_true, Bool.not_eq_true', decide_eq_true_eq, hrank, ← Bool.not_eq_true, hzero, and_assoc]
  refine and_congr_right fun _ => and_congr_right fun _ => ?_
  unfold ordinal level
  split <;> split <;> omega

/-- The finite numbers lie between the infinities in the usual order, too. -/
lemma isFinite_iff_level : x.isFinite = true ↔ negInfinity.level < x.level ∧ x.level < infinity.level := by
  have hinf : infinity.level = infinity.magnitude.toNat := rfl
  have hneg : negInfinity.level = -(infinity.magnitude.toNat : Int) := rfl
  rw [isFinite_iff, hinf, hneg, level]
  split <;> omega

/-- What is numerically smaller comes before in the total order. -/
lemma ordinal_lt_of_level_lt (h : x.level < y.level) : x.ordinal < y.ordinal := by
  unfold level at h
  unfold ordinal
  split at h <;> split at h <;> split <;> omega

/-- The two zeros are the numbers that are in order and not numerically so. -/
lemma numericLt_eq_false_iff (hx : x.isFinite = true) (hy : y.isFinite = true) (hlt : x.ordinal < y.ordinal) :
    x.numericLt y = false ↔ x = -zero ∧ y = zero := by
  constructor
  · intro h
    have hlevel : ¬ x.level < y.level := fun hlevel => Bool.false_ne_true (h.symm.trans
      (numericLt_iff.2 ⟨isNaN_eq_false_of_isFinite hx, isNaN_eq_false_of_isFinite hy, hlevel⟩))
    have hnegZero : (-zero).ordinal = -1 := rfl
    have hzero : zero.ordinal = 0 := rfl
    have hordinal : ∀ z : Binary64, z.ordinal = if z.isNegative then -(z.magnitude.toNat : Int) - 1
      else z.magnitude.toNat := fun _ => rfl
    have hx := hordinal x
    have hy := hordinal y
    unfold level at hlevel
    constructor <;> apply ordinal_inj <;> split_ifs at * <;> omega
  · rintro ⟨rfl, rfl⟩
    rfl

/-- From zero on, the two positions are the same. -/
lemma level_eq_of_nonneg (h : 0 ≤ x.ordinal) : x.level = x.ordinal := by
  have hneg : ¬ x.isNegative = true := mt isNegative_iff_ordinal.1 (not_lt.2 h)
  rw [level, ordinal, if_neg hneg, if_neg hneg]

/-- The numbers above zero are those from the first position on. -/
lemma zero_numericLt_iff : zero.numericLt x = true ↔ x.isNaN = false ∧ 0 < x.ordinal := by
  rw [numericLt_iff, and_iff_right (show zero.isNaN = false from rfl), show zero.level = 0 from rfl, level, ordinal]
  refine and_congr_right fun _ => ?_
  split <;> omega

lemma isPositiveFinite_iff_numericLt : x.isPositiveFinite = true ↔ x.isFinite = true ∧ zero.numericLt x = true := by
  rw [isPositiveFinite_iff_ordinal, zero_numericLt_iff]
  exact and_congr_right fun hfinite => (and_iff_right (isNaN_eq_false_of_isFinite hfinite)).symm

/-- **Rounding to a position is monotone.** -/
theorem nearestOrdinal_mono {n n' : Int} (h : n ≤ n') : nearestOrdinal n ≤ nearestOrdinal n' := by
  unfold nearestOrdinal
  split <;> split
  · have hle : nearest n'.natAbs ≤ nearest n.natAbs := nearest_mono (by omega)
    omega
  · omega
  · omega
  · have hle : nearest n.natAbs ≤ nearest n'.natAbs := nearest_mono (by omega)
    omega

/-- A finite number other than negative zero has the position that is nearest to its value. -/
lemma nearestOrdinal_units (hx : x.isFinite = true) (h : x.isNegative = true → x.units ≠ 0) :
    nearestOrdinal x.units = x.ordinal := by
  have hfinite := isFinite_iff.1 hx
  have habs : x.units.natAbs = x.size := by
    unfold units
    split <;> omega
  rw [nearestOrdinal, ordinal, habs, nearest_size, Nat.min_eq_left (Nat.le_of_lt hfinite)]
  by_cases hneg : x.isNegative = true
  · have hlt : x.units < 0 := by
      have hne := h hneg
      unfold units at hne ⊢
      rw [if_pos hneg] at hne ⊢
      omega
    rw [if_pos hlt, if_pos hneg]
  · have hge : ¬ x.units < 0 := by
      unfold units
      rw [if_neg hneg]
      omega
    rw [if_neg hge, if_neg hneg]

end Value

end EventSim.Binary64
