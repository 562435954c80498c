import EventSim.Proofs.Rounding

set_option autoImplicit false

/-!
# Rounded products and quotients

A product is computed exactly and rounded once. A quotient is a division of integers: the first significand is widened
so far that the result has all the bits that it needs, and the remainder tells how it is to be rounded. Either way the
result is the number nearest to the product or to the ratio of the values. It is infinite or zero where that ratio is
too far from one.

## Main results

* `EventSim.Binary64.ordinal_mul` — a product is the number nearest to the product of the values.
* `EventSim.Binary64.ordinal_div` — a quotient is the number nearest to the ratio of the values.
* `EventSim.Binary64.isFinite_div_iff`, `EventSim.Binary64.ordinal_div_pos_iff` — when a quotient is finite, and when it
  is not lost in the rounding.
-/

namespace EventSim.Binary64

open Float.Model Float.Model.UnpackedFloat

variable {x y : Binary64}

/-- A positive finite number has a positive size. -/
lemma size_pos (hx : x.isPositiveFinite = true) : 0 < x.size :=
  Nat.mul_pos (significand_pos hx) (Nat.pow_pos (by decide))

/-- A positive result is known by its bits. -/
lemma isNaN_ordinal_of_toNat_pack {u : UnpackedFloat} {p : Nat} (hp : p ≤ infinity.magnitude.toNat)
    (h : (UnpackedFloat.pack Format.binary64 u).toNat = Sign.positive.toBitVec.toNat * 2 ^ 63 + p) :
    (if (ofUnpacked u).isNaN then invalid else ofUnpacked u).isNaN = false ∧
      (if (ofUnpacked u).isNaN then invalid else ofUnpacked u).ordinal = (p : Int) := by
  obtain ⟨hnan, hordinal⟩ := ordinal_ofUnpacked hp h
  rw [hnan, if_neg Bool.false_ne_true]
  exact ⟨hnan, hordinal⟩

/-! ## Products -/

/-- The product of finite numbers is computed on their parts. -/
lemma mul_eq (hx : x.isFinite = true) (hy : y.isFinite = true) :
    x * y = if (ofUnpacked (UnpackedFloat.mul Format.binary64 x.unpacked y.unpacked)).isNaN then invalid
      else ofUnpacked (UnpackedFloat.mul Format.binary64 x.unpacked y.unpacked) :=
  lift₂_eq (fun _ _ => rfl) hx hy

/-- **The product of two positive numbers is the number nearest to the product of their values.** -/
theorem ordinal_mul (hx : x.isPositiveFinite = true) (hy : y.isPositiveFinite = true) :
    (x * y).isNaN = false ∧
      (x * y).ordinal = (min (nearestRatio (x.size * y.size) (2 ^ 1074)) infinity.magnitude.toNat : Nat) := by
  have hparts : UnpackedFloat.mul Format.binary64 x.unpacked y.unpacked =
      roundWithAccuracy Format.binary64 .positive (x.significand * y.significand)
        (((x.exponentField - 1 + (y.exponentField - 1) : Nat) : Int) - (1074 : Nat) - 1074) .exact := by
    rw [unpacked_of_isPositiveFinite hx, unpacked_of_isPositiveFinite hy, UnpackedFloat.mul]
    congr 1
    omega
  -- only numbers in the lowest place are short, and then the product is not shifted up
  have hlong : x.exponentField - 1 + (y.exponentField - 1) ≠ 0 → 52 ≤ (x.significand * y.significand).log2 := by
    intro hne
    refine (Nat.le_log2 (Nat.mul_pos (significand_pos hx) (significand_pos hy)).ne').2 ?_
    rcases (by omega : x.exponentField - 1 ≠ 0 ∨ y.exponentField - 1 ≠ 0) with h | h
    · exact (le_significand h).trans (Nat.le_mul_of_pos_right _ (significand_pos hy))
    · exact (le_significand h).trans (Nat.le_mul_of_pos_left _ (significand_pos hx))
  have hsize : x.size * y.size = x.significand * y.significand * 2 ^ (x.exponentField - 1 + (y.exponentField - 1)) := by
    rw [size, size, Nat.pow_add]
    ac_rfl
  have hbits := toNat_pack_roundWithAccuracy .positive Nat.one_pos
    (HoldsQuotient.exact (x.significand * y.significand)) (x.exponentField - 1 + (y.exponentField - 1)) 1074 (by omega)
  rw [Nat.one_mul, ← hsize, ← hparts] at hbits
  rw [mul_eq (isPositiveFinite_iff.1 hx).1 (isPositiveFinite_iff.1 hy).1]
  exact isNaN_ordinal_of_toNat_pack (Nat.min_le_right ..) hbits

/-- Nothing times a positive number is nothing. -/
lemma zero_mul (hx : x.isPositiveFinite = true) : zero * x = zero := by
  have hzero : zero.isFinite = true := rfl
  rw [mul_eq hzero (isPositiveFinite_iff.1 hx).1, unpacked_of_isPositiveFinite hx]
  rfl

/-! ## Quotients -/

/-- The quotient of finite numbers is computed on their parts. -/
lemma div_eq (hx : x.isFinite = true) (hy : y.isFinite = true) :
    x / y = if (ofUnpacked (UnpackedFloat.div Format.binary64 x.unpacked y.unpacked)).isNaN then invalid
      else ofUnpacked (UnpackedFloat.div Format.binary64 x.unpacked y.unpacked) :=
  lift₂_eq (fun _ _ => rfl) hx hy

/-- The significand of the quotient is long enough for its last place. -/
lemma le_log2_quotient {f g e : Nat} (hf : 0 < f) (hg : 0 < g) (he : g.log2 + 53 = f.log2 + e) :
    52 ≤ (f * 2 ^ e / g).log2 := by
  have hle : 2 ^ 52 * g ≤ f * 2 ^ e := by
    calc 2 ^ 52 * g ≤ 2 ^ 52 * 2 ^ (g.log2 + 1) := Nat.mul_le_mul_left _ Nat.lt_log2_self.le
      _ = 2 ^ f.log2 * 2 ^ e := by rw [← Nat.pow_add, ← Nat.pow_add, ← he]; congr 1; omega
      _ ≤ f * 2 ^ e := Nat.mul_le_mul_right _ (Nat.log2_self_le hf.ne')
  have hdiv := (Nat.le_div_iff_mul_le hg).2 hle
  have hpow : 0 < 2 ^ 52 := by decide
  exact (Nat.le_log2 (by omega)).2 hdiv

/-- What the division of two significands comes to: a quotient with its accuracy, at some place, which stands for the
ratio of the two values and is not shorter than it needs to be. -/
lemma exists_divCore_eq {f g k l : Nat} (hf : 0 < f) (hg : 0 < g) (hup : f < 2 ^ 53) :
    ∃ (m n a c : Nat) (acc : Accuracy),
      divCore Format.binary64 f ((k : Int) - 1074) g ((l : Int) - 1074) = (m, (a : Int) - c - 1074, acc) ∧
      HoldsQuotient (ExtendedMantissa.ofMantissaAndAccuracy m acc) n g ∧ a ≤ m.log2 + a - (c + 52) + c ∧
      n * 2 ^ a * (g * 2 ^ l) = f * 2 ^ k * 2 ^ 1074 * (g * 2 ^ c) := by
  have hlog : f.log2 < 53 := (Nat.log2_lt hf.ne').2 hup
  have hmin : Format.binary64.minExponent = -1074 := by decide
  have hbits : (Format.binary64.mantissaBits : Int) = 53 := by decide
  have htarget : Format.binary64.targetExponent
      (totalExponent f ((k : Int) - 1074) - totalExponent g ((l : Int) - 1074)) =
        max ((f.log2 : Int) + k - g.log2 - l - 53) (-1074) := by
    rw [Format.targetExponent, totalExponent, totalExponent, hmin, hbits]
    congr 1
    omega
  have hexponent : (k : Int) - 1074 - ((l : Int) - 1074) = (k : Int) - l := by omega
  rw [divCore, htarget, hexponent]
  generalize ht : min ((k : Int) - l) (max ((f.log2 : Int) + k - g.log2 - l - 53) (-1074)) = t
  refine ⟨_, f <<< ((k : Int) - l - t).toNat, (t + 1074).toNat, (-(t + 1074)).toNat, _, ?_,
    HoldsQuotient.ofFraction hg _, ?_, ?_⟩
  · congr 1
    congr 1
    omega
  · rcases le_or_gt (t + 1074) 0 with h | h
    · rw [Int.toNat_of_nonpos h]
      exact Nat.zero_le _
    · have hlong := le_log2_quotient (e := ((k : Int) - l - t).toNat) hf hg (by omega)
      rw [Nat.shiftLeft_eq]
      omega
  · have hpow : 2 ^ ((k : Int) - l - t).toNat * 2 ^ (t + 1074).toNat * 2 ^ l =
        2 ^ k * 2 ^ 1074 * 2 ^ (-(t + 1074)).toNat := by
      rw [← Nat.pow_add, ← Nat.pow_add, ← Nat.pow_add, ← Nat.pow_add]
      congr 1
      omega
    rw [Nat.shiftLeft_eq]
    generalize 2 ^ 1074 = one at hpow ⊢
    calc f * 2 ^ ((k : Int) - l - t).toNat * 2 ^ (t + 1074).toNat * (g * 2 ^ l)
        = f * g * (2 ^ ((k : Int) - l - t).toNat * 2 ^ (t + 1074).toNat * 2 ^ l) := by ac_rfl
      _ = f * 2 ^ k * one * (g * 2 ^ (-(t + 1074)).toNat) := by rw [hpow]; ac_rfl

/-- **The quotient of two positive numbers is the number nearest to the ratio of their values.** -/
theorem ordinal_div (hx : x.isPositiveFinite = true) (hy : y.isPositiveFinite = true) :
    (x / y).isNaN = false ∧
      (x / y).ordinal = (min (nearestRatio (x.size * 2 ^ 1074) y.size) infinity.magnitude.toNat : Nat) := by
  have hg := significand_pos hy
  obtain ⟨m, n, a, c, acc, hcore, hquotient, ha, hratio⟩ :=
    exists_divCore_eq (k := x.exponentField - 1) (l := y.exponentField - 1) (significand_pos hx) hg
      (significand_lt x)
  have hbits := toNat_pack_roundWithAccuracy .positive hg hquotient a c ha
  rw [nearestRatio_congr (Nat.mul_pos hg (Nat.pow_pos (by decide))) (size_pos hy) hratio] at hbits
  have hparts : UnpackedFloat.div Format.binary64 x.unpacked y.unpacked =
      roundWithAccuracy Format.binary64 .positive m ((a : Int) - c - 1074) acc := by
    rw [unpacked_of_isPositiveFinite hx, unpacked_of_isPositiveFinite hy, UnpackedFloat.div]
    dsimp only
    rw [hcore]
    rfl
  rw [div_eq (isPositiveFinite_iff.1 hx).1 (isPositiveFinite_iff.1 hy).1, hparts]
  exact isNaN_ordinal_of_toNat_pack (Nat.min_le_right ..) hbits

/-! ### The range of quotients -/

/-- The position of infinity, as the one after the last place. -/
lemma magnitude_infinity : infinity.magnitude.toNat = (970 + 1074 + 1) * 2 ^ 52 + 2 ^ 53 := by decide

/-- A ratio of values is rounded to the first number of a place or beyond it, if it is at least in the middle between
that number and the last one of the place below. -/
lemma le_nearestRatio_mul_iff {n d : Nat} (hd : 0 < d) (k e : Nat) :
    (k + e + 1) * 2 ^ 52 + 2 ^ 53 ≤ nearestRatio (n * 2 ^ e) d ↔ (2 ^ 54 - 1) * 2 ^ k * d ≤ n := by
  rw [le_nearestRatio_iff hd, Nat.pow_add, ← Nat.mul_assoc, Nat.mul_right_comm,
    Nat.mul_le_mul_right_iff (Nat.pow_pos (by decide))]

/-- **A quotient is finite** just if it is below the middle between the largest number and the next power of two. -/
theorem isFinite_div_iff (hx : x.isPositiveFinite = true) (hy : y.isPositiveFinite = true) :
    (x / y).isFinite = true ↔ x.size < (2 ^ 54 - 1) * 2 ^ 970 * y.size := by
  have hle := le_nearestRatio_mul_iff (n := x.size) (size_pos hy) 970 1074
  rw [← magnitude_infinity, ← not_iff_not, Nat.not_le, Nat.not_le] at hle
  rw [isFinite_iff_ordinal, (ordinal_div hx hy).2, ← hle]
  omega

/-- **A quotient is positive** just if it is more than half a unit. -/
theorem ordinal_div_pos_iff (hx : x.isPositiveFinite = true) (hy : y.isPositiveFinite = true) :
    0 < (x / y).ordinal ↔ y.size < x.size * 2 ^ 1075 := by
  have hinf : 0 < infinity.magnitude.toNat := by decide
  have hdouble : ∀ e, x.size * 2 ^ (e + 1) = 2 * (x.size * 2 ^ e) := fun e => by ring
  rw [(ordinal_div hx hy).2, hdouble 1074, ← nearestRatio_pos_iff (size_pos hy)]
  omega

end EventSim.Binary64
