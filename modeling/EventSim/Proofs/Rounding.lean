import EventSim.Proofs.NearestNumber
import Mathlib

set_option autoImplicit false

/-!
# Rounding

Arithmetic is done on the parts of numbers: sign, significand and last place. A result has a significand of any length,
and two further bits that tell how what is missing from it compares with zero and with a half of its last place. It is
shifted to the place it needs, rounded there once, and packed. So what comes out is the number nearest to the exact
result, be that a whole number of units or a fraction.

## Main definitions

* `EventSim.Binary64.unpacked`, `EventSim.Binary64.ofUnpacked` — the parts of a number, and the number with
  given parts.
* `EventSim.Binary64.HoldsQuotient`, `EventSim.Binary64.Holds` — a significand that remembers what it has lost, of a
  division or in a shift.

## Main results

* `EventSim.Binary64.HoldsQuotient.roundedMantissa` — it remembers enough to be rounded.
* `EventSim.Binary64.toNat_pack_roundWithAccuracy`, `EventSim.Binary64.toNat_pack_round` — rounding gives the nearest
  number.
* `EventSim.Binary64.ofUnpacked_unpacked` — a finite number is made up of its parts.
* `EventSim.Binary64.lift₂_eq` — an operation on finite numbers is computed on their parts.
-/

namespace EventSim.Binary64

open Float.Model Float.Model.UnpackedFloat

/-! ## Shifted significands -/

/-- An extended mantissa holds the quotient of `n` by `d`, and its two further bits tell how the remainder compares
with zero and with a half. -/
structure HoldsQuotient (em : ExtendedMantissa) (n d : Nat) : Prop where
  mantissa : em.mantissa = n / d
  roundBit : em.roundBit = true ↔ d ≤ 2 * (n % d)
  stickyBit : em.stickyBit = true ↔ 2 * (n % d) % d ≠ 0

namespace HoldsQuotient

variable {em : ExtendedMantissa} {n d : Nat}

/-- An exact significand has lost nothing. -/
lemma exact (n : Nat) : HoldsQuotient (ExtendedMantissa.ofMantissaAndAccuracy n .exact) n 1 where
  mantissa := by simp [ExtendedMantissa.ofMantissaAndAccuracy]
  roundBit := by simp [ExtendedMantissa.ofMantissaAndAccuracy, Nat.mod_one]
  stickyBit := by simp [ExtendedMantissa.ofMantissaAndAccuracy, Nat.mod_one]

/-- Twice a remainder either stays a remainder or loses the divisor once. -/
lemma two_mul_mod_mod (hd : 0 < d) (n : Nat) :
    2 * (n % d) % d = if d ≤ 2 * (n % d) then 2 * (n % d) - d else 2 * (n % d) := by
  have hlt : n % d < d := Nat.mod_lt _ hd
  split
  · rename_i h
    rw [Nat.mod_eq_sub_mod h, Nat.mod_eq_of_lt (by omega)]
  · exact Nat.mod_eq_of_lt (by omega)

/-- A quotient with the accuracy of its remainder has lost the remainder. -/
lemma ofFraction (hd : 0 < d) (n : Nat) :
    HoldsQuotient (ExtendedMantissa.ofMantissaAndAccuracy (n / d) (accuracyOfFraction (n % d) d)) n d := by
  have hrest := two_mul_mod_mod hd n
  have hlt : n % d < d := Nat.mod_lt _ hd
  unfold accuracyOfFraction
  by_cases hzero : n % d = 0
  · rw [if_pos hzero]
    exact ⟨rfl, by simp [ExtendedMantissa.ofMantissaAndAccuracy, hzero]; omega,
      by simp [ExtendedMantissa.ofMantissaAndAccuracy, hzero]⟩
  rw [if_neg hzero]
  rcases lt_trichotomy (2 * (n % d)) d with h | h | h
  · rw [compare_lt_iff_lt.2 h]
    exact ⟨rfl, by simp [ExtendedMantissa.ofMantissaAndAccuracy, h],
      by rw [hrest, if_neg (by omega)]; simp [ExtendedMantissa.ofMantissaAndAccuracy, hzero]⟩
  · rw [compare_eq_iff_eq.2 h]
    exact ⟨rfl, by simp [ExtendedMantissa.ofMantissaAndAccuracy, h], by simp [ExtendedMantissa.ofMantissaAndAccuracy, h]⟩
  · rw [compare_gt_iff_gt.2 h]
    exact ⟨rfl, by simp [ExtendedMantissa.ofMantissaAndAccuracy, h.le],
      by rw [hrest, if_pos h.le]; simp [ExtendedMantissa.ofMantissaAndAccuracy]; omega⟩

/-- One more bit is lost: it becomes the round bit, and the former round bit joins the sticky one. -/
lemma shiftRightOne (hd : 0 < d) (h : HoldsQuotient em n d) : HoldsQuotient em.shiftRightOne n (d * 2) := by
  have hlt : n % d < d := Nat.mod_lt _ hd
  have hsplit : n % (d * 2) = n % d + d * (n / d % 2) := Nat.mod_mul
  constructor
  · rw [ExtendedMantissa.shiftRightOne, h.mantissa, Nat.div_div_eq_div_mul]
  · rw [ExtendedMantissa.shiftRightOne, h.mantissa, hsplit]
    rcases Nat.mod_two_eq_zero_or_one (n / d) with h2 | h2 <;> simp [h2] <;> omega
  · have hrest : 2 * (n % (d * 2)) % (d * 2) = 2 * (n % d) := by
      rw [hsplit, Nat.mul_add, ← Nat.mul_assoc, Nat.mul_comm 2 d, Nat.add_mul_mod_self_left,
        Nat.mod_eq_of_lt (by omega)]
    rw [ExtendedMantissa.shiftRightOne, Bool.or_eq_true, h.roundBit, h.stickyBit, hrest, two_mul_mod_mod hd]
    split <;> omega

/-- A shifted quotient remembers enough to be rounded. -/
lemma shiftRight (hd : 0 < d) (h : HoldsQuotient em n d) (k : Nat) : HoldsQuotient (em >>> k) n (d * 2 ^ k) := by
  induction k with
  | zero => rwa [Nat.pow_zero, Nat.mul_one]
  | succ k ih =>
    rw [Nat.pow_succ, ← Nat.mul_assoc]
    exact ih.shiftRightOne (Nat.mul_pos hd (Nat.pow_pos (by decide)))

/-- **A shifted quotient is rounded as the quotient is**: the two bits tell the four cases apart. -/
theorem roundedMantissa (hd : 0 < d) (h : HoldsQuotient em n d) : em.roundedMantissa = roundDivEven n d := by
  obtain ⟨hmantissa, hround, hsticky⟩ := h
  obtain ⟨q, round, sticky⟩ := em
  have hlt : n % d < d := Nat.mod_lt _ hd
  rw [two_mul_mod_mod hd] at hsticky
  dsimp only at hmantissa hround hsticky
  subst hmantissa
  unfold roundDivEven
  dsimp only
  cases round <;> cases sticky <;>
    simp only [Bool.false_eq_true, false_iff, true_iff, not_le, ne_eq, not_not] at hround hsticky
  · rw [if_pos hround]
    rfl
  · rw [if_pos hround]
    rfl
  · have heq : 2 * (n % d) = d := by
      rw [if_pos hround] at hsticky
      omega
    rw [if_neg (by omega), if_neg (by omega)]
    change n / d + n / d % 2 = _
    split <;> omega
  · have hgt : d < 2 * (n % d) := by
      rw [if_pos hround] at hsticky
      omega
    rw [if_neg (by omega), if_pos hgt]
    rfl

end HoldsQuotient

/-- An extended mantissa holds the quotient of `n` by `2 ^ k`, and its two further bits tell how the remainder
compares with zero and with a half. -/
structure Holds (em : ExtendedMantissa) (n k : Nat) : Prop where
  mantissa : em.mantissa = n / 2 ^ k
  roundBit : em.roundBit = true ↔ 2 ^ k ≤ 2 * (n % 2 ^ k)
  stickyBit : em.stickyBit = true ↔ 2 * (n % 2 ^ k) % 2 ^ k ≠ 0

/-- A shifted significand remembers enough to be rounded. -/
lemma Holds.shiftRight (n k : Nat) : Holds (ExtendedMantissa.ofMantissaAndAccuracy n .exact >>> k) n k := by
  obtain ⟨hmantissa, hround, hsticky⟩ := (HoldsQuotient.exact n).shiftRight Nat.one_pos k
  rw [Nat.one_mul] at hmantissa hround hsticky
  exact ⟨hmantissa, hround, hsticky⟩

/-! ## Packing -/

/-- The bits of a number, part by part. -/
lemma toNat_packComponents (s : Sign) (e : BitVec 11) (m : BitVec 52) :
    (packComponents Format.binary64 s e m).toNat =
      s.toBitVec.toNat * 2 ^ 63 + (e.toNat * 2 ^ 52 + m.toNat) := by
  have happend : (packComponents Format.binary64 s e m).toNat =
      (s.toBitVec.toNat <<< 11 ||| e.toNat) <<< 52 ||| m.toNat := by
    rw [packComponents, BitVec.toNat_append, BitVec.toNat_append]
  rw [happend, ← Nat.shiftLeft_add_eq_or_of_lt m.isLt, ← Nat.shiftLeft_add_eq_or_of_lt e.isLt,
    Nat.shiftLeft_eq, Nat.shiftLeft_eq]
  ring

/-- The bits of a number whose significand `f` has the last place `k`. What does not fit is infinite. -/
lemma toNat_pack_finite (s : Sign) {f k : Nat} (hf : 0 < f) (hup : f < 2 ^ 53) (hlow : k ≠ 0 → 2 ^ 52 ≤ f) :
    (UnpackedFloat.pack Format.binary64 (.finite s f ((k : Int) - 1074) hf)).toNat =
      s.toBitVec.toNat * 2 ^ 63 + min (k * 2 ^ 52 + f) infinity.magnitude.toNat := by
  have hinf : infinity.magnitude.toNat = 2047 * 2 ^ 52 := by decide
  have hbits : Format.binary64.mantissaBits = 53 := by decide
  have hbiased : ((k : Int) - 1074 + (Format.binary64.exponentBias : Int) + 52).toNat = k + 1 := by
    have hbias : (Format.binary64.exponentBias : Int) = 1023 := by decide
    omega
  have hlog : f.log2 + 1 = 53 ↔ 2 ^ 52 ≤ f := by
    have hlt := Nat.log2_lt (n := f) (k := 53) hf.ne'
    have hle := Nat.le_log2 (n := f) (k := 52) hf.ne'
    omega
  rw [UnpackedFloat.pack, hinf]
  dsimp only
  rw [show ((52 : ℕ) : Int) = 52 from rfl, hbiased, hbits]
  split
  · have := hlow (by omega)
    rw [packedInfinity, Nat.min_eq_right (by omega)]
    exact toNat_packComponents ..
  rw [Nat.min_eq_left (by omega)]
  split
  · rename_i hnormal
    rw [hlog] at hnormal
    refine (toNat_packComponents ..).trans ?_
    rw [BitVec.toNat_ofNat, BitVec.toNat_ofNat]
    omega
  · rename_i hsubnormal
    rw [hlog] at hsubnormal
    obtain rfl : k = 0 := by
      by_contra hne
      exact hsubnormal (hlow hne)
    refine (toNat_packComponents ..).trans ?_
    rw [BitVec.toNat_ofNat]
    simp
    omega

/-! ## Rounding -/

/-- A factor that is a power of two raises the logarithm. -/
lemma log2_mul_two_pow {m : Nat} (hm : m ≠ 0) (k : Nat) : (m * 2 ^ k).log2 = m.log2 + k := by
  have hpos : 0 < 2 ^ k := Nat.pow_pos (by decide)
  rw [Nat.log2_eq_iff (Nat.mul_ne_zero hm hpos.ne'), Nat.add_right_comm, Nat.pow_add, Nat.pow_add]
  exact ⟨Nat.mul_le_mul_right _ (Nat.log2_self_le hm), Nat.mul_lt_mul_of_pos_right Nat.lt_log2_self hpos⟩

/-- The logarithm of a quotient by a power of two. -/
lemma log2_div_two_pow (m e : Nat) : (m / 2 ^ e).log2 = m.log2 - e := by
  rw [Nat.log2_eq_log_two, Nat.log2_eq_log_two, Nat.log_div_base_pow]

/-- A factor that is a power of two raises the logarithm of a quotient. -/
lemma log2_mul_two_pow_div {n d : Nat} (hd : 0 < d) (hq : n / d ≠ 0) (e : Nat) :
    (n * 2 ^ e / d).log2 = (n / d).log2 + e := by
  have hpos : 0 < 2 ^ e := Nat.pow_pos (by decide)
  have hlow : n / d * 2 ^ e ≤ n * 2 ^ e / d := by
    rw [Nat.le_div_iff_mul_le hd, Nat.mul_right_comm]
    exact Nat.mul_le_mul_right _ (Nat.div_mul_le_self n d)
  have hup : n * 2 ^ e / d < (n / d + 1) * 2 ^ e := by
    rw [Nat.div_lt_iff_lt_mul hd, Nat.mul_right_comm]
    exact Nat.mul_lt_mul_of_pos_right (Nat.lt_mul_of_div_lt (Nat.lt_succ_self _) hd) hpos
  rw [Nat.log2_eq_iff (by have := Nat.mul_pos (Nat.pos_of_ne_zero hq) hpos; omega), Nat.add_right_comm, Nat.pow_add,
    Nat.pow_add]
  exact ⟨le_trans (Nat.mul_le_mul_right _ (Nat.log2_self_le hq)) hlow,
    lt_of_lt_of_le hup (Nat.mul_le_mul_right _ Nat.lt_log2_self)⟩

/-- The last place that a significand needs, as an exponent. -/
lemma targetExponent_totalExponent (m a c : Nat) :
    Format.binary64.targetExponent (totalExponent m ((a : Int) - c - 1074)) =
      ((m.log2 + a - (c + 52) : Nat) : Int) - 1074 := by
  have hmin : Format.binary64.minExponent = -1074 := by decide
  have hbits : (Format.binary64.mantissaBits : Int) = 53 := by decide
  rw [Format.targetExponent, totalExponent, hmin, hbits]
  omega

/-- A significand is shifted to the last place that it needs, if that is not lower. -/
lemma shiftToTargetExponent_eq {m a c : Nat} (acc : Accuracy) (h : a ≤ m.log2 + a - (c + 52) + c) :
    shiftToTargetExponent Format.binary64 m ((a : Int) - c - 1074) acc =
      (ExtendedMantissa.ofMantissaAndAccuracy m acc >>> (m.log2 + a - (c + 52) + c - a),
        ((m.log2 + a - (c + 52) : Nat) : Int) - 1074) := by
  have hamount : (((m.log2 + a - (c + 52) : Nat) : Int) - 1074 - ((a : Int) - c - 1074)).toNat =
      m.log2 + a - (c + 52) + c - a := by omega
  rw [shiftToTargetExponent, targetExponent_totalExponent, shiftToExponent, hamount]
  refine Prod.ext rfl ?_
  change (a : Int) - c - 1074 + ((m.log2 + a - (c + 52) + c - a : Nat) : Int) = _
  omega

/-- A significand of a place is shifted if it is too long for it. -/
lemma shiftToTargetExponent_exact {m k : Nat} (h : k ≤ m.log2 + k - 52) :
    shiftToTargetExponent Format.binary64 m ((k : Int) - 1074) .exact =
      (ExtendedMantissa.ofMantissaAndAccuracy m .exact >>> (m.log2 + k - 52 - k),
        ((m.log2 + k - 52 : Nat) : Int) - 1074) := by
  have hshift := shiftToTargetExponent_eq (m := m) (a := k) (c := 0) .exact (by omega)
  rwa [Nat.cast_zero, Int.sub_zero, Nat.zero_add, Nat.add_zero] at hshift

/-- A significand is first widened to the last place that it needs, or to the lowest place. -/
lemma round_eq (s : Sign) {m a k : Nat} (hk : m.log2 + a - 52 = k) :
    round Format.binary64 s m ((a : Int) - 1074) =
      roundWithAccuracy Format.binary64 s (m * 2 ^ (a - k)) (((a - (a - k) : Nat) : Int) - 1074) .exact := by
  have htarget := targetExponent_totalExponent m a 0
  rw [Nat.cast_zero, Int.sub_zero, Nat.zero_add, hk] at htarget
  have hamount : (((a : Int) - 1074) - ((k : Int) - 1074)).toNat = a - k := by omega
  have hexponent : (a : Int) - 1074 - ((a - k : Nat) : Int) = ((a - (a - k) : Nat) : Int) - 1074 := by omega
  rw [UnpackedFloat.round, htarget, decreaseExponent]
  dsimp only
  rw [hamount, Nat.shiftLeft_eq, hexponent]

/-- The bits of a rounded significand `r` with the last place `k`. It may be `2 ^ 53`, and is then the first
significand of the next place. In the lowest place it may be zero. -/
lemma toNat_pack_rounded (s : Sign) {m a c k r : Nat} {acc : Accuracy} (hk : m.log2 + a - (c + 52) = k)
    (ha : a ≤ k + c) (hr : (ExtendedMantissa.ofMantissaAndAccuracy m acc >>> (k + c - a)).roundedMantissa = r)
    (hup : r ≤ 2 ^ 53) (hlow : k ≠ 0 → 2 ^ 52 ≤ r) :
    (UnpackedFloat.pack Format.binary64
        (roundWithAccuracy Format.binary64 s m ((a : Int) - c - 1074) acc)).toNat =
      s.toBitVec.toNat * 2 ^ 63 + min (k * 2 ^ 52 + r) infinity.magnitude.toNat := by
  have hlowest : r < 2 ^ 52 → k = 0 := fun hlt => by
    by_contra hne
    exact Nat.not_le.2 hlt (hlow hne)
  rw [roundWithAccuracy, shiftToTargetExponent_eq acc (by omega), hk]
  dsimp only
  rw [hr]
  rcases Nat.lt_or_eq_of_le hup with hlt | rfl
  · have hlast : r.log2 + k - 52 = k := by
      rcases Nat.eq_zero_or_pos r with rfl | hpos
      · simp [hlowest (by decide)]
      · have hle : r.log2 < 53 := (Nat.log2_lt hpos.ne').2 hlt
        have hge : k ≠ 0 → 52 ≤ r.log2 := fun hne => (Nat.le_log2 hpos.ne').2 (hlow hne)
        omega
    have hmantissa := (Holds.shiftRight r 0).mantissa
    rw [Nat.pow_zero, Nat.div_one] at hmantissa
    rw [shiftToTargetExponent_exact (by omega), hlast, Nat.sub_self]
    simp only [hmantissa]
    split
    · rename_i hzero
      subst hzero
      obtain rfl := hlowest (by decide)
      exact toNat_packComponents ..
    · rename_i hne
      exact toNat_pack_finite s (Nat.pos_of_ne_zero hne) hlt hlow
  · have hlast : (2 ^ 53).log2 + k - 52 = k + 1 := by
      rw [Nat.log2_two_pow]
      omega
    have hmantissa : (ExtendedMantissa.ofMantissaAndAccuracy (2 ^ 53) .exact >>> 1).mantissa = 2 ^ 52 :=
      (Holds.shiftRight (2 ^ 53) 1).mantissa
    have hcarry := toNat_pack_finite s (f := 2 ^ 52) (k := k + 1) (by decide) (by decide)
      fun _ => Nat.le_refl _
    rw [show (k + 1) * 2 ^ 52 + 2 ^ 52 = k * 2 ^ 52 + 2 ^ 53 by ring] at hcarry
    rw [shiftToTargetExponent_exact (by omega), hlast, Nat.add_sub_cancel_left]
    simp only [hmantissa, dif_neg (show 2 ^ 52 ≠ 0 by decide)]
    exact hcarry

/-- **A significand with its accuracy is rounded as the ratio is** that it stands for. -/
theorem toNat_pack_roundWithAccuracy (s : Sign) {m n d : Nat} {acc : Accuracy} (hd : 0 < d)
    (hm : HoldsQuotient (ExtendedMantissa.ofMantissaAndAccuracy m acc) n d) (a c : Nat)
    (ha : a ≤ m.log2 + a - (c + 52) + c) :
    (UnpackedFloat.pack Format.binary64
        (roundWithAccuracy Format.binary64 s m ((a : Int) - c - 1074) acc)).toNat =
      s.toBitVec.toNat * 2 ^ 63 + min (nearestRatio (n * 2 ^ a) (d * 2 ^ c)) infinity.magnitude.toNat := by
  have hpow : ∀ k : Nat, 0 < 2 ^ k := fun k => Nat.pow_pos (by decide)
  have hmantissa : n / d = m := by
    rw [← hm.mantissa]
    rcases acc with _ | _ | _ | _ <;> rfl
  have hlast : (n * 2 ^ a / (d * 2 ^ c)).log2 - 52 = m.log2 + a - (c + 52) := by
    rcases Nat.le_total a c with h | h
    · rw [show 2 ^ c = 2 ^ (c - a) * 2 ^ a by rw [← Nat.pow_add, Nat.sub_add_cancel h], ← Nat.mul_assoc,
        Nat.mul_div_mul_right _ _ (hpow a), ← Nat.div_div_eq_div_mul, hmantissa, log2_div_two_pow]
      omega
    · rw [show 2 ^ a = 2 ^ (a - c) * 2 ^ c by rw [← Nat.pow_add, Nat.sub_add_cancel h], ← Nat.mul_assoc,
        Nat.mul_div_mul_right _ _ (hpow c)]
      rcases Nat.lt_or_ge c a with hlt | hge
      · have hq : n / d ≠ 0 := by
          rintro hzero
          rw [← hmantissa, hzero] at ha
          simp at ha
          omega
        rw [log2_mul_two_pow_div hd hq, hmantissa]
        omega
      · rw [Nat.sub_eq_zero_of_le hge, Nat.pow_zero, Nat.mul_one, hmantissa]
        omega
  obtain ⟨hup, hlow⟩ := roundDivEven_ratio_bounds (n := n * 2 ^ a) (Nat.mul_pos hd (hpow c))
  rw [nearestRatio]
  rw [hlast] at hup hlow ⊢
  refine toNat_pack_rounded s rfl ha ?_ hup hlow
  rw [(hm.shiftRight hd _).roundedMantissa (Nat.mul_pos hd (hpow _)), ← roundDivEven_mul_mul (hpow a)]
  congr 1
  rw [Nat.mul_assoc, Nat.mul_assoc, ← Nat.pow_add, ← Nat.pow_add]
  congr 2
  omega

/-- **Rounding gives the nearest number.**

**Proof sketch.** Widening by `2 ^ (a - k)` leaves the last place `a - (a - k)`, which is not above `k`, and does not
change the value. -/
theorem toNat_pack_round (s : Sign) {m : Nat} (hm : 0 < m) (a : Nat) :
    (UnpackedFloat.pack Format.binary64 (round Format.binary64 s m ((a : Int) - 1074))).toNat =
      s.toBitVec.toNat * 2 ^ 63 + min (nearest (m * 2 ^ a)) infinity.magnitude.toNat := by
  generalize hk : m.log2 + a - 52 = k
  have hwide : (m * 2 ^ (a - k)).log2 = m.log2 + (a - k) := log2_mul_two_pow hm.ne' _
  have hvalue : m * 2 ^ (a - k) * 2 ^ (a - (a - k)) = m * 2 ^ a := by
    rw [Nat.mul_assoc, ← Nat.pow_add, Nat.add_sub_cancel' (Nat.sub_le ..)]
  have hround := toNat_pack_roundWithAccuracy s Nat.one_pos (HoldsQuotient.exact (m * 2 ^ (a - k))) (a - (a - k)) 0
    (by omega)
  rwa [hvalue, Nat.pow_zero, Nat.mul_one, nearestRatio_one, Nat.cast_zero, Int.sub_zero, ← round_eq s hk] at hround

/-! ## The parts of a number -/

section Parts

variable {x y : Binary64}

/-- The sign of a number. -/
def sign (x : Binary64) : Sign := if x.isNegative then .negative else .positive

/-- The parts of a number. -/
def unpacked (x : Binary64) : UnpackedFloat := UnpackedFloat.unpack Format.binary64 x.bits.toBitVec

/-- The number with the given parts. -/
def ofUnpacked (u : UnpackedFloat) : Binary64 := ⟨UInt64.ofBitVec (UnpackedFloat.pack Format.binary64 u)⟩

/-- The value has the sign of the number. -/
lemma units_eq_apply (x : Binary64) : x.units = x.sign.apply x.size := by
  rw [units, sign]
  split <;> rfl

lemma toNat_unpackMantissa (x : Binary64) :
    (@unpackMantissa Format.binary64 x.bits.toBitVec).toNat = x.fractionField := by
  rw [fractionField_eq, toNat_magnitude, unpackMantissa, BitVec.toNat_cast, BitVec.extractLsb_toNat,
    Nat.shiftRight_zero, UInt64.toNat_toBitVec]
  change x.bits.toNat % 2 ^ 52 = _
  omega

lemma toNat_unpackExponent (x : Binary64) :
    (@unpackExponent Format.binary64 x.bits.toBitVec).toNat = x.exponentField := by
  rw [exponentField_eq, toNat_magnitude, unpackExponent, BitVec.toNat_cast, BitVec.extractLsb_toNat,
    Nat.shiftRight_eq_div_pow, UInt64.toNat_toBitVec]
  change x.bits.toNat / 2 ^ 52 % 2 ^ 11 = _
  omega

lemma ofBitVec_unpackSign (x : Binary64) :
    Sign.ofBitVec (@unpackSign Format.binary64 x.bits.toBitVec) = x.sign := by
  have hlt : x.bits.toNat < 2 ^ 64 := x.bits.toNat_lt
  have htop : (@unpackSign Format.binary64 x.bits.toBitVec).toNat = x.bits.toNat / 2 ^ 63 := by
    rw [unpackSign, BitVec.toNat_cast, BitVec.extractLsb_toNat, Nat.shiftRight_eq_div_pow,
      UInt64.toNat_toBitVec]
    change x.bits.toNat / 2 ^ 63 % 2 ^ 1 = _
    omega
  have hzero : @unpackSign Format.binary64 x.bits.toBitVec = 0#1 ↔ ¬ x.isNegative = true := by
    rw [← BitVec.toNat_inj, htop, isNegative_iff]
    change _ = 0 ↔ _
    omega
  rw [Sign.ofBitVec, sign]
  by_cases hneg : x.isNegative = true
  · rw [if_neg fun h => hzero.1 h hneg, if_pos hneg]
  · rw [if_pos (hzero.2 hneg), if_neg hneg]

lemma finite_congr {s : Sign} {m m' : Nat} {e e' : Int} (hpos : 0 < m) (hm : m = m') (he : e = e') :
    finite s m e hpos = finite s m' e' (hm ▸ hpos) := by
  subst hm he
  rfl

/-- The exponent of a finite number is not the largest one. -/
lemma unpackExponent_ne_of_isFinite (hx : x.isFinite = true) :
    @unpackExponent Format.binary64 x.bits.toBitVec ≠ -1#_ := by
  intro h
  have hinf : infinity.magnitude.toNat = 2047 * 2 ^ 52 := by decide
  have hlt := isFinite_iff.1 hx
  have hfield := exponentField_eq x
  rw [← toNat_unpackExponent, h] at hfield
  change 2047 = _ at hfield
  omega

/-- **The parts of a finite number**: its sign, its significand and its last place. -/
theorem unpacked_of_isFinite (hx : x.isFinite = true) :
    x.unpacked = if h : x.significand = 0 then .zero x.sign else
      .finite x.sign x.significand (((x.exponentField - 1 : Nat) : Int) - 1074) (Nat.pos_of_ne_zero h) := by
  have hexponent := toNat_unpackExponent x
  have hmantissa := toNat_unpackMantissa x
  have hsignificand := significand_eq x
  rw [unpacked, UnpackedFloat.unpack]
  dsimp only
  rw [ofBitVec_unpackSign, if_neg (unpackExponent_ne_of_isFinite hx), hexponent]
  by_cases hfield : x.exponentField = 0
  · have hlow : @unpackExponent Format.binary64 x.bits.toBitVec = 0#_ :=
      BitVec.eq_of_toNat_eq (hexponent.trans hfield)
    rw [if_pos hlow]
    rw [if_pos hfield] at hsignificand
    by_cases hfraction : x.fractionField = 0
    · have hempty : @unpackMantissa Format.binary64 x.bits.toBitVec = 0#_ :=
        BitVec.eq_of_toNat_eq (hmantissa.trans hfraction)
      rw [dif_pos hempty, dif_pos (hsignificand.trans hfraction)]
    · rw [dif_neg fun h => hfraction (hmantissa.symm.trans (congrArg BitVec.toNat h)),
        dif_neg (hsignificand ▸ hfraction)]
      refine finite_congr _ (hmantissa.trans hsignificand.symm) ?_
      change ((x.exponentField : Int) - 1075) + 1 = _
      omega
  · rw [if_neg hfield] at hsignificand
    have hlead : (1#1 ++ @unpackMantissa Format.binary64 x.bits.toBitVec).toNat = x.significand := by
      rw [BitVec.toNat_append, ← Nat.shiftLeft_add_eq_or_of_lt (BitVec.isLt _), hmantissa, hsignificand]
      exact Nat.add_comm ..
    rw [if_neg fun h => hfield (hexponent.symm.trans (congrArg BitVec.toNat h)), dif_neg (by omega)]
    refine finite_congr _ hlead ?_
    change (x.exponentField : Int) - 1075 = _
    omega

/-- **A finite number is made up of its parts.** -/
theorem ofUnpacked_unpacked (hx : x.isFinite = true) : ofUnpacked x.unpacked = x := by
  have hnan : ¬ @isNaNBits Format.binary64 x.bits.toBitVec = true := by
    rw [isNaNBits, decide_eq_true_eq]
    exact fun h => unpackExponent_ne_of_isFinite hx h.1
  rw [ofUnpacked, unpacked, pack_unpack, if_neg hnan]

/-- A positive number has a significand. -/
lemma significand_pos (hx : x.isPositiveFinite = true) : 0 < x.significand := by
  have hmagnitude := magnitude_eq x
  have hfield := le_significand (x := x)
  have hpos := (isPositiveFinite_iff.1 hx).2.2
  omega

/-- The parts of a positive finite number. -/
lemma unpacked_of_isPositiveFinite (hx : x.isPositiveFinite = true) : x.unpacked =
    .finite .positive x.significand (((x.exponentField - 1 : Nat) : Int) - 1074) (significand_pos hx) := by
  obtain ⟨hfinite, hsign, -⟩ := isPositiveFinite_iff.1 hx
  rw [unpacked_of_isFinite hfinite, dif_neg (significand_pos hx).ne', sign, hsign]
  rfl

/-- The position of the number with the given sign whose absolute value has the given position. -/
def position : Sign → Nat → Int
  | .negative, p => -(p : Int) - 1
  | .positive, p => p

/-- The position of a number that is given by its bits. -/
lemma ordinal_ofUnpacked {u : UnpackedFloat} {s : Sign} {p : Nat} (hp : p ≤ infinity.magnitude.toNat)
    (h : (UnpackedFloat.pack Format.binary64 u).toNat = s.toBitVec.toNat * 2 ^ 63 + p) :
    (ofUnpacked u).isNaN = false ∧ (ofUnpacked u).ordinal = position s p := by
  have hinf : infinity.magnitude.toNat = 2047 * 2 ^ 52 := by decide
  have hbits : (ofUnpacked u).bits.toNat = s.toBitVec.toNat * 2 ^ 63 + p := h
  have hmagnitude : (ofUnpacked u).magnitude.toNat = p := by
    rw [toNat_magnitude, hbits]
    omega
  constructor
  · rw [Bool.eq_false_iff, ne_eq, isNaN_iff]
    omega
  rw [ordinal, hmagnitude]
  cases s with
  | negative =>
    have hneg : (ofUnpacked u).isNegative = true :=
      isNegative_iff.2 (hbits ▸ show 2 ^ 63 ≤ 1 * 2 ^ 63 + p by omega)
    rw [if_pos hneg]
    rfl
  | positive =>
    have hneg : ¬ (ofUnpacked u).isNegative = true := fun h' =>
      absurd (hbits ▸ isNegative_iff.1 h') (show ¬ 2 ^ 63 ≤ 0 * 2 ^ 63 + p by omega)
    rw [if_neg hneg]
    rfl

/-- An operation on finite numbers is computed on their parts. -/
lemma lift₂_eq {op : Float → Float → Float} {parts : UnpackedFloat → UnpackedFloat → UnpackedFloat}
    (hop : ∀ x y : Binary64, (⟨(op x.toFloat y.toFloat).toBits⟩ : Binary64) =
      ofUnpacked (parts (Float.Model.ofBits x.bits).unpack (Float.Model.ofBits y.bits).unpack))
    (hx : x.isFinite = true) (hy : y.isFinite = true) :
    lift₂ op x y = if (ofUnpacked (parts x.unpacked y.unpacked)).isNaN then invalid
      else ofUnpacked (parts x.unpacked y.unpacked) := by
  have hunpacked : ∀ z : Binary64, z.isFinite = true → (Float.Model.ofBits z.bits).unpack = z.unpacked :=
    fun z hz => congrArg unpacked (ofUnpacked_unpacked hz)
  rw [lift₂, if_neg (by simp [isNaN_eq_false_of_isFinite hx]), if_neg (by simp [isNaN_eq_false_of_isFinite hy])]
  dsimp only
  rw [hop, hunpacked x hx, hunpacked y hy]

end Parts

end EventSim.Binary64
