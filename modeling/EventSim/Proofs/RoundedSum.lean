import EventSim.Proofs.Rounding

set_option autoImplicit false

/-!
# Rounded sums

A sum of two numbers is computed on their parts: the significands are brought to the lower of the two last
places, added, and the result is rounded to the place it needs. So the sum is the number that is nearest to the
sum of the values, and addition is monotone: no earlier instant and no smaller step give a later result. A difference
is the sum with the negated number.

## Main results

* `EventSim.Binary64.ordinal_add`, `EventSim.Binary64.ordinal_sub` — a sum is the number nearest to the sum of the
  values, and a difference the one nearest to their difference.
* `EventSim.Binary64.ordinal_add_le_add`, `EventSim.Binary64.ordinal_add_le_add_of_isFinite` — addition is monotone,
  also between a finite number and what is beyond all of them.
* `EventSim.Binary64.ordinal_sub_pos`, `EventSim.Binary64.isFinite_sub_iff` — a difference is not lost, and when it is
  finite.
-/

namespace EventSim.Binary64

open Float.Model Float.Model.UnpackedFloat

/-! ## Sums -/

section Sums

variable {x y : Binary64}

/-- **A value is rounded to the nearest number.** -/
theorem ordinal_normalize (n : Int) (a : Nat) :
    (ofUnpacked (normalize Format.binary64 n ((a : Int) - 1074) .positive)).isNaN = false ∧
      (ofUnpacked (normalize Format.binary64 n ((a : Int) - 1074) .positive)).ordinal =
        nearestOrdinal (n * 2 ^ a) := by
  have hpos : (0 : Int) < 2 ^ a := by positivity
  have hcap : ∀ k, min (nearest k) infinity.magnitude.toNat ≤ infinity.magnitude.toNat :=
    fun k => Nat.min_le_right ..
  have habs : (n * 2 ^ a).natAbs = n.natAbs * 2 ^ a := by
    rw [Int.natAbs_mul, Int.natAbs_pow]
    rfl
  unfold UnpackedFloat.normalize
  rw [nearestOrdinal, habs]
  rcases lt_trichotomy n 0 with hn | rfl | hn
  · rw [compare_lt_iff_lt.2 hn, if_pos (mul_neg_of_neg_of_pos hn hpos), show n.natAbs = (-n).toNat by omega]
    exact ordinal_ofUnpacked (hcap _) (toNat_pack_round .negative (by omega) a)
  · have hzero := ordinal_ofUnpacked (u := .zero .positive) (s := .positive) (Nat.zero_le _)
      (toNat_packComponents ..)
    rw [compare_eq_iff_eq.2 rfl, if_neg (by simp)]
    simpa [nearest, roundDivEven, position] using hzero
  · rw [compare_gt_iff_gt.2 hn, if_neg (not_lt.2 (mul_pos hn hpos).le), show n.natAbs = n.toNat by omega]
    exact ordinal_ofUnpacked (hcap _) (toNat_pack_round .positive (by omega) a)

/-- The sum of finite numbers is computed on their parts. -/
lemma add_eq (hx : x.isFinite = true) (hy : y.isFinite = true) :
    x + y = if (ofUnpacked (UnpackedFloat.add Format.binary64 x.unpacked y.unpacked)).isNaN then invalid
      else ofUnpacked (UnpackedFloat.add Format.binary64 x.unpacked y.unpacked) :=
  lift₂_eq (fun _ _ => rfl) hx hy

lemma apply_mul (s : Sign) (n c : Nat) : s.apply (n * c : Nat) = s.apply n * c := by
  cases s <;> simp [Sign.apply]

/-- The sum of two numbers that are not zero: both significands are widened to the lower last place, and
the value is rounded. -/
lemma add_unpacked (hx : x.isFinite = true) (hy : y.isFinite = true) (hxne : x.significand ≠ 0)
    (hyne : y.significand ≠ 0) : ∃ (n : Int) (a : Nat), n * 2 ^ a = x.units + y.units ∧
      UnpackedFloat.add Format.binary64 x.unpacked y.unpacked =
        normalize Format.binary64 n ((a : Int) - 1074) .positive := by
  generalize hk : x.exponentField - 1 = k
  generalize hl : y.exponentField - 1 = l
  have hmin : min ((k : Int) - 1074) ((l : Int) - 1074) = ((min k l : Nat) : Int) - 1074 := by omega
  have hleft : (((k : Int) - 1074) - (((min k l : Nat) : Int) - 1074)).toNat = k - min k l := by omega
  have hright : (((l : Int) - 1074) - (((min k l : Nat) : Int) - 1074)).toNat = l - min k l := by omega
  have hxsize : (x.significand * 2 ^ (k - min k l)) * 2 ^ min k l = x.size := by
    rw [size, hk, Nat.mul_assoc, ← Nat.pow_add, Nat.sub_add_cancel (Nat.min_le_left ..)]
  have hysize : (y.significand * 2 ^ (l - min k l)) * 2 ^ min k l = y.size := by
    rw [size, hl, Nat.mul_assoc, ← Nat.pow_add, Nat.sub_add_cancel (Nat.min_le_right ..)]
  refine ⟨x.sign.apply (x.significand * 2 ^ (k - min k l) : Nat) +
    y.sign.apply (y.significand * 2 ^ (l - min k l) : Nat), min k l, ?_, ?_⟩
  · rw [units_eq_apply, units_eq_apply, ← hxsize, ← hysize, add_mul, apply_mul _ (_ * _), apply_mul _ (_ * _),
      Nat.cast_pow, Nat.cast_ofNat]
  · rw [unpacked_of_isFinite hx, dif_neg hxne, unpacked_of_isFinite hy, dif_neg hyne, hk, hl,
      UnpackedFloat.add]
    dsimp only
    rw [hmin, decreaseExponent, decreaseExponent, hleft, hright, Nat.shiftLeft_eq, Nat.shiftLeft_eq]

/-- A number without significand adds nothing. -/
lemma add_unpacked_of_zero (hx : x.isFinite = true) (hy : y.isFinite = true) (hxzero : x.significand = 0)
    (hyne : y.significand ≠ 0) :
    UnpackedFloat.add Format.binary64 x.unpacked y.unpacked = y.unpacked ∧
      UnpackedFloat.add Format.binary64 y.unpacked x.unpacked = y.unpacked := by
  rw [unpacked_of_isFinite hx, dif_pos hxzero, unpacked_of_isFinite hy, dif_neg hyne]
  exact ⟨rfl, rfl⟩

/-- **The sum of two numbers is the number nearest to the sum of their values**, if not both of them are zero. -/
theorem ordinal_add (hx : x.isFinite = true) (hy : y.isFinite = true)
    (hne : x.significand ≠ 0 ∨ y.significand ≠ 0) :
    (x + y).isNaN = false ∧ (x + y).ordinal = nearestOrdinal (x.units + y.units) := by
  suffices h : (ofUnpacked (UnpackedFloat.add Format.binary64 x.unpacked y.unpacked)).isNaN = false ∧
      (ofUnpacked (UnpackedFloat.add Format.binary64 x.unpacked y.unpacked)).ordinal =
        nearestOrdinal (x.units + y.units) by
    rw [add_eq hx hy, h.1]
    exact h
  have hexact : ∀ {z : Binary64}, z.isFinite = true → z.significand ≠ 0 → z.isNaN = false ∧
      z.ordinal = nearestOrdinal z.units := fun hz hzne =>
    ⟨isNaN_eq_false_of_isFinite hz, (nearestOrdinal_units hz fun _ => units_ne_zero hzne).symm⟩
  by_cases hxzero : x.significand = 0
  · have hyne := hne.resolve_left (not_not.2 hxzero)
    rw [(add_unpacked_of_zero hx hy hxzero hyne).1, ofUnpacked_unpacked hy, units_eq_zero hxzero, Int.zero_add]
    exact hexact hy hyne
  by_cases hyzero : y.significand = 0
  · rw [(add_unpacked_of_zero hy hx hyzero hxzero).2, ofUnpacked_unpacked hx, units_eq_zero hyzero, Int.add_zero]
    exact hexact hx hxzero
  · obtain ⟨n, a, hunits, hsum⟩ := add_unpacked hx hy hxzero hyzero
    rw [hsum, ← hunits]
    exact ordinal_normalize n a

/-- **Addition is monotone**: a later number and a larger step do not give an earlier sum. -/
theorem ordinal_add_le_add {d e : Binary64} (hx : x.isFinite = true) (hy : y.isFinite = true)
    (hd : d.isPositiveFinite = true) (he : e.isPositiveFinite = true) (hxy : x.ordinal ≤ y.ordinal)
    (hde : d.ordinal ≤ e.ordinal) : (x + d).ordinal ≤ (y + e).ordinal := by
  rw [(ordinal_add hx (isPositiveFinite_iff.1 hd).1 (Or.inr (significand_pos hd).ne')).2,
    (ordinal_add hy (isPositiveFinite_iff.1 he).1 (Or.inr (significand_pos he).ne')).2]
  exact nearestOrdinal_mono (add_le_add (units_le_units hxy) (units_le_units hde))

/-- A positive step does not make a number smaller. -/
lemma ordinal_le_add {d : Binary64} (hx : x.isFinite = true) (hd : d.isPositiveFinite = true) :
    x.ordinal ≤ (x + d).ordinal := by
  obtain ⟨_, hpositive, _⟩ := isPositiveFinite_iff.1 hd
  have hunits : 0 ≤ d.units := by
    rw [units, if_neg (by simp [hpositive])]
    exact Int.natCast_nonneg _
  have hle : nearestOrdinal x.units ≤ nearestOrdinal (x.units + d.units) := nearestOrdinal_mono (by omega)
  rw [(ordinal_add hx (isPositiveFinite_iff.1 hd).1 (Or.inr (significand_pos hd).ne')).2]
  by_cases hx0 : x.isNegative = true ∧ x.units = 0
  · -- negative zero is the one number that is not rounded to itself
    have hposition : x.ordinal < 0 := by
      rw [ordinal, if_pos hx0.1]
      omega
    have hnearest : (0 : Int) ≤ nearestOrdinal x.units := by
      rw [hx0.2]
      decide
    omega
  · rwa [nearestOrdinal_units hx fun hneg hzero => hx0 ⟨hneg, hzero⟩] at hle

/-- Two zeros add up to a zero. -/
lemma level_add_of_zero (hx : x.isFinite = true) (hy : y.isFinite = true) (hxzero : x.significand = 0)
    (hyzero : y.significand = 0) : (x + y).level = 0 := by
  have hsum : ∀ s t : Sign, (if (ofUnpacked (UnpackedFloat.add Format.binary64 (.zero s) (.zero t))).isNaN then invalid
      else ofUnpacked (UnpackedFloat.add Format.binary64 (.zero s) (.zero t))).level = 0 := by
    rintro (_ | _) (_ | _) <;> rfl
  rw [add_eq hx hy, unpacked_of_isFinite hx, dif_pos hxzero, unpacked_of_isFinite hy, dif_pos hyzero]
  exact hsum _ _

/-- **A term that is not negative does not lead below the other one.** -/
theorem numericLt_add_eq_false (hx : x.isFinite = true) (hy : y.isFinite = true) (hpos : 0 ≤ x.ordinal) :
    (x + y).numericLt y = false := by
  have hunits : 0 ≤ x.units := by
    rw [units, if_neg (mt isNegative_iff_ordinal.1 (not_lt.2 hpos))]
    exact Int.natCast_nonneg _
  rw [Bool.eq_false_iff, ne_eq, numericLt_iff]
  rintro ⟨-, -, hlt⟩
  by_cases hyzero : y.significand = 0
  · have hylevel : y.level = 0 := by
      have hmagnitude := magnitude_eq y
      have hfield := le_significand (x := y)
      unfold level
      split <;> omega
    by_cases hxzero : x.significand = 0
    · rw [level_add_of_zero hx hy hxzero hyzero, hylevel] at hlt
      exact lt_irrefl _ hlt
    · have hordinal := (ordinal_add hx hy (Or.inl hxzero)).2
      rw [units_eq_zero hyzero, Int.add_zero] at hordinal
      have hle : nearestOrdinal 0 ≤ (x + y).ordinal := hordinal ▸ nearestOrdinal_mono hunits
      rw [show nearestOrdinal 0 = 0 from rfl] at hle
      rw [level_eq_of_nonneg hle, hylevel] at hlt
      exact not_lt.2 hle hlt
  · have hle : nearestOrdinal y.units ≤ nearestOrdinal (x.units + y.units) := nearestOrdinal_mono (by omega)
    rw [nearestOrdinal_units hy fun _ => units_ne_zero hyzero, ← (ordinal_add hx hy (Or.inr hyzero)).2] at hle
    exact not_lt.2 hle (ordinal_lt_of_level_lt hlt)

/-! ### Infinities and NaNs -/

/-- A sum goes by the parts of its terms, unless one of them is not a number. -/
lemma add_eq_ite (x y : Binary64) : x + y = if x.isNaN then x.quiet else if y.isNaN then y.quiet else
    if (ofUnpacked (UnpackedFloat.add Format.binary64 (Float.Model.ofBits x.bits).unpack
      (Float.Model.ofBits y.bits).unpack)).isNaN then invalid
    else ofUnpacked (UnpackedFloat.add Format.binary64 (Float.Model.ofBits x.bits).unpack
      (Float.Model.ofBits y.bits).unpack) := rfl

/-- The parts of the infinities. -/
lemma exists_unpack_eq_infinity {d : Binary64} (hd : d = infinity ∨ d = negInfinity) :
    d.isNaN = false ∧ ∃ s, (Float.Model.ofBits d.bits).unpack = .infinity s ∧ ofUnpacked (.infinity s) = d := by
  rcases hd with rfl | rfl
  · exact ⟨rfl, .positive, rfl, rfl⟩
  · exact ⟨rfl, .negative, rfl, rfl⟩

/-- An infinity stays where it is, whichever finite number is added. -/
lemma add_infinite {d : Binary64} (hx : x.isFinite = true) (hd : d = infinity ∨ d = negInfinity) :
    x + d = d ∧ d + x = d := by
  obtain ⟨hdnan, s, hparts, hs⟩ := exists_unpack_eq_infinity hd
  have hsum : UnpackedFloat.add Format.binary64 x.unpacked (.infinity s) = .infinity s ∧
      UnpackedFloat.add Format.binary64 (.infinity s) x.unpacked = .infinity s := by
    rw [unpacked_of_isFinite hx]
    split <;> exact ⟨rfl, rfl⟩
  rw [add_eq_ite, add_eq_ite, isNaN_eq_false_of_isFinite hx, hdnan, hparts,
    show (Float.Model.ofBits x.bits).unpack = x.unpacked from congrArg unpacked (ofUnpacked_unpacked hx),
    hsum.1, hsum.2, hs, hdnan]
  exact ⟨rfl, rfl⟩

/-- What is not a number stays so. -/
lemma isNaN_quiet (hx : x.isNaN = true) : x.quiet.isNaN = true := by
  have hbits : x.quiet.bits.toNat = x.bits.toNat ||| 2 ^ 51 := UInt64.toNat_or ..
  rw [isNaN_iff, toNat_magnitude x] at hx
  rw [isNaN_iff, toNat_magnitude x.quiet, hbits, Nat.or_mod_two_pow]
  exact Nat.lt_of_lt_of_le hx Nat.left_le_or

/-- What is not a number stays on the side of its sign. -/
lemma isNegative_quiet (x : Binary64) : x.quiet.isNegative = x.isNegative := by
  have hbits : x.quiet.bits.toNat = x.bits.toNat ||| 2 ^ 51 := UInt64.toNat_or ..
  have hle : x.bits.toNat ≤ x.bits.toNat ||| 2 ^ 51 := Nat.left_le_or
  rw [Bool.eq_iff_iff, isNegative_iff, isNegative_iff, hbits]
  refine ⟨fun h => ?_, fun h => le_trans h hle⟩
  by_contra hlt
  exact absurd (Nat.or_lt_two_pow (Nat.not_le.1 hlt) (by decide : 2 ^ 51 < 2 ^ 63)) (Nat.not_lt.2 h)

/-- What is beyond all finite numbers stays there, on the same side. -/
lemma add_beyond {d : Binary64} (hx : x.isFinite = false) (hd : d.isFinite = true) :
    (infinity.ordinal ≤ x.ordinal → infinity.ordinal ≤ (x + d).ordinal) ∧
      (x.ordinal ≤ negInfinity.ordinal → (x + d).ordinal ≤ negInfinity.ordinal) := by
  by_cases hnan : x.isNaN = true
  · have hquiet := isNaN_iff.1 (isNaN_quiet hnan)
    have hpos : infinity.ordinal = infinity.magnitude.toNat := rfl
    have hneg : negInfinity.ordinal = -(infinity.magnitude.toNat : Int) - 1 := rfl
    have hside : x.quiet.ordinal =
        if x.isNegative then -(x.quiet.magnitude.toNat : Int) - 1 else x.quiet.magnitude.toNat :=
      isNegative_quiet x ▸ rfl
    rw [add_eq_ite, if_pos hnan, hside, hpos, hneg, ordinal]
    constructor <;> split <;> omega
  · rw [(add_infinite hd (eq_of_isInfinite hx (Bool.eq_false_of_not_eq_true hnan))).2]
    exact ⟨id, id⟩

/-- **To add a positive number is monotone**, also between a finite number and what is beyond all of them. -/
theorem ordinal_add_le_add_of_isFinite {d : Binary64} (hd : d.isPositiveFinite = true)
    (hxy : x.isFinite = true ∨ y.isFinite = true) (hle : x.ordinal ≤ y.ordinal) :
    (x + d).ordinal ≤ (y + d).ordinal := by
  have hpos : infinity.ordinal = infinity.magnitude.toNat := rfl
  have hneg : negInfinity.ordinal = -(infinity.magnitude.toNat : Int) - 1 := rfl
  have hdfinite := (isPositiveFinite_iff.1 hd).1
  have hbetween : ∀ {z : Binary64}, z.isFinite = true →
      negInfinity.ordinal ≤ (z + d).ordinal ∧ (z + d).ordinal ≤ infinity.ordinal := fun {z} hz => by
    have hnan := mt isNaN_iff.2 (Bool.eq_false_iff.1 (ordinal_add hz hdfinite (Or.inr (significand_pos hd).ne')).1)
    rw [hpos, hneg, ordinal]
    split <;> omega
  by_cases hx : x.isFinite = true
  · by_cases hy : y.isFinite = true
    · exact ordinal_add_le_add hx hy hd hd hle (le_refl _)
    · have hxlow := isFinite_iff_ordinal.1 hx
      have hyhigh := mt isFinite_iff_ordinal.2 hy
      exact (hbetween hx).2.trans ((add_beyond (Bool.eq_false_of_not_eq_true hy) hdfinite).1 (by omega))
  · have hyhigh := isFinite_iff_ordinal.1 (hxy.resolve_left hx)
    have hxlow := mt isFinite_iff_ordinal.2 hx
    exact le_trans ((add_beyond (Bool.eq_false_of_not_eq_true hx) hdfinite).2 (by omega))
      (hbetween (hxy.resolve_left hx)).1

end Sums

/-! ## Differences -/

section Differences

variable {x y : Binary64}

lemma magnitude_neg (x : Binary64) : (-x).magnitude = x.magnitude := by
  refine UInt64.toNat_inj.1 ?_
  rw [toNat_magnitude, toNat_magnitude]
  change (x.bits.toNat ^^^ 2 ^ 63) % 2 ^ 63 = _
  rw [Nat.xor_mod_two_pow, Nat.mod_self, Nat.xor_zero]

lemma isNegative_neg (x : Binary64) : (-x).isNegative = !x.isNegative := by
  have hlt : x.bits.toNat < 2 ^ 64 := x.bits.toNat_lt
  have htop : (x.bits.toNat ^^^ 2 ^ 63) / 2 ^ 63 = x.bits.toNat / 2 ^ 63 ^^^ 1 := Nat.xor_div_two_pow
  rw [Bool.eq_iff_iff, Bool.not_eq_true', ← Bool.not_eq_true, isNegative_iff, isNegative_iff]
  change 2 ^ 63 ≤ x.bits.toNat ^^^ 2 ^ 63 ↔ _
  rcases (by omega : x.bits.toNat / 2 ^ 63 = 0 ∨ x.bits.toNat / 2 ^ 63 = 1) with h | h
  · rw [h, Nat.zero_xor] at htop
    exact iff_of_true (by omega) (by omega)
  · rw [h, Nat.xor_self] at htop
    exact iff_of_false (by omega) (by omega)

lemma isFinite_neg (hx : x.isFinite = true) : (-x).isFinite = true := by
  rwa [isFinite_iff, magnitude_neg, ← isFinite_iff]

/-- The parts of a number but its sign depend on its magnitude alone. -/
lemma significand_neg (x : Binary64) : (-x).significand = x.significand := by
  unfold significand fractionField exponentField
  rw [magnitude_neg]

lemma units_neg (x : Binary64) : (-x).units = -x.units := by
  rw [units, units, isNegative_neg, size_congr (magnitude_neg x)]
  cases x.isNegative <;> simp

/-- Of the parts of a number, negation changes the sign. -/
lemma unpacked_neg (hx : x.isFinite = true) : (-x).unpacked = x.unpacked.neg := by
  have hsign : (-x).sign = -x.sign := by
    unfold sign
    rw [isNegative_neg]
    cases x.isNegative <;> rfl
  have hfield : (-x).exponentField = x.exponentField := by
    unfold exponentField
    rw [magnitude_neg]
  rw [unpacked_of_isFinite hx, unpacked_of_isFinite (isFinite_neg hx)]
  simp only [hsign, hfield, significand_neg]
  split <;> rfl

/-- A difference of parts is the sum with the negated ones. -/
lemma sub_eq_add_neg_unpacked (u v : UnpackedFloat) :
    UnpackedFloat.sub Format.binary64 u v = UnpackedFloat.add Format.binary64 u v.neg := by
  have happly : ∀ (s : Sign) (n : Int), (-s).apply n = -s.apply n := fun s n => by
    cases s
    · exact (Int.neg_neg n).symm
    · rfl
  cases u <;> cases v <;> simp [UnpackedFloat.sub, UnpackedFloat.add, UnpackedFloat.neg, happly, Int.sub_eq_add_neg]

/-- A difference of finite numbers is the sum with the negated number. -/
lemma sub_eq_add_neg (hx : x.isFinite = true) (hy : y.isFinite = true) : x - y = x + -y := by
  have hsub : x - y = if (ofUnpacked (UnpackedFloat.sub Format.binary64 x.unpacked y.unpacked)).isNaN then invalid
      else ofUnpacked (UnpackedFloat.sub Format.binary64 x.unpacked y.unpacked) :=
    lift₂_eq (fun _ _ => rfl) hx hy
  rw [hsub, add_eq hx (isFinite_neg hy), unpacked_neg hy, sub_eq_add_neg_unpacked]

/-- **The difference of two numbers is the number nearest to the difference of their values**, if not both of them are
zero. -/
theorem ordinal_sub (hx : x.isFinite = true) (hy : y.isFinite = true)
    (hne : x.significand ≠ 0 ∨ y.significand ≠ 0) :
    (x - y).isNaN = false ∧ (x - y).ordinal = nearestOrdinal (x.units - y.units) := by
  rw [sub_eq_add_neg hx hy, Int.sub_eq_add_neg, ← units_neg]
  exact ordinal_add hx (isFinite_neg hy) (by rwa [significand_neg])

/-- The difference from a smaller number is the position that is nearest to a natural. -/
lemma ordinal_sub_of_lt (hx : x.isFinite = true) (hy : y.isFinite = true) (hlt : y.units < x.units) :
    (x - y).ordinal = (min (nearest (x.units - y.units).toNat) infinity.magnitude.toNat : Nat) := by
  have hne : x.significand ≠ 0 ∨ y.significand ≠ 0 := by
    by_contra h
    rw [not_or, not_not, not_not] at h
    rw [units_eq_zero h.1, units_eq_zero h.2] at hlt
    exact lt_irrefl _ hlt
  rw [(ordinal_sub hx hy hne).2, nearestOrdinal, if_neg (by omega),
    show (x.units - y.units).natAbs = (x.units - y.units).toNat by omega]

/-- **The difference from a smaller number is not lost in the rounding.** -/
theorem ordinal_sub_pos (hx : x.isFinite = true) (hy : y.isFinite = true) (hlt : y.units < x.units) :
    0 < (x - y).ordinal := by
  have hinf : 0 < infinity.magnitude.toNat := by decide
  have hpos := (nearestRatio_pos_iff (n := (x.units - y.units).toNat) Nat.one_pos).2 (by omega)
  rw [nearestRatio_one] at hpos
  rw [ordinal_sub_of_lt hx hy hlt]
  omega

/-- **The difference from a smaller number is finite** just if that of the values is below the middle between the
largest number and the next power of two. -/
theorem isFinite_sub_iff (hx : x.isFinite = true) (hy : y.isFinite = true) (hlt : y.units < x.units) :
    (x - y).isFinite = true ↔ (x.units - y.units).toNat < (2 ^ 54 - 1) * 2 ^ 2044 := by
  have hinf : infinity.magnitude.toNat = (2044 + 1) * 2 ^ 52 + 2 ^ 53 := by decide
  have hle := le_nearestRatio_iff (n := (x.units - y.units).toNat) Nat.one_pos 2044
  rw [nearestRatio_one, Nat.mul_one, ← hinf, ← not_iff_not, Nat.not_le, Nat.not_le] at hle
  rw [isFinite_iff_ordinal, ordinal_sub_of_lt hx hy hlt, ← hle]
  omega

end Differences

end EventSim.Binary64
