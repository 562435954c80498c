import EventSim.Proofs.RoundedQuotient
import EventSim.Proofs.RoundedSum
import EventSim.Traffic.Draw

set_option autoImplicit false

/-!
# Sources of random draws

A source of draws keeps to what it is asked for if the naturals that it yields are below their bounds, and if the
numbers lie in their intervals, from the lower end on and below the upper one. The generator does so whatever its
state is: a product of a word and a bound has a high half below the bound, and a fraction of the width of an interval,
rounded as it is, is not negative, so that the sum with the lower end is not below it.

## Main definitions

* `EventSim.Draws.Lawful` — sources that keep to what they are asked for.

## Main results

* `EventSim.Xoshiro.lawful` — the generator is one of them.
-/

namespace EventSim

/-- The source keeps to what it is asked for. -/
structure Draws.Lawful (G : Type) [Draws G] : Prop where
  /-- A natural is below its bound. -/
  below_lt : ∀ {bound : Nat} (g : G), 0 < bound → (Draws.below bound g).1 < bound
  /-- A number is not below the lower end of its interval, -/
  low_le : ∀ {low high : Binary64} (g : G), low.isFinite = true → high.isFinite = true →
    drawable low high = true → (Draws.between low high g).1.numericLt low = false
  /-- and it is below the upper end. -/
  lt_high : ∀ {low high : Binary64} (g : G), low.isFinite = true → high.isFinite = true →
    drawable low high = true → (Draws.between low high g).1.numericLt high = true

namespace Xoshiro

/-! ## Naturals -/

/-- The high half of a product of a word and a bound is below the bound. -/
lemma drawBelow_lt {bound : Nat} (hbound : 0 < bound) (k : Nat) (g : Xoshiro) : (drawBelow bound k g).1 < bound := by
  induction k generalizing g with
  | zero => exact hbound
  | succ k ih =>
    rw [drawBelow]
    dsimp only
    split_ifs
    · have hword : (g.next.1 >>> 32).toNat < UInt32.size := by
        have hlt : g.next.1.toNat < 2 ^ 64 := g.next.1.toNat_lt
        have hshift : (g.next.1 >>> 32).toNat = g.next.1.toNat / 2 ^ 32 := by
          rw [UInt64.toNat_shiftRight, Nat.shiftRight_eq_div_pow]
          rfl
        have hsize : UInt32.size = 2 ^ 32 := rfl
        omega
      exact (Nat.div_lt_iff_lt_mul (by decide)).2 (by
        rw [Nat.mul_comm bound]
        exact Nat.mul_lt_mul_of_pos_right hword hbound)
    · exact ih _

/-! ## Numbers -/

/-- A number with less than fifty-three bits before scaling is below one after it. -/
lemma toNat_bits_ofScaled {m : Nat} (hm : m ≠ 0) (hlt : m < 2 ^ 52) :
    0 < (Binary64.ofScaled m (-52)).bits.toNat ∧ (Binary64.ofScaled m (-52)).bits.toNat < 1023 * 2 ^ 52 := by
  have hlog : m.log2 < 52 := (Nat.log2_lt hm).2 hlt
  have hplace : max (-52 + ((m.log2 : Int) + 1) - 53) (-1074) = (m.log2 : Int) - 104 := by omega
  have hshift : (-52 - ((m.log2 : Int) - 104)).toNat = 52 - m.log2 := by omega
  have hfield : ((m.log2 : Int) - 104 + 1074).toNat = m.log2 + 970 := by omega
  have hup : m * 2 ^ (52 - m.log2) < 2 ^ 53 := by
    calc m * 2 ^ (52 - m.log2) < 2 ^ (m.log2 + 1) * 2 ^ (52 - m.log2) :=
          Nat.mul_lt_mul_of_pos_right Nat.lt_log2_self (Nat.pow_pos (by decide))
      _ = 2 ^ 53 := by rw [← Nat.pow_add]; congr 1; omega
  have hpos : 0 < m * 2 ^ (52 - m.log2) := Nat.mul_pos (Nat.pos_of_ne_zero hm) (Nat.pow_pos (by decide))
  unfold Binary64.ofScaled
  rw [if_neg hm]
  dsimp only
  rw [hplace, if_pos (show (m.log2 : Int) - 104 ≤ -52 by omega), hshift, hfield, Nat.shiftLeft_eq, Nat.shiftLeft_eq]
  generalize m * 2 ^ (52 - m.log2) = f at *
  rw [if_neg (by omega)]
  have hbits : ((m.log2 + 970) * 2 ^ 52 + f).toUInt64.toNat = ((m.log2 + 970) * 2 ^ 52 + f) % 2 ^ 64 :=
    UInt64.toNat_ofNat'
  rw [hbits, Nat.mod_eq_of_lt (by omega)]
  omega

/-- The fraction is zero, or positive and finite. -/
lemma fraction_cases (word : UInt64) :
    fraction word = Binary64.zero ∨ (fraction word).isPositiveFinite = true := by
  have hword : word.toNat < 2 ^ 64 := word.toNat_lt
  have hshift : (word >>> 12).toNat = word.toNat / 2 ^ 12 := by
    rw [UInt64.toNat_shiftRight, Nat.shiftRight_eq_div_pow]
    rfl
  by_cases hzero : (word >>> 12).toNat = 0
  · exact Or.inl (by rw [fraction, hzero]; rfl)
  · obtain ⟨hpos, hlt⟩ := toNat_bits_ofScaled hzero (by omega)
    rw [fraction, Binary64.isPositiveFinite, Bool.and_eq_true, decide_eq_true_eq, decide_eq_true_eq,
      UInt64.lt_iff_toNat_lt, UInt64.lt_iff_toNat_lt]
    exact Or.inr ⟨hpos, hlt.trans (by decide)⟩

/-- The width of an interval from which numbers can be drawn is positive. -/
lemma isPositiveFinite_sub {low high : Binary64} (hlow : low.isFinite = true) (hhigh : high.isFinite = true)
    (h : drawable low high = true) : (high - low).isPositiveFinite = true := by
  rw [drawable, Bool.and_eq_true] at h
  have hunits := Binary64.units_lt_units (Binary64.numericLt_iff.1 h.1).2.2
  exact Binary64.isPositiveFinite_iff_ordinal.2 ⟨h.2, Binary64.ordinal_sub_pos hhigh hlow hunits⟩

/-- A fraction of a positive width is not negative; it is infinite or finite. -/
lemma fraction_mul_cases {d : Binary64} (hd : d.isPositiveFinite = true) (word : UInt64) :
    fraction word * d = Binary64.infinity ∨
      (fraction word * d).isFinite = true ∧ 0 ≤ (fraction word * d).ordinal := by
  rcases fraction_cases word with hzero | hpositive
  · rw [hzero, Binary64.zero_mul hd]
    exact Or.inr ⟨rfl, le_rfl⟩
  · obtain ⟨hnan, hordinal⟩ := Binary64.ordinal_mul hpositive hd
    have hle : 0 ≤ (fraction word * d).ordinal := hordinal ▸ Int.natCast_nonneg _
    by_cases hfinite : (fraction word * d).isFinite = true
    · exact Or.inr ⟨hfinite, hle⟩
    · refine Or.inl ((Binary64.eq_of_isInfinite (Bool.eq_false_of_not_eq_true hfinite) hnan).resolve_right fun h => ?_)
      rw [h] at hle
      exact absurd hle (by decide)

/-- What is drawn from an interval is not below its lower end, and it is below the upper one. -/
lemma drawBetween_mem {low high : Binary64} (hlow : low.isFinite = true) (hhigh : high.isFinite = true)
    (h : drawable low high = true) (k : Nat) (g : Xoshiro) :
    (drawBetween low high k g).1.numericLt low = false ∧ (drawBetween low high k g).1.numericLt high = true := by
  induction k generalizing g with
  | zero =>
    rw [drawable, Bool.and_eq_true] at h
    refine ⟨?_, h.1⟩
    rw [Bool.eq_false_iff, ne_eq, Binary64.numericLt_iff]
    exact fun hlt => lt_irrefl _ hlt.2.2
  | succ k ih =>
    rw [drawBetween]
    dsimp only
    split_ifs with hbelow
    · refine ⟨?_, hbelow⟩
      rcases fraction_mul_cases (isPositiveFinite_sub hlow hhigh h) g.next.1 with hinfinite | ⟨hfinite, hle⟩
      · rw [hinfinite, (Binary64.add_infinite hlow (Or.inl rfl)).2, Bool.eq_false_iff, ne_eq, Binary64.numericLt_iff]
        exact fun hlt => lt_asymm hlt.2.2 (Binary64.isFinite_iff_level.1 hlow).2
      · exact Binary64.numericLt_add_eq_false hfinite hlow hle
    · exact ih _

/-- **The generator keeps to what it is asked for**, in every state. -/
theorem lawful : Draws.Lawful Xoshiro where
  below_lt g hbound := drawBelow_lt hbound attempts g
  low_le g hlow hhigh h := (drawBetween_mem hlow hhigh h attempts g).1
  lt_high g hlow hhigh h := (drawBetween_mem hlow hhigh h attempts g).2

end Xoshiro

end EventSim
