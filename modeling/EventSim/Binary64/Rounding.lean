import EventSim.Binary64.Basic

set_option autoImplicit false

/-!
# Exact values and rounding

A finite number is `± significand · 2 ^ exponent` with a natural significand. In the other
direction `ofScaled` rounds `n · 2 ^ e` to the nearest number, a tie going to the even significand;
what is too large becomes infinite. Everything here is integer arithmetic: a quotient or a square
root is first taken to more bits than a number holds, with one bit that records whether anything
was cut off, and then rounded once.

## Main definitions

* `EventSim.Binary64.significand`, `EventSim.Binary64.exponent` — the exact value of a number.
* `EventSim.Binary64.ofScaled` — the number nearest to `n · 2 ^ e`.
* `EventSim.Binary64.ofDecimal` — the number nearest to `n · 10 ^ e`.
* `EventSim.Binary64.hypot` — the rounded length of a planar vector.
* `EventSim.Binary64.toWord` — the nearest 64-bit natural, halves away from zero.
-/

namespace EventSim.Binary64

/-! ## Exact values -/

/-- The biased exponent field. -/
def exponentField (x : Binary64) : Nat := x.magnitude.toNat >>> 52

/-- The fraction field. -/
def fractionField (x : Binary64) : Nat := x.magnitude.toNat % 1 <<< 52

/-- The natural `m` with `|x| = m · 2 ^ x.exponent`, for finite `x`. -/
def significand (x : Binary64) : Nat :=
  if x.exponentField = 0 then x.fractionField else x.fractionField + 1 <<< 52

/-- The integer `q` with `|x| = x.significand · 2 ^ q`, for finite `x`. -/
def exponent (x : Binary64) : Int :=
  if x.exponentField = 0 then -1074 else (x.exponentField : Int) - 1075

/-! ## Rounding -/

/-- `n / d` to the nearest natural, a tie going to the even one. -/
def roundDivEven (n d : Nat) : Nat :=
  let q := n / d
  let r := n % d
  if 2 * r < d then q
  else if d < 2 * r then q + 1
  else if q % 2 = 0 then q else q + 1

/-- The nonnegative number nearest to `n · 2 ^ e`, a tie going to the even significand. With `t` the
exponent of the last place and `m` the rounded significand, the bits are `(t + 1074) · 2 ^ 52 + m`,
for normal and subnormal numbers alike, and a significand that rounds up to `2 ^ 53` carries into the
exponent. -/
def ofScaled (n : Nat) (e : Int) : Binary64 :=
  if n = 0 then zero
  else
    let width : Int := (n.log2 : Int) + 1
    let t : Int := max (e + width - 53) (-1074)
    let m : Nat := if t ≤ e then n <<< (e - t).toNat else roundDivEven n (1 <<< (t - e).toNat)
    let bits : Nat := (t + 1074).toNat <<< 52 + m
    if 0x7ff0000000000000 ≤ bits then infinity else ⟨bits.toUInt64⟩

/-- The number nearest to `n`. -/
def ofNat (n : Nat) : Binary64 := ofScaled n 0

/-- The nonnegative number nearest to `n · 10 ^ e`. Magnitudes far outside the range are settled by
the count of digits alone. -/
def ofDecimal (n : Nat) (e : Int) : Binary64 :=
  if n = 0 then zero
  else
    let size : Int := (n.log2 : Int) * 30103 / 100000 + e
    if 320 < size then infinity
    else if size < -340 then zero
    else if 0 ≤ e then ofScaled (n * Nat.pow 10 e.toNat) 0
    else
      let d : Nat := Nat.pow 10 (-e).toNat
      let shift : Nat := d.log2 + 64
      let q : Nat := (n <<< shift) / d
      let cut : Nat := if (n <<< shift) % d = 0 then 0 else 1
      ofScaled (2 * q + cut) (-(shift : Int) - 1)

/-- The natural `s` with `s ^ 2 ≤ n < (s + 1) ^ 2`, found bit by bit from the highest. -/
def squareRoot (n : Nat) : Nat :=
  go (n.log2 / 2 + 1) 0
where
  /-- Adds the bits below `2 ^ k` that keep the square within `n`. -/
  go : Nat → Nat → Nat
    | 0, s => s
    | k + 1, s => if (s + 1 <<< k) * (s + 1 <<< k) ≤ n then go k (s + 1 <<< k) else go k s

/-- The length of the vector with components `x` and `y`, rounded once. An infinite component makes
the length infinite, even beside a NaN. -/
def hypot (x y : Binary64) : Binary64 :=
  if x.isInfinite || y.isInfinite then infinity
  else if x.isNaN || y.isNaN then nan
  else
    let q := min x.exponent y.exponent
    let a := x.significand <<< (x.exponent - q).toNat
    let b := y.significand <<< (y.exponent - q).toNat
    let square := a * a + b * b
    let scaled := square <<< 128
    let root := squareRoot scaled
    let cut := if root * root = scaled then 0 else 1
    ofScaled (2 * root + cut) (q - 65)

/-- The largest 64-bit natural. -/
def wordMax : Nat := UInt64.size - 1

/-- The nearest natural, halves going up, held at the largest 64-bit value; what is negative or not a
number counts as zero. -/
def toWord (x : Binary64) : Nat :=
  if x.isNaN || x.isNegative then 0
  else if x.isInfinite then wordMax
  else
    let m := x.significand
    let n :=
      if 0 ≤ x.exponent then m <<< x.exponent.toNat
      else
        let d := 1 <<< (-x.exponent).toNat
        (2 * m + d) / (2 * d)
    min n wordMax

end EventSim.Binary64
