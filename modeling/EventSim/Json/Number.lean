import EventSim.Decimal.Reader

set_option autoImplicit false

/-!
# Numbers in JSON text

A number is first taken apart into its digits. Its digits are then gathered into a 64-bit significand: a
digit for which there is no more room is dropped, and one dropped before the point counts as a power of
ten. A whole number that fits is kept as an integer. Everything else is the significand times or divided
by one power of ten, in binary64 arithmetic; a number that would become infinite is refused.

## Main definitions

* `EventSim.Numeral` — a number as it is written.
* `EventSim.JsonNumber` — what it denotes.
* `EventSim.Numeral.value` — from one to the other.
-/

namespace EventSim

/-- A number as it is written in JSON text. -/
structure Numeral where
  /-- It begins with a minus sign. -/
  negative : Bool
  /-- The digits before the point. -/
  whole : List Char
  /-- The digits after the point, if there is one. -/
  fraction : Option (List Char)
  /-- The sign and the digits of the exponent, if there is one. -/
  exponent : Option (Bool × List Char)
  deriving DecidableEq, Repr

/-- What a number denotes. -/
inductive JsonNumber where
  /-- A natural number of at most 64 bits. -/
  | natural (n : Nat)
  /-- The integer `-n`, for `n` from one to `2 ^ 63`. -/
  | negative (n : Nat)
  /-- Any other number in range. -/
  | real (x : Binary64)
  /-- A number too large for binary64. -/
  | outOfRange
  deriving DecidableEq, Repr

namespace Numeral

/-- Appends digits to a significand while it stays within 64 bits. Returns the significand and how many
digits went in. -/
def accumulate : Nat → List Char → Nat × Nat
  | n, [] => (n, 0)
  | n, d :: ds =>
    let m := 10 * n + Decimal.digitValue d
    if Binary64.wordMax < m then (n, 0)
    else
      let (r, k) := accumulate m ds
      (r, k + 1)

/-- The number nearest to `10 ^ k`. -/
def powerOfTen (k : Nat) : Binary64 := Binary64.ofDecimal 1 k

/-- The largest power of ten that is finite. -/
def maxPower : Nat := 308

/-- Divides by `10 ^ k`, at most `10 ^ maxPower` at a time, and stops at zero. Three steps take every
64-bit significand to zero. -/
def divideByPower : Nat → Binary64 → Nat → Binary64
  | 0, f, _ => f
  | n + 1, f, k =>
    if k ≤ maxPower then f / powerOfTen k
    else if f.isZero then f
    else divideByPower n (f / powerOfTen maxPower) (k - maxPower)

/-- The number `significand · 10 ^ e`, if it is finite. -/
def scaled (significand : Nat) (e : Int) : JsonNumber :=
  let f := Binary64.ofNat significand
  if e < 0 then .real (divideByPower 4 f e.natAbs)
  else if maxPower < e.natAbs then (if f.isZero then .real f else .outOfRange)
  else
    let x := f * powerOfTen e.natAbs
    if x.isInfinite then .outOfRange else .real x

/-- The largest exponent that is read; one with a larger magnitude means zero or infinity. -/
def maxExponent : Nat := 2147483647

/-- What a written number denotes. -/
def value (n : Numeral) : JsonNumber :=
  let (whole, taken) := accumulate 0 n.whole
  let dropped := n.whole.length - taken
  if n.fraction.isNone && n.exponent.isNone && dropped == 0 then
    if !n.negative then .natural whole
    else if whole = 0 || 0x8000000000000000 < whole then .real (-(Binary64.ofNat whole))
    else .negative whole
  else
    let (significand, places) := accumulate whole (n.fraction.getD [])
    let shift : Int := (dropped : Int) - places
    let magnitude : JsonNumber :=
      match n.exponent with
      | none => scaled significand shift
      | some (below, ds) =>
        let e := Decimal.ofDigits ds
        if maxExponent < e then
          if significand ≠ 0 && !below then .outOfRange else .real Binary64.zero
        else scaled significand (if below then shift - e else shift + e)
    match magnitude with
    | .real x => .real (if n.negative then -x else x)
    | m => m

end Numeral

/-- The number as binary64, if it is in range. -/
def JsonNumber.toBinary64? : JsonNumber → Option Binary64
  | .natural n => some (Binary64.ofNat n)
  | .negative n => some (-(Binary64.ofNat n))
  | .real x => some x
  | .outOfRange => none

end EventSim
