set_option autoImplicit false

/-!
# Binary64 numbers

Numbers of a simulation are IEEE 754 binary64 values, held as their 64 bits so that the sign of a
zero and the sign and payload of a NaN are part of the value. Two numbers are equal when their
bits are equal.

Two orders are in use. `rank` realises the total order of the standard: negative NaNs, `-∞`, the
negative numbers, `-0`, `+0`, the positive numbers, `+∞`, positive NaNs. `numericLt` is the usual
comparison, in which the two zeros are equal and a NaN is not comparable.

## Main definitions

* `EventSim.Binary64` — a number, as its bits.
* `EventSim.Binary64.rank` — the position of a number in the total order.
* `EventSim.Binary64.add`, `sub`, `mul`, `div` — rounded arithmetic that carries NaNs through.

## Main results

* `EventSim.Binary64.rank_inj` — the total order separates any two numbers.
-/

namespace EventSim

/-- A binary64 number, given by its bits. -/
structure Binary64 where
  /-- Sign bit, eleven exponent bits and fifty-two fraction bits. -/
  bits : UInt64
  deriving DecidableEq, Hashable, Repr, Inhabited

namespace Binary64

/-! ## Parts and classes -/

/-- The bits below the sign. -/
def magnitude (x : Binary64) : UInt64 := x.bits % 0x8000000000000000

/-- The sign bit is set. -/
def isNegative (x : Binary64) : Bool := 0x8000000000000000 ≤ x.bits

/-- Neither infinite nor a NaN. -/
def isFinite (x : Binary64) : Bool := x.magnitude < 0x7ff0000000000000

/-- One of the two infinities. -/
def isInfinite (x : Binary64) : Bool := x.magnitude == 0x7ff0000000000000

/-- Not a number, whatever its sign. -/
def isNaN (x : Binary64) : Bool := 0x7ff0000000000000 < x.magnitude

/-- One of the two zeros. -/
def isZero (x : Binary64) : Bool := x.magnitude == 0

/-- Finite and strictly above zero. -/
def isPositiveFinite (x : Binary64) : Bool := 0 < x.bits && x.bits < 0x7ff0000000000000

/-- The number with the opposite sign bit. -/
def neg (x : Binary64) : Binary64 := ⟨x.bits ^^^ 0x8000000000000000⟩

instance : Neg Binary64 := ⟨neg⟩

/-- Positive zero. -/
def zero : Binary64 := ⟨0⟩

/-- Positive infinity. -/
def infinity : Binary64 := ⟨0x7ff0000000000000⟩

/-- Negative infinity. -/
def negInfinity : Binary64 := ⟨0xfff0000000000000⟩

/-- The positive quiet NaN. -/
def nan : Binary64 := ⟨0x7ff8000000000000⟩

/-! ## The total order -/

/-- The position of a number in the total order, from the negative NaNs up to the positive ones.
Bits with a clear sign count upwards from the middle, bits with a set sign count downwards. -/
def rank (x : Binary64) : UInt64 :=
  if x.bits < 0x8000000000000000 then x.bits + 0x8000000000000000
  else 0xffffffffffffffff - x.bits

/-- The rank as a natural number. -/
theorem rank_toNat (x : Binary64) :
    x.rank.toNat =
      if x.bits.toNat < 0x8000000000000000 then x.bits.toNat + 0x8000000000000000
      else 0xffffffffffffffff - x.bits.toNat := by
  have hlt : x.bits.toNat < 2 ^ 64 := x.bits.toNat_lt
  have hcond : x.bits < (0x8000000000000000 : UInt64) ↔ x.bits.toNat < 0x8000000000000000 := by
    rw [UInt64.lt_iff_toNat_lt]; rfl
  unfold rank
  by_cases h : x.bits.toNat < 0x8000000000000000
  · rw [if_pos (hcond.2 h), if_pos h, UInt64.toNat_add]
    have : (0x8000000000000000 : UInt64).toNat = 0x8000000000000000 := rfl
    omega
  · rw [if_neg (fun hc => h (hcond.1 hc)), if_neg h, UInt64.toNat_sub]
    have : (0xffffffffffffffff : UInt64).toNat = 0xffffffffffffffff := rfl
    omega

/-- The total order separates any two numbers. -/
theorem rank_inj {x y : Binary64} (h : x.rank = y.rank) : x = y := by
  have hx := rank_toNat x
  have hy := rank_toNat y
  have hxl : x.bits.toNat < 2 ^ 64 := x.bits.toNat_lt
  have hyl : y.bits.toNat < 2 ^ 64 := y.bits.toNat_lt
  have hxy : x.rank.toNat = y.rank.toNat := by rw [h]
  have hb : x.bits.toNat = y.bits.toNat := by
    rw [hx, hy] at hxy
    split at hxy <;> split at hxy <;> omega
  cases x; cases y
  exact congrArg Binary64.mk (UInt64.toNat_inj.1 hb)

/-- The usual comparison of numbers: the zeros are equal and a NaN is below nothing. -/
def numericLt (x y : Binary64) : Bool :=
  !x.isNaN && !y.isNaN && !(x.isZero && y.isZero) && x.rank < y.rank

/-! ## Arithmetic -/

/-- The quiet NaN with the same sign and payload. -/
def quiet (x : Binary64) : Binary64 := ⟨x.bits ||| 0x0008000000000000⟩

/-- The NaN that an operation without a value produces: its sign bit is set. -/
def invalid : Binary64 := ⟨0xfff8000000000000⟩

/-- The number as a machine float, which keeps all but the sign and payload of a NaN. -/
def toFloat (x : Binary64) : Float := Float.ofBits x.bits

/-- Rounded arithmetic on numbers. A NaN operand is passed on, the left one first; an operation
that has no value gives `invalid`. -/
def lift₂ (op : Float → Float → Float) (x y : Binary64) : Binary64 :=
  if x.isNaN then x.quiet
  else if y.isNaN then y.quiet
  else
    let r : Binary64 := ⟨(op x.toFloat y.toFloat).toBits⟩
    if r.isNaN then invalid else r

/-- The rounded sum. -/
def add : Binary64 → Binary64 → Binary64 := lift₂ (· + ·)

/-- The rounded difference. -/
def sub : Binary64 → Binary64 → Binary64 := lift₂ (· - ·)

/-- The rounded product. -/
def mul : Binary64 → Binary64 → Binary64 := lift₂ (· * ·)

/-- The rounded quotient. -/
def div : Binary64 → Binary64 → Binary64 := lift₂ (· / ·)

instance : Add Binary64 := ⟨add⟩
instance : Sub Binary64 := ⟨sub⟩
instance : Mul Binary64 := ⟨mul⟩
instance : Div Binary64 := ⟨div⟩

end Binary64

end EventSim
