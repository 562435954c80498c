set_option autoImplicit false

/-!
# Crashes

A computation that breaks down instead of giving an answer leaves a `Crash`. Which computations do so is
part of what the library promises; everything else either succeeds or reports an error of its domain. Numbers
that are kept in words of a fixed width are added without a check, so a sum may begin again at zero; where such
a sum must not have done so, an assertion says it, and a computation whose assertion fails breaks down.

One cause is shared by all tables whose size is a number of the user's: before a table is filled, room for
all its entries is reserved, and that breaks down if no memory could ever hold it.

## Main definitions

* `EventSim.Crash` — what is left of a computation that broke down.
* `EventSim.NoResult` — why a computation has no result that may report an error or break down.
* `EventSim.reserve` — room for a table.

## Main results

* `EventSim.reserve_eq_ok_iff` — how large a table may be.
-/

namespace EventSim

/-- A computation that broke down, with the text it left behind if that was a text. -/
structure Crash where
  /-- The text left behind. -/
  text : Option String
  deriving DecidableEq, Repr, Inhabited

namespace Crash

/-- What is reported of a crash. -/
def message (c : Crash) : String := c.text.getD "non-string panic payload"

/-- A table is larger than any memory. -/
def capacity : Crash := ⟨some "capacity overflow"⟩

/-- Something is looked up beyond the end of a table. -/
def beyondEnd (size index : Nat) : Crash :=
  ⟨some ("index out of bounds: the len is " ++ toString size ++ " but the index is " ++ toString index)⟩

/-- A division by zero leaves no remainder. -/
def zeroDivisor : Crash := ⟨some "attempt to calculate the remainder with a divisor of zero"⟩

/-- The quotient that belongs to a remainder is out of range. -/
def remainderOverflow : Crash := ⟨some "attempt to calculate the remainder with overflow"⟩

/-- Two numbers that must be equal are not. -/
def unequal (left right : Nat) : Crash :=
  ⟨some ("assertion `left == right` failed\n  left: " ++ toString left ++ "\n right: " ++ toString right)⟩

end Crash

/-- Why there is no result. -/
inductive NoResult (ε : Type) where
  /-- For a reason that is reported. -/
  | error (e : ε)
  /-- The computation breaks down. -/
  | crash (c : Crash)
  deriving DecidableEq, Repr

/-! ## Room for tables -/

/-- Reserves room for a table with so many entries of so many bytes each. Sizes are signed 64-bit numbers
of bytes. -/
def reserve (bytes entries : Nat) : Except Crash Unit :=
  if bytes * entries < 0x8000000000000000 then .ok () else .error Crash.capacity

/-- Room can be reserved for just the tables of less than `2 ^ 63` bytes. -/
theorem reserve_eq_ok_iff {bytes entries : Nat} :
    reserve bytes entries = .ok () ↔ bytes * entries < 0x8000000000000000 := by
  unfold reserve
  split
  · exact iff_of_true rfl ‹_›
  · exact iff_of_false (by simp) ‹_›

end EventSim
