import EventSim.Binary64.Rounding
import EventSim.Crash

set_option autoImplicit false

/-!
# Random draws

A source of draws yields natural numbers below a bound and numbers in a half-open interval. What is made
from draws is written against this interface, so that it can be studied for every sequence of draws.

The source in use is the generator xoshiro256++ with four 64-bit words of state. A bounded natural is the
high half of a product of 32-bit words, where products that would favour some values are drawn again. A
number in an interval is a uniform fraction of 52 bits, scaled and shifted; one that is rounded up to the
end of the interval is drawn again. Each draw succeeds with probability one half at least, so the limit on
the attempts is never met in practice.

## Main definitions

* `EventSim.Draws` — sources of draws.
* `EventSim.Xoshiro` — the generator.
* `EventSim.Xoshiro.ofSeed` — its state for a seed.
-/

namespace EventSim

/-- Sources of random draws with states in `G`. -/
class Draws (G : Type) where
  /-- A natural number below a positive bound. -/
  below : Nat → G → Nat × G
  /-- A number in a nonempty interval that contains its lower end and not its upper one. -/
  between : Binary64 → Binary64 → G → Binary64 × G

/-- An interval from which a number can be drawn: it is not empty, and its width is finite. -/
def drawable (low high : Binary64) : Bool := low.numericLt high && (high - low).isFinite

/-- What is left of a draw from any other interval. Whether it is empty is looked at before its width. -/
def undrawn (low high : Binary64) : Crash :=
  if low.numericLt high then ⟨some "UniformSampler::sample_single: range overflow"⟩
  else ⟨some "cannot sample empty range"⟩

/-- The state of the generator. -/
structure Xoshiro where
  s0 : UInt64
  s1 : UInt64
  s2 : UInt64
  s3 : UInt64
  deriving DecidableEq, Repr, Inhabited

namespace Xoshiro

/-- The word with its bits moved up in a circle. -/
def rotateLeft (x : UInt64) (k : UInt64) : UInt64 := (x <<< k) ||| (x >>> (64 - k))

/-- The next word. -/
def next (g : Xoshiro) : UInt64 × Xoshiro :=
  let word := rotateLeft (g.s0 + g.s3) 23 + g.s0
  let t := g.s1 <<< 17
  let s2 := g.s2 ^^^ g.s0
  let s3 := g.s3 ^^^ g.s1
  (word, ⟨g.s0 ^^^ s3, g.s1 ^^^ s2, s2 ^^^ t, rotateLeft s3 45⟩)

/-! ## Seeding -/

/-- The next state of the congruential generator that spreads a seed. -/
def spread (state : UInt64) : UInt64 := state * 6364136223846793005 + 11634580027462260723

/-- The 32 bits that a state of it yields: a permutation of its high bits, turned by its highest five. -/
def permute (state : UInt64) : UInt64 :=
  let x := (((state >>> 18) ^^^ state) >>> 27) &&& 0xffffffff
  let k := state >>> 59
  ((x >>> k) ||| (x <<< ((32 - k) % 32))) &&& 0xffffffff

/-- A word made of the next two outputs, the low half first. -/
def seedWord (state : UInt64) : UInt64 × UInt64 :=
  let a := spread state
  let b := spread a
  (permute a ||| (permute b <<< 32), b)

/-- The state for a seed. -/
def ofSeed (seed : UInt64) : Xoshiro :=
  let (s0, state) := seedWord seed
  let (s1, state) := seedWord state
  let (s2, state) := seedWord state
  let (s3, _) := seedWord state
  ⟨s0, s1, s2, s3⟩

/-! ## Draws -/

/-- How often a draw is tried. -/
def attempts : Nat := 4096

/-- A natural number below `bound`, which is positive and has 32 bits. The product of a word and the bound
is accepted when its low half stays within the largest multiple of the bound that is a multiple of a power
of two. -/
def drawBelow (bound : Nat) : Nat → Xoshiro → Nat × Xoshiro
  | 0, g => (0, g)
  | n + 1, g =>
    let (word, g) := g.next
    let product := (word >>> 32).toNat * bound
    let zone := (bound <<< (31 - bound.log2)) - 1
    if product % UInt32.size ≤ zone then (product / UInt32.size, g) else drawBelow bound n g

/-- The fraction of 52 bits that the high bits of a word give. -/
def fraction (word : UInt64) : Binary64 := Binary64.ofScaled (word >>> 12).toNat (-52)

/-- A number from `low` on and below `high`. -/
def drawBetween (low high : Binary64) : Nat → Xoshiro → Binary64 × Xoshiro
  | 0, g => (low, g)
  | n + 1, g =>
    let (word, g) := g.next
    let x := fraction word * (high - low) + low
    if x.numericLt high then (x, g) else drawBetween low high n g

instance : Draws Xoshiro where
  below bound g := drawBelow bound attempts g
  between low high g := drawBetween low high attempts g

end Xoshiro

end EventSim
