import EventSim.Binary64.Rounding

set_option autoImplicit false

/-!
# Shortest decimal digits

The reals that round to a binary64 number form an interval around it, which contains its ends when
the significand is even. Among the decimals in that interval, `shortest` takes one with the fewest
digits, and of those the one nearest to the number.

The search goes through the decimal grids from the coarsest to finer ones. If a grid has a point in
the interval then one of the two neighbours of the number on that grid lies in it, so only these two
are tried; the first grid with a hit wins.

## Main definitions

* `EventSim.Decimal` — a natural number of units of a power of ten.
* `EventSim.Decimal.shortest` — the fewest digits that read back as `m · 2 ^ q`.
-/

namespace EventSim

/-- The decimal `digits · 10 ^ exponent`. -/
structure Decimal where
  /-- The digits, as a natural number. -/
  digits : Nat
  /-- The power of ten that counts as one unit. -/
  exponent : Int
  deriving DecidableEq, Repr

namespace Decimal

/-- What to do with a number halfway between two decimals that are both eligible. -/
inductive Tie where
  /-- Take the larger one. -/
  | up
  /-- Take the one with the even last digit. -/
  | even
  deriving DecidableEq, Repr

/-- A number with the interval of reals that round to it. All three are counted in units of
`1 / denominator`. -/
structure Bracket where
  /-- The lower end. -/
  low : Nat
  /-- The number itself. -/
  value : Nat
  /-- The upper end. -/
  high : Nat
  /-- The common denominator. -/
  denominator : Nat
  /-- Both ends belong to the interval. -/
  closed : Bool

/-- The interval of `m · 2 ^ q`, in quarters of its last place: half a place on either side, and a
quarter below a power of two whose lower neighbour lies closer. -/
def Bracket.ofScaled (m : Nat) (q : Int) : Bracket :=
  let below := if m = 1 <<< 52 ∧ -1074 < q then 1 else 2
  let scale : Nat := 1 <<< (q - 2).toNat
  { low := (4 * m - below) * scale
    value := 4 * m * scale
    high := (4 * m + 2) * scale
    denominator := 1 <<< (2 - q).toNat
    closed := m % 2 = 0 }

/-- The point `c · 10 ^ g` lies in the interval. -/
def Bracket.contains (b : Bracket) (c : Nat) (g : Int) : Bool :=
  let p := c * Nat.pow 10 g.toNat * b.denominator
  let low := b.low * Nat.pow 10 (-g).toNat
  let high := b.high * Nat.pow 10 (-g).toNat
  if b.closed then low ≤ p && p ≤ high else low < p && p < high

/-- The point of the grid `10 ^ g` that stands for the number, if one of its two neighbours on that
grid lies in the interval. -/
def Bracket.onGrid? (b : Bracket) (tie : Tie) (g : Int) : Option Nat :=
  let unit := Nat.pow 10 g.toNat * b.denominator
  let value := b.value * Nat.pow 10 (-g).toNat
  let c := value / unit
  match b.contains c g, b.contains (c + 1) g with
  | false, false => none
  | true, false => some c
  | false, true => some (c + 1)
  | true, true =>
    let r := value % unit
    if 2 * r < unit then some c
    else if unit < 2 * r then some (c + 1)
    else match tie with
      | .up => some (c + 1)
      | .even => some (if c % 2 = 0 then c else c + 1)

/-- Tries the grids `10 ^ g`, `10 ^ (g - 1)`, … in turn. -/
def Bracket.search (b : Bracket) (tie : Tie) : Nat → Int → Decimal
  | 0, g => ⟨b.value * Nat.pow 10 (-g).toNat / (Nat.pow 10 g.toNat * b.denominator), g⟩
  | n + 1, g =>
    match b.onGrid? tie g with
    | some c => ⟨c, g⟩
    | none => b.search tie n (g - 1)

/-- The fewest decimal digits that read back as `m · 2 ^ q`, nearest to it. The search starts on a grid
coarser than the number and ends within eighteen digits. -/
def shortest (tie : Tie) (m : Nat) (q : Int) : Decimal :=
  if m = 0 then ⟨0, 0⟩
  else
    let top : Int := ((m.log2 : Int) + 1 + q) * 30103 / 100000 + 2
    (Bracket.ofScaled m q).search tie 24 top

end Decimal

end EventSim
