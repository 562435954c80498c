import EventSim.Binary64.Rounding

set_option autoImplicit false

/-!
# Reading numbers from text

The grammar of a number in a table: an optional sign, then one of the words `inf`, `infinity` and `nan`
in any case, or digits with an optional point, at least one digit on either side of it, and an optional
exponent. The value is the nearest binary64 number; what is too large becomes infinite.

## Main definitions

* `EventSim.Binary64.ofText?` — the number that a text denotes.
-/

namespace EventSim

namespace Decimal

/-- The value of a digit. -/
def digitValue (c : Char) : Nat := c.toNat - '0'.toNat

/-- The natural number that a run of digits denotes. -/
def ofDigits (ds : List Char) : Nat := ds.foldl (fun n c => 10 * n + digitValue c) 0

/-- The leading digits of a text, and the rest. -/
def spanDigits (cs : List Char) : List Char × List Char := cs.span Char.isDigit

/-- An optional sign: whether it is a minus, and the rest. -/
def takeSign : List Char → Bool × List Char
  | '-' :: cs => (true, cs)
  | '+' :: cs => (false, cs)
  | cs => (false, cs)

/-- The exponent that ends a number: nothing, or the letter `e` with a whole number. -/
def readExponent? : List Char → Option Int
  | [] => some 0
  | c :: cs =>
    if c = 'e' || c = 'E' then
      let (negative, cs) := takeSign cs
      let (ds, rest) := spanDigits cs
      if ds.isEmpty || !rest.isEmpty then none
      else some (if negative then -(ofDigits ds : Int) else ofDigits ds)
    else none

/-- The digits, point and exponent of an unsigned number. -/
def readUnsigned? (cs : List Char) : Option Binary64 :=
  let (whole, rest) := spanDigits cs
  let (fraction, rest) : List Char × List Char :=
    match rest with
    | '.' :: rest => spanDigits rest
    | rest => ([], rest)
  if whole.isEmpty && fraction.isEmpty then none
  else (readExponent? rest).map fun e =>
    Binary64.ofDecimal (ofDigits (whole ++ fraction)) (e - (fraction.length : Int))

end Decimal

/-- The number that a text denotes, if it has the form of one. -/
def Binary64.ofText? (s : String) : Option Binary64 :=
  let (negative, cs) := Decimal.takeSign s.toList
  let magnitude : Option Binary64 :=
    match String.ofList (cs.map Char.toLower) with
    | "inf" | "infinity" => some infinity
    | "nan" => some nan
    | _ => Decimal.readUnsigned? cs
  if negative then magnitude.map Binary64.neg else magnitude

end EventSim
