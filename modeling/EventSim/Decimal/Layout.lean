import EventSim.Decimal.Shortest

set_option autoImplicit false

/-!
# Written forms of numbers

A `Layout` holds the decisions of one way to write a number: for which sizes it stands in positional
notation, whether a whole number shows a fraction, and how an exponent is spelled. Three layouts are in
use: `plain` for tables and messages, `tagged` for descriptions of values, and `json` for JSON text.
`fixed` writes a number to a given number of places.

## Main definitions

* `EventSim.Layout` — the decisions of one written form.
* `EventSim.Layout.write` — a number in that form.
* `EventSim.Layout.plain`, `tagged`, `json` — the three forms in use.
* `EventSim.Binary64.fixed` — a number to a fixed number of places, a tie going to the even digit.
-/

namespace EventSim

/-- The decisions of one written form of numbers. The *point position* of a decimal is the number of
digits before its point, counted down past zero for leading zeros of the fraction. -/
structure Layout where
  /-- Point positions that are written positionally; all others get an exponent. -/
  positional : Int → Bool
  /-- A whole number ends in `.0` in positional notation. -/
  wholeFraction : Bool
  /-- A positive exponent has a sign. -/
  plusSign : Bool
  /-- What happens halfway between two shortest decimals. -/
  tie : Decimal.Tie

namespace Layout

/-- Tables and messages: positional throughout, whole numbers without a point. -/
def plain : Layout := ⟨fun _ => true, false, false, .up⟩

/-- Descriptions of values: positional from `10⁻⁴` to below `10¹⁶`, always with a point there. -/
def tagged : Layout := ⟨fun p => -3 ≤ p && p ≤ 16, true, false, .up⟩

/-- JSON text: positional from `10⁻⁵` to below `10¹⁶`, always with a point there, and a signed
exponent elsewhere. -/
def json : Layout := ⟨fun p => -4 ≤ p && p ≤ 16, true, true, .even⟩

/-- A row of zeros. -/
def zeros (n : Nat) : String := String.ofList (List.replicate n '0')

/-- A decimal in positional notation, its digits given as text. -/
def positionalText (l : Layout) (ds : List Char) (point : Int) : String :=
  if point ≤ 0 then "0." ++ zeros (-point).toNat ++ String.ofList ds
  else if (ds.length : Int) ≤ point then
    String.ofList ds ++ zeros (point.toNat - ds.length) ++ (if l.wholeFraction then ".0" else "")
  else String.ofList (ds.take point.toNat) ++ "." ++ String.ofList (ds.drop point.toNat)

/-- A decimal with one digit before the point and an exponent. -/
def scientificText (l : Layout) (ds : List Char) (point : Int) : String :=
  let e := point - 1
  let tail := if ds.length ≤ 1 then "" else "." ++ String.ofList (ds.drop 1)
  let sign := if e < 0 then "-" else if l.plusSign then "+" else ""
  String.ofList (ds.take 1) ++ tail ++ "e" ++ sign ++ toString e.natAbs

/-- The magnitude of a finite number in the given form. -/
def writeMagnitude (l : Layout) (x : Binary64) : String :=
  if x.isZero then (if l.wholeFraction then "0.0" else "0")
  else
    let d := Decimal.shortest l.tie x.significand x.exponent
    let ds := Nat.toDigits 10 d.digits
    let point := (ds.length : Int) + d.exponent
    if l.positional point then l.positionalText ds point else l.scientificText ds point

/-- A number in the given form. -/
def write (l : Layout) (x : Binary64) : String :=
  if x.isNaN then "NaN"
  else
    (if x.isNegative then "-" else "") ++
      if x.isInfinite then "inf" else l.writeMagnitude x

end Layout

/-- A number rounded to the given number of places, a tie going to the even digit. A negative number
keeps its sign when it rounds to zero. -/
def Binary64.fixed (places : Nat) (x : Binary64) : String :=
  if x.isNaN then "NaN"
  else
    let sign := if x.isNegative then "-" else ""
    if x.isInfinite then sign ++ "inf"
    else
      let n := Binary64.roundDivEven ((x.significand * Nat.pow 10 places) <<< x.exponent.toNat)
        (1 <<< (-x.exponent).toNat)
      let ds := Nat.toDigits 10 n
      let ds := List.replicate (places + 1 - ds.length) '0' ++ ds
      let whole := ds.length - places
      sign ++ String.ofList (ds.take whole) ++
        (if places = 0 then "" else "." ++ String.ofList (ds.drop whole))

end EventSim
