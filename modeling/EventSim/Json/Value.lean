import EventSim.Json.Number

set_option autoImplicit false

/-!
# JSON values

The strict grammar of JSON: one value, surrounded by blanks only, with no trailing commas, no leading
zeros and no raw control characters in strings. A string may hold escaped surrogates that do not pair
up; it is still well formed as text, but it denotes no string, and whoever needs its value refuses it.

## Main definitions

* `EventSim.JsonValue` — a value.
* `EventSim.JsonValue.ofText?` — the value that a text denotes.
-/

namespace EventSim

/-- A JSON value. A string that denotes no text is `none`. -/
inductive JsonValue where
  | null
  | bool (b : Bool)
  | number (n : JsonNumber)
  | string (s : Option String)
  | array (items : List JsonValue)
  | object (members : List (Option String × JsonValue))

namespace JsonValue

/-- Blanks between tokens. -/
def isBlank (c : Char) : Bool := c == ' ' || c == '\n' || c == '\t' || c == '\r'

/-- Drops the blanks in front of a token. -/
def skipBlanks (cs : List Char) : List Char := cs.dropWhile isBlank

/-! ## Strings -/

/-- A part of a string: a character, or an escaped UTF-16 unit. -/
inductive Piece where
  | char (c : Char)
  | unit (n : Nat)

/-- The value of a hexadecimal digit. -/
def hexDigit? (c : Char) : Option Nat :=
  if c.isDigit then some (c.toNat - '0'.toNat)
  else if 'a' ≤ c ∧ c ≤ 'f' then some (c.toNat - 'a'.toNat + 10)
  else if 'A' ≤ c ∧ c ≤ 'F' then some (c.toNat - 'A'.toNat + 10)
  else none

/-- The number that four hexadecimal digits denote. -/
def hexUnit? (a b c d : Char) : Option Nat := do
  return (((← hexDigit? a) * 16 + (← hexDigit? b)) * 16 + (← hexDigit? c)) * 16 + (← hexDigit? d)

/-- The character that a backslash and one more character stand for. -/
def escape? : Char → Option Char
  | '"' => some '"'
  | '\\' => some '\\'
  | '/' => some '/'
  | 'b' => some '\x08'
  | 'f' => some '\x0c'
  | 'n' => some '\n'
  | 'r' => some '\r'
  | 't' => some '\t'
  | _ => none

/-- The rest of a string after its opening quote, and the text after the closing one. -/
def readPieces? : List Char → Option (List Piece × List Char)
  | [] => none
  | '"' :: rest => some ([], rest)
  | '\\' :: 'u' :: a :: b :: c :: d :: rest => do
    let n ← hexUnit? a b c d
    let (ps, rest) ← readPieces? rest
    return (.unit n :: ps, rest)
  | '\\' :: e :: rest => do
    let c ← escape? e
    let (ps, rest) ← readPieces? rest
    return (.char c :: ps, rest)
  | c :: rest =>
    if c < ' ' then none
    else do
      let (ps, rest) ← readPieces? rest
      return (.char c :: ps, rest)

/-- The text of some pieces: a high surrogate joins with the low one that follows it, and no other
surrogate may occur. -/
def joinPieces? : List Piece → Option (List Char)
  | [] => some []
  | .char c :: ps => (joinPieces? ps).map (c :: ·)
  | .unit n :: ps =>
    if 0xdc00 ≤ n ∧ n ≤ 0xdfff then none
    else if 0xd800 ≤ n ∧ n ≤ 0xdbff then
      match ps with
      | .unit m :: ps =>
        if 0xdc00 ≤ m ∧ m ≤ 0xdfff then
          (joinPieces? ps).map (Char.ofNat (0x10000 + (n - 0xd800) * 0x400 + (m - 0xdc00)) :: ·)
        else none
      | _ => none
    else (joinPieces? ps).map (Char.ofNat n :: ·)

/-- A string after its opening quote. -/
def readString? (cs : List Char) : Option (Option String × List Char) := do
  let (ps, rest) ← readPieces? cs
  return ((joinPieces? ps).map String.ofList, rest)

/-! ## Numbers -/

/-- The digits before the point: a single zero, or digits that do not begin with one. -/
def readWhole? (cs : List Char) : Option (List Char × List Char) :=
  match Decimal.spanDigits cs with
  | ([], _) => none
  | ('0' :: _ :: _, _) => none
  | (ds, rest) => some (ds, rest)

/-- The fraction, if a point follows. -/
def readFraction? : List Char → Option (Option (List Char) × List Char)
  | '.' :: cs =>
    match Decimal.spanDigits cs with
    | ([], _) => none
    | (ds, rest) => some (some ds, rest)
  | cs => some (none, cs)

/-- The exponent, if its letter follows. -/
def readExponent? (cs : List Char) : Option (Option (Bool × List Char) × List Char) :=
  match cs with
  | [] => some (none, [])
  | c :: rest =>
    if c = 'e' || c = 'E' then
      let (below, rest) := Decimal.takeSign rest
      match Decimal.spanDigits rest with
      | ([], _) => none
      | (ds, rest) => some (some (below, ds), rest)
    else some (none, cs)

/-- A number, with its optional minus sign. -/
def readNumeral? (cs : List Char) : Option (Numeral × List Char) := do
  let (negative, cs) := match cs with
    | '-' :: cs => (true, cs)
    | cs => (false, cs)
  let (whole, cs) ← readWhole? cs
  let (fraction, cs) ← readFraction? cs
  let (exponent, cs) ← readExponent? cs
  return (⟨negative, whole, fraction, exponent⟩, cs)

/-! ## Values -/

mutual

/-- A value at the front of a text, and the text after it. Each nested value begins at least one
character later, so the length of the text bounds the depth. -/
def read? : Nat → List Char → Option (JsonValue × List Char)
  | 0, _ => none
  | n + 1, cs =>
    match skipBlanks cs with
    | '{' :: rest =>
      match skipBlanks rest with
      | '}' :: rest => some (.object [], rest)
      | rest => do
        let (ms, rest) ← readMembers? n rest
        return (.object ms, rest)
    | '[' :: rest =>
      match skipBlanks rest with
      | ']' :: rest => some (.array [], rest)
      | rest => do
        let (vs, rest) ← readItems? n rest
        return (.array vs, rest)
    | '"' :: rest => do
      let (s, rest) ← readString? rest
      return (.string s, rest)
    | 'n' :: 'u' :: 'l' :: 'l' :: rest => some (.null, rest)
    | 't' :: 'r' :: 'u' :: 'e' :: rest => some (.bool true, rest)
    | 'f' :: 'a' :: 'l' :: 's' :: 'e' :: rest => some (.bool false, rest)
    | cs => do
      let (m, rest) ← readNumeral? cs
      return (.number m.value, rest)

/-- The items of an array up to its closing bracket, at least one. -/
def readItems? : Nat → List Char → Option (List JsonValue × List Char)
  | 0, _ => none
  | n + 1, cs => do
    let (v, rest) ← read? n cs
    match skipBlanks rest with
    | ',' :: rest =>
      let (vs, rest) ← readItems? n rest
      return (v :: vs, rest)
    | ']' :: rest => return ([v], rest)
    | _ => none

/-- The members of an object up to its closing brace, at least one. -/
def readMembers? : Nat → List Char → Option (List (Option String × JsonValue) × List Char)
  | 0, _ => none
  | n + 1, cs =>
    match skipBlanks cs with
    | '"' :: rest => do
      let (key, rest) ← readString? rest
      match skipBlanks rest with
      | ':' :: rest =>
        let (v, rest) ← read? n rest
        match skipBlanks rest with
        | ',' :: rest =>
          let (ms, rest) ← readMembers? n rest
          return ((key, v) :: ms, rest)
        | '}' :: rest => return ([(key, v)], rest)
        | _ => none
      | _ => none
    | _ => none

end

/-- The value that a text denotes, if it is JSON. -/
def ofText? (s : String) : Option JsonValue := do
  let cs := s.toList
  let (v, rest) ← read? (cs.length + 1) cs
  if (skipBlanks rest).isEmpty then some v else none

/-! ## Typed values -/

/-- The members of a record, given as an object or as an array.

An object names the members; names that are not asked for are ignored, and a name that is asked for may
occur once. An array gives the first members in order. -/
def record? (names : List String) : JsonValue → Option (List (Option JsonValue))
  | .object ms => do
    let ms ← ms.mapM fun (k, v) => k.map (·, v)
    names.mapM fun name =>
      match ms.filter (·.1 = name) with
      | [] => some none
      | [(_, v)] => some (some v)
      | _ => none
  | .array vs =>
    if vs.length ≤ names.length then
      some (vs.map some ++ List.replicate (names.length - vs.length) none)
    else none
  | _ => none

/-- A natural number below a bound. -/
def natBelow? (bound : Nat) : JsonValue → Option Nat
  | .number (.natural n) => if n < bound then some n else none
  | _ => none

/-- A number. -/
def real? : JsonValue → Option Binary64
  | .number n => n.toBinary64?
  | _ => none

/-- A truth value. -/
def bool? : JsonValue → Option Bool
  | .bool b => some b
  | _ => none

/-- A text. -/
def text? : JsonValue → Option String
  | .string s => s
  | _ => none

/-- A value that may be `null`. -/
def nullable? {α : Type} (f : JsonValue → Option α) : JsonValue → Option (Option α)
  | .null => some none
  | v => (f v).map some

/-- A member that may be missing. -/
def orDefault? {α : Type} (f : JsonValue → Option α) (d : α) : Option JsonValue → Option α
  | none => some d
  | some v => f v

end JsonValue

end EventSim
