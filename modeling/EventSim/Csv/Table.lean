import EventSim.Csv.Record
import EventSim.Decimal.Reader
import EventSim.Files

set_option autoImplicit false

/-!
# Tables

A table is comma-separated text whose first record names the columns. A schema lists the columns that are
wanted; they may stand in any order among others, which are ignored. If the names are not text the columns
are taken by position. Every record must have as many fields as the first.

Records are numbered from zero, the record of names included. The fields of a record are read from left to
right, and the first fault counts.

## Main definitions

* `EventSim.Schema`, `EventSim.Cell` — what is wanted, and what is found.
* `EventSim.TableError` — the faults of a table.
* `EventSim.Schema.rows` — the rows of a table.
-/

namespace EventSim

/-- What the field of a column holds. -/
inductive CellKind where
  /-- A natural number of 64 bits. -/
  | whole
  /-- A number. -/
  | real
  deriving DecidableEq, Repr

/-- A field that has been read. -/
inductive Cell where
  /-- A natural number. -/
  | whole (n : Nat)
  /-- A number. -/
  | real (x : Binary64)
  deriving DecidableEq, Repr

/-- The columns that are wanted. -/
structure Schema where
  /-- What a row is called. -/
  title : String
  /-- The columns by name. -/
  columns : List (String × CellKind)
  deriving Repr

/-- Why a field cannot be read. -/
inductive FieldFault where
  /-- A whole number is empty. -/
  | emptyWhole
  /-- A whole number has something else than digits. -/
  | invalidDigit
  /-- A whole number is too large. -/
  | tooLarge
  /-- A number is empty. -/
  | emptyReal
  /-- A number has not the form of one. -/
  | invalidReal
  deriving DecidableEq, Repr

/-- What the user is told. -/
def FieldFault.message : FieldFault → String
  | .emptyWhole => "cannot parse integer from empty string"
  | .invalidDigit => "invalid digit found in string"
  | .tooLarge => "number too large to fit in target type"
  | .emptyReal => "cannot parse float from empty string"
  | .invalidReal => "invalid float literal"

/-- The faults of a table. -/
inductive TableError where
  /-- A record has not as many fields as the first. -/
  | unequalLengths (record fields expected : Nat)
  /-- A field is not text from the given byte on. -/
  | invalidText (record field byte : Nat)
  /-- A field cannot be read. -/
  | badField (record field : Nat) (why : FieldFault)
  /-- A wanted column occurs twice. -/
  | duplicateColumn (record : Nat) (name : String)
  /-- A wanted column is missing. -/
  | missingColumn (record : Nat) (name : String)
  /-- Columns taken by position run out. -/
  | tooFewFields (record fields : Nat) (title : String) (wanted : Nat)
  deriving DecidableEq, Repr

/-- What the user is told. -/
def TableError.message : TableError → String
  | .unequalLengths record fields expected =>
    "CSV error: record " ++ toString record ++ ": found record with " ++ toString fields
      ++ " fields, but the previous record has " ++ toString expected ++ " fields"
  | .invalidText record field byte =>
    "CSV parse error: record " ++ toString record ++ ": invalid utf-8: invalid UTF-8 in field "
      ++ toString field ++ " near byte index " ++ toString byte
  | .badField record field why =>
    "CSV deserialize error: record " ++ toString record ++ ": field " ++ toString field ++ ": "
      ++ why.message
  | .duplicateColumn record name =>
    "CSV deserialize error: record " ++ toString record ++ ": duplicate field \x60" ++ name ++ "\x60"
  | .missingColumn record name =>
    "CSV deserialize error: record " ++ toString record ++ ": missing field \x60" ++ name ++ "\x60"
  | .tooFewFields record fields title wanted =>
    "CSV deserialize error: record " ++ toString record ++ ": invalid length " ++ toString fields
      ++ ", expected struct " ++ title ++ " with " ++ toString wanted ++ " elements"

/-! ## Fields -/

/-- The value of a digit in the given base. -/
def digitIn? (base : Nat) (c : Char) : Option Nat :=
  let v :=
    if c.isDigit then some (c.toNat - '0'.toNat)
    else if 'a' ≤ c ∧ c ≤ 'z' then some (c.toNat - 'a'.toNat + 10)
    else if 'A' ≤ c ∧ c ≤ 'Z' then some (c.toNat - 'A'.toNat + 10)
    else none
  v.filter (· < base)

/-- The number that digits denote, after the digits that denote `n`. The first digit that is invalid or
leads out of 64 bits decides. -/
def readDigits (base : Nat) : Nat → List Char → Except FieldFault Nat
  | n, [] => .ok n
  | n, c :: cs =>
    match digitIn? base c with
    | none => .error .invalidDigit
    | some d =>
      let m := base * n + d
      if Binary64.wordMax < m then .error .tooLarge else readDigits base m cs

/-- A natural number in the given base, with an optional plus sign. -/
def readWhole (base : Nat) : List Char → Except FieldFault Nat
  | [] => .error .emptyWhole
  | ['+'] => .error .invalidDigit
  | '+' :: cs => readDigits base 0 cs
  | cs => readDigits base 0 cs

/-- A field of the given kind. A whole number that begins with `0x` is hexadecimal. -/
def CellKind.read (kind : CellKind) (text : String) : Except FieldFault Cell :=
  match kind with
  | .whole =>
    match text.toList with
    | '0' :: 'x' :: cs => (readWhole 16 cs).map .whole
    | cs => (readWhole 10 cs).map .whole
  | .real =>
    if text.isEmpty then .error .emptyReal
    else
      match Binary64.ofText? text with
      | some x => .ok (.real x)
      | none => .error .invalidReal

/-! ## Rows -/

namespace Schema

/-- Reads the field of a column, if the column is wanted and has not been found before. -/
def readColumn (s : Schema) (record : Nat) (found : List (String × Cell)) (field : Nat)
    (name text : String) : Except TableError (List (String × Cell)) :=
  match s.columns.lookup name with
  | none => .ok found
  | some kind =>
    if (found.lookup name).isSome then .error (.duplicateColumn record name)
    else
      match kind.read text with
      | .ok cell => .ok ((name, cell) :: found)
      | .error why => .error (.badField record field why)

/-- A row whose columns are named. -/
def readNamed (s : Schema) (names : List String) (record : Nat) (fields : List String) :
    Except TableError (List Cell) := do
  let found ← (names.zip fields).zipIdx.foldlM
    (fun found ((name, text), i) => s.readColumn record found i name text) []
  s.columns.mapM fun (name, _) =>
    match found.lookup name with
    | some cell => .ok cell
    | none => .error (.missingColumn record name)

/-- A row whose columns are taken by position. -/
def readPositional (s : Schema) (record : Nat) (fields : List String) :
    Except TableError (List Cell) :=
  s.columns.zipIdx.mapM fun ((_, kind), i) =>
    match fields[i]? with
    | none => .error (.tooFewFields record i s.title s.columns.length)
    | some text =>
      match kind.read text with
      | .ok cell => .ok cell
      | .error why => .error (.badField record i why)

/-- The texts of all fields of a record. -/
def texts (record : Nat) (fields : List (List UInt8)) : Except TableError (List String) :=
  fields.zipIdx.mapM fun (bytes, i) =>
    match Utf8.decode bytes with
    | .ok text => .ok text
    | .error byte => .error (.invalidText record i byte)

/-- The rows of a table, each with its own first fault. -/
def rows (s : Schema) (bytes : List UInt8) : List (Except TableError (List Cell)) :=
  match Csv.records bytes with
  | [] => []
  | header :: records =>
    let names := (texts 0 header).toOption
    records.zipIdx.map fun (fields, i) => do
      let record := i + 1
      if fields.length ≠ header.length then
        throw (.unequalLengths record fields.length header.length)
      let fields ← texts record fields
      match names with
      | some names => s.readNamed names record fields
      | none => s.readPositional record fields

end Schema

end EventSim
