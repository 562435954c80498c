set_option autoImplicit false

/-!
# Records of comma-separated text

A text is cut into records, and records into fields, byte by byte. Fields are separated by commas and
records end with a line feed, a carriage return, or both; empty lines count for nothing. A field that
begins with a quote runs to the next single quote, and two quotes in it stand for one; what follows its
closing quote still belongs to the field. A quote further on in a field is an ordinary character. The end of
the text ends the last record, even inside quotes.

## Main definitions

* `EventSim.Csv.records` — the records of a text.
* `EventSim.Utf8.decode` — the text of a field, or where it stops being text.
-/

namespace EventSim

namespace Csv

/-- Where in a record the reader is. -/
inductive Mode where
  /-- Before the first field. -/
  | recordStart
  /-- Before any other field. -/
  | fieldStart
  /-- In a field, outside quotes. -/
  | plain
  /-- In a field, inside quotes. -/
  | quoted
  /-- After a quote inside quotes. -/
  | quoteSeen
  deriving DecidableEq, Repr

/-- The reader, with everything read so far in reverse order. -/
structure Reader where
  /-- Where in a record it is. -/
  mode : Mode := .recordStart
  /-- The bytes of the current field. -/
  field : List UInt8 := []
  /-- The finished fields of the current record. -/
  fields : List (List UInt8) := []
  /-- The finished records. -/
  records : List (List (List UInt8)) := []

namespace Reader

/-- The field is complete. -/
def endField (r : Reader) : Reader :=
  { r with mode := .fieldStart, field := [], fields := r.field.reverse :: r.fields }

/-- The record is complete. -/
def endRecord (r : Reader) : Reader :=
  let r := r.endField
  { mode := .recordStart, records := r.fields.reverse :: r.records }

/-- The byte belongs to the field. -/
def push (r : Reader) (mode : Mode) (b : UInt8) : Reader := { r with mode, field := b :: r.field }

/-- The comma. -/
def comma : UInt8 := 0x2c

/-- The quote. -/
def quote : UInt8 := 0x22

/-- Line feed and carriage return. -/
def isLineEnd (b : UInt8) : Bool := b == 0x0a || b == 0x0d

/-- Reads a byte outside quotes. -/
def stepPlain (r : Reader) (b : UInt8) : Reader :=
  if b == comma then r.endField else if isLineEnd b then r.endRecord else r.push .plain b

/-- Reads a byte. -/
def step (r : Reader) (b : UInt8) : Reader :=
  match r.mode with
  | .recordStart =>
    if isLineEnd b then r else if b == quote then { r with mode := .quoted } else r.stepPlain b
  | .fieldStart => if b == quote then { r with mode := .quoted } else r.stepPlain b
  | .plain => r.stepPlain b
  | .quoted => if b == quote then { r with mode := .quoteSeen } else r.push .quoted b
  | .quoteSeen => if b == quote then r.push .quoted b else r.stepPlain b

/-- The records, once the text has ended. -/
def finish (r : Reader) : List (List (List UInt8)) :=
  match r.mode with
  | .recordStart => r.records.reverse
  | _ => r.endRecord.records.reverse

end Reader

/-- Drops the mark that may stand in front of UTF-8 text. -/
def dropMark : List UInt8 → List UInt8
  | 0xef :: 0xbb :: 0xbf :: bs => bs
  | bs => bs

/-- The records of a text, each as its fields. -/
def records (bytes : List UInt8) : List (List (List UInt8)) :=
  ((dropMark bytes).foldl Reader.step {}).finish

end Csv

/-! ## Text -/

namespace Utf8

/-- The byte continues a character. -/
def isContinuation (b : UInt8) : Bool := 0x80 ≤ b && b ≤ 0xbf

/-- The six bits that a continuing byte contributes. -/
def payload (b : UInt8) : Nat := b.toNat % 64

/-- The characters that bytes encode, or the index of the first byte that begins no character. The first
byte of a character is at index `i`. -/
def decodeFrom (i : Nat) : List UInt8 → Except Nat (List Char)
  | [] => .ok []
  | a :: rest =>
    if a < 0x80 then (decodeFrom (i + 1) rest).map (Char.ofNat a.toNat :: ·)
    else
      match rest with
      | b :: rest =>
        if 0xc2 ≤ a && a ≤ 0xdf && isContinuation b then
          (decodeFrom (i + 2) rest).map (Char.ofNat (a.toNat % 32 * 64 + payload b) :: ·)
        else
          match rest with
          | c :: rest =>
            if 0xe0 ≤ a && a ≤ 0xef && isContinuation b && isContinuation c
                && (a != 0xe0 || 0xa0 ≤ b) && (a != 0xed || b ≤ 0x9f) then
              (decodeFrom (i + 3) rest).map
                (Char.ofNat ((a.toNat % 16 * 64 + payload b) * 64 + payload c) :: ·)
            else
              match rest with
              | d :: rest =>
                if 0xf0 ≤ a && a ≤ 0xf4 && isContinuation b && isContinuation c && isContinuation d
                    && (a != 0xf0 || 0x90 ≤ b) && (a != 0xf4 || b ≤ 0x8f) then
                  (decodeFrom (i + 4) rest).map
                    (Char.ofNat (((a.toNat % 8 * 64 + payload b) * 64 + payload c) * 64 + payload d) :: ·)
                else .error i
              | [] => .error i
          | [] => .error i
      | [] => .error i

/-- The text that bytes encode, or the index of the first byte that begins no character. -/
def decode (bytes : List UInt8) : Except Nat String := (decodeFrom 0 bytes).map String.ofList

end Utf8

end EventSim
