/-
**Comma-separated records.**

Fields are separated by commas and records end at a line feed, a carriage return or both; blank
lines are no records. A field that starts with a quote runs to the closing one, a doubled quote
standing for one, and what stands behind the closing quote is kept as it is. A field whose quote is
not closed runs to the end.

`readRecords` gives the records with the place where each one starts; `writeRecord` writes one.
-/

import ColumnCalc.Text.Utf8

namespace ColumnCalc.Csv

open Text (Bytes)

/-- Where a reader stands: the number of records, lines and bytes behind it. -/
structure Position where
  record : Nat
  /-- Counted from one. -/
  line : Nat
  byte : Nat
  deriving DecidableEq, Repr

/-- The place at the start of a file. -/
def Position.start : Position := ⟨0, 1, 0⟩

/-- The place behind one more byte. -/
def Position.advance (position : Position) (byte : UInt8) : Position :=
  { position with
    line := position.line + (if byte = 0x0A then 1 else 0), byte := position.byte + 1 }

/-- A record and the place where the reader stood before it; blank lines in front of it lie behind
that place. -/
structure Record where
  position : Position
  fields : List Bytes
  deriving DecidableEq, Repr

/-- Where a reader is within a record. -/
inductive Phase where
  /-- In front of the record, possibly at blank lines. -/
  | recordStart
  /-- Behind a comma. -/
  | fieldStart
  | unquoted
  | quoted
  /-- Behind a quote that closes the field or is the first of two. -/
  | afterQuote
  deriving DecidableEq, Repr

def comma : UInt8 := 0x2C

def quote : UInt8 := 0x22

/-- A byte that ends a record. -/
def isTerminator (byte : UInt8) : Bool :=
  byte == 0x0A || byte == 0x0D

/-- What a byte does. -/
inductive Action where
  /-- Goes on to a phase without adding to the field. -/
  | skip (phase : Phase)
  /-- Adds the byte to the field. -/
  | keep (phase : Phase)
  | endField
  | endRecord

/-- What a byte does outside quotes; `opening` is whether a quote would open a quoted field. -/
def plainAction (opening : Bool) (byte : UInt8) : Action :=
  if opening && byte == quote then .skip .quoted
  else if byte == comma then .endField
  else if isTerminator byte then .endRecord
  else .keep .unquoted

/-- What a byte does in a phase. -/
def action (phase : Phase) (byte : UInt8) : Action :=
  match phase with
  | .recordStart => if isTerminator byte then .skip .recordStart else plainAction true byte
  | .fieldStart => plainAction true byte
  | .unquoted => plainAction false byte
  | .quoted => if byte == quote then .skip .afterQuote else .keep .quoted
  | .afterQuote => if byte == quote then .keep .quoted else plainAction false byte

/-- Reads the records from a place on. `start` is the place where the current record was begun,
`fields` and `field` hold what was read of it, last first. -/
def readFrom (phase : Phase) (start here : Position) (fields : List Bytes) (field : Bytes) :
    Bytes → List Record
  | [] =>
    if phase = .recordStart then [] else [⟨start, (field.reverse :: fields).reverse⟩]
  | byte :: rest =>
    let here := here.advance byte
    match action phase byte with
    | .skip phase => readFrom phase start here fields field rest
    | .keep phase => readFrom phase start here fields (byte :: field) rest
    | .endField => readFrom .fieldStart start here (field.reverse :: fields) [] rest
    | .endRecord =>
      let next := { here with record := here.record + 1 }
      ⟨start, (field.reverse :: fields).reverse⟩ :: readFrom .recordStart next next [] [] rest

/-- The records of a file. A byte order mark in front is passed over. -/
def readRecords (bytes : Bytes) : List Record :=
  let text := Text.Utf8.dropByteOrderMark bytes
  let skipped := bytes.length - text.length
  readFrom .recordStart .start { Position.start with byte := skipped } [] [] text

/-- A field must be quoted when it holds a comma, a quote or a line end. -/
def needsQuotes (field : List Char) : Bool :=
  field.any fun c => c == ',' || c == '"' || c == '\r' || c == '\n'

/-- A quoted text, with the quotes inside doubled. -/
def quoteField (field : List Char) : List Char :=
  '"' :: field.flatMap (fun c => if c = '"' then ['"', '"'] else [c]) ++ ['"']

/-- The written form of a field. -/
def writeField (field : List Char) : List Char :=
  if needsQuotes field then quoteField field else field

/-- The written form of a record, its line end included. A record that would be a blank line is
written as a quoted empty field. -/
def writeRecord (fields : List (List Char)) : List Char :=
  let line := [','].intercalate (fields.map writeField)
  (if line.isEmpty then ['"', '"'] else line) ++ ['\n']

end ColumnCalc.Csv
