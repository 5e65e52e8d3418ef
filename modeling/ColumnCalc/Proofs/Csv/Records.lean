/-
**Records, written and read back.**

The reader goes through the bytes one at a time; what it has to do for a written record is put
together from pieces (`Adds`): a piece of the text takes the reader from one phase to another and
adds bytes to the field at hand, wherever the reader stands and whatever it read before.

* `adds_writeField` — a written field, quoted or not, adds the bytes of the field;
* `readFrom_writeRecord` — a written record is read as one record with the fields it was made of;
* `fields_readFrom` — so is every record of a list, and no blank line comes between.
-/

import ColumnCalc.Csv.Record
import ColumnCalc.Proofs.Text.Utf8

namespace ColumnCalc.Csv

open Text (Bytes)
open Text.Utf8 (encode encode_nil encode_cons encode_append encode_eq_nil_iff mem_encode_iff
  mem_encodeChar_iff)

/-! ### Pieces of a field -/

/-- Reading `bytes` leads from one phase to another and adds `kept` to the field at hand. -/
def Adds (phase : Phase) (bytes kept : Bytes) (next : Phase) : Prop :=
  ∀ start here fields field rest, ∃ there,
    readFrom phase start here fields field (bytes ++ rest)
      = readFrom next start there fields (kept.reverse ++ field) rest

theorem Adds.nil (phase : Phase) : Adds phase [] [] phase :=
  fun _ here _ _ _ => ⟨here, rfl⟩

theorem Adds.keep {phase next : Phase} {byte : UInt8} (keeps : action phase byte = .keep next) :
    Adds phase [byte] [byte] next := by
  intro start here fields field rest
  refine ⟨here.advance byte, ?_⟩
  simp only [List.singleton_append, readFrom, keeps, List.reverse_singleton]

theorem Adds.skip {phase next : Phase} {byte : UInt8} (skips : action phase byte = .skip next) :
    Adds phase [byte] [] next := by
  intro start here fields field rest
  refine ⟨here.advance byte, ?_⟩
  simp only [List.singleton_append, readFrom, skips, List.reverse_nil, List.nil_append]

theorem Adds.append {phase middle next : Phase} {first second keptFirst keptSecond : Bytes}
    (firstAdds : Adds phase first keptFirst middle)
    (secondAdds : Adds middle second keptSecond next) :
    Adds phase (first ++ second) (keptFirst ++ keptSecond) next := by
  intro start here fields field rest
  obtain ⟨between, toMiddle⟩ := firstAdds start here fields field (second ++ rest)
  obtain ⟨there, toNext⟩ := secondAdds start between fields (keptFirst.reverse ++ field) rest
  refine ⟨there, ?_⟩
  rw [List.append_assoc, toMiddle, toNext, List.reverse_append, List.append_assoc]

/-- Bytes that are kept one by one in a phase are kept together. -/
theorem Adds.keepAll {phase : Phase} {bytes : Bytes}
    (keeps : ∀ byte ∈ bytes, action phase byte = .keep phase) : Adds phase bytes bytes phase := by
  induction bytes with
  | nil => exact .nil phase
  | cons byte rest ih =>
    exact (Adds.keep (keeps byte (.head _))).append
      (ih fun other member => keeps other (.tail _ member))

/-! ### One field -/

/-- A phase in which a field starts. -/
def Phase.Opens (phase : Phase) : Prop :=
  phase = .recordStart ∨ phase = .fieldStart

/-- A byte that may stand anywhere in a field without quotes. -/
def PlainByte (byte : UInt8) : Prop :=
  byte ≠ comma ∧ byte ≠ quote ∧ isTerminator byte = false

theorem PlainByte.kept {byte : UInt8} (plain : PlainByte byte) {phase : Phase}
    (outside : phase.Opens ∨ phase = .unquoted) : action phase byte = .keep .unquoted := by
  obtain ⟨noComma, noQuote, noEnd⟩ := plain
  rcases outside with (rfl | rfl) | rfl <;>
    simp [action, plainAction, noComma, noQuote, noEnd]

/-- A field that needs no quotes is made of plain bytes. -/
theorem plainByte_of_mem {field : List Char} (noQuotes : needsQuotes field = false) {byte : UInt8}
    (member : byte ∈ encode field) : PlainByte byte := by
  have absent : ∀ special : Char, special.toNat < 0x80 → special ∉ field →
      byte ≠ UInt8.ofNat special.toNat := by
    rintro special isSmall notMember rfl
    exact notMember ((mem_encode_iff isSmall field).1 member)
  simp only [needsQuotes, List.any_eq_false, Bool.or_eq_true, beq_iff_eq, not_or] at noQuotes
  have noLineFeed := absent '\n' (by decide) fun isMember => (noQuotes _ isMember).2 rfl
  have noReturn := absent '\r' (by decide) fun isMember => (noQuotes _ isMember).1.2 rfl
  refine ⟨absent ',' (by decide) fun isMember => (noQuotes _ isMember).1.1.1 rfl,
    absent '"' (by decide) fun isMember => (noQuotes _ isMember).1.1.2 rfl, ?_⟩
  simp only [isTerminator, Bool.or_eq_false_iff, beq_eq_false_iff_ne]
  exact ⟨noLineFeed, noReturn⟩

/-- A field without quotes. -/
theorem adds_plain {field : List Char} (noQuotes : needsQuotes field = false)
    (nonempty : field ≠ []) {phase : Phase} (opens : phase.Opens) :
    Adds phase (encode field) (encode field) .unquoted := by
  have plain : ∀ byte ∈ encode field, PlainByte byte := fun byte => plainByte_of_mem noQuotes
  cases bytes : encode field with
  | nil => exact absurd (encode_eq_nil_iff.1 bytes) nonempty
  | cons byte rest =>
    rw [bytes] at plain
    exact (Adds.keep ((plain byte (.head _)).kept (.inl opens))).append
      (.keepAll fun other member => (plain other (.tail _ member)).kept (.inr rfl))

/-- Between quotes a quote is doubled and any other character stands for itself. -/
theorem adds_quotedChar (c : Char) :
    Adds .quoted (encode (if c = '"' then ['"', '"'] else [c])) (encode [c]) .quoted := by
  split
  · rename_i isQuote
    subst isQuote
    have first : action .quoted quote = .skip .afterQuote := rfl
    have second : action .afterQuote quote = .keep .quoted := rfl
    exact (Adds.skip first).append (.keep second)
  · rename_i noQuote
    refine .keepAll fun byte member => ?_
    have other : byte ≠ quote := by
      rintro rfl
      rw [encode_cons, encode_nil, List.append_nil] at member
      exact noQuote ((mem_encodeChar_iff (by decide) c).1 member)
    simp [action, other]

theorem adds_quotedText (text : List Char) :
    Adds .quoted (encode (text.flatMap fun c => if c = '"' then ['"', '"'] else [c]))
      (encode text) .quoted := by
  induction text with
  | nil => exact .nil _
  | cons c rest ih =>
    rw [List.flatMap_cons, encode_append, show c :: rest = [c] ++ rest from rfl, encode_append [c]]
    exact (adds_quotedChar c).append ih

/-- A quoted field. -/
theorem adds_quoteField (field : List Char) {phase : Phase} (opens : phase.Opens) :
    Adds phase (encode (quoteField field)) (encode field) .afterQuote := by
  have opened : action phase quote = .skip .quoted := by
    rcases opens with rfl | rfl <;> rfl
  have closed : action .quoted quote = .skip .afterQuote := rfl
  rw [quoteField, List.cons_append, ← List.singleton_append, encode_append, encode_append,
    ← List.nil_append (encode field), ← List.append_nil (encode field)]
  exact (Adds.skip opened).append ((adds_quotedText field).append (.skip closed))

/-- **A written field adds the bytes of the field.** The reader stays in front of the record only
when nothing was written. -/
theorem adds_writeField (field : List Char) {phase : Phase} (opens : phase.Opens) :
    ∃ next, Adds phase (encode (writeField field)) (encode field) next ∧ next ≠ .quoted ∧
      (next = .recordStart → phase = .recordStart ∧ writeField field = []) := by
  unfold writeField
  by_cases quotes : needsQuotes field = true
  · rw [if_pos quotes]
    exact ⟨.afterQuote, adds_quoteField field opens, by decide,
      fun impossible => by cases impossible⟩
  rw [if_neg quotes]
  by_cases isEmpty : field = []
  · subst isEmpty
    refine ⟨phase, .nil phase, ?_, fun isStart => ⟨isStart, rfl⟩⟩
    rcases opens with rfl | rfl <;> decide
  · exact ⟨.unquoted, adds_plain (Bool.not_eq_true _ ▸ quotes) isEmpty opens, by decide,
      fun impossible => by cases impossible⟩

/-! ### One record -/

theorem readFrom_comma {phase : Phase} (outside : phase ≠ .quoted) (start here : Position)
    (fields : List Bytes) (field rest : Bytes) :
    readFrom phase start here fields field (comma :: rest)
      = readFrom .fieldStart start (here.advance comma) (field.reverse :: fields) [] rest := by
  have ends : action phase comma = .endField := by
    cases phase <;> first | rfl | exact absurd rfl outside
  simp only [readFrom, ends]

theorem readFrom_lineFeed {phase : Phase} (outside : phase ≠ .quoted) (begun : phase ≠ .recordStart)
    (start here : Position) (fields : List Bytes) (field rest : Bytes) :
    ∃ next, readFrom phase start here fields field (0x0A :: rest)
      = ⟨start, (field.reverse :: fields).reverse⟩
        :: readFrom .recordStart next next [] [] rest := by
  have ends : action phase 0x0A = .endRecord := by
    cases phase <;> first | rfl | exact absurd rfl outside | exact absurd rfl begun
  simp only [readFrom, ends]
  exact ⟨_, rfl⟩

/-- Fields separated by commas, up to the line end, are the fields of one record, unless nothing
at all was written in front of the line end. -/
theorem readFrom_line (field : List Char) (more : List (List Char)) {phase : Phase}
    (opens : phase.Opens) (start here : Position) (done : List Bytes) (rest : Bytes)
    (notBlank : phase = .recordStart → [','].intercalate ((field :: more).map writeField) ≠ []) :
    ∃ next, readFrom phase start here done []
        (encode ([','].intercalate ((field :: more).map writeField)) ++ 0x0A :: rest)
      = ⟨start, done.reverse ++ (field :: more).map encode⟩
        :: readFrom .recordStart next next [] [] rest := by
  induction more generalizing field phase here done with
  | nil =>
    obtain ⟨closing, adds, outside, blank⟩ := adds_writeField field opens
    -- In front of a record the line end would be passed over as a blank line.
    have begun : closing ≠ .recordStart := by
      intro isStart
      obtain ⟨phaseIsStart, nothing⟩ := blank isStart
      refine notBlank phaseIsStart ?_
      simpa using nothing
    obtain ⟨there, read⟩ := adds start here done [] (0x0A :: rest)
    obtain ⟨next, ended⟩ :=
      readFrom_lineFeed outside begun start there done (encode field).reverse rest
    refine ⟨next, ?_⟩
    simpa [ended] using read
  | cons second more ih =>
    obtain ⟨closing, adds, outside, _⟩ := adds_writeField field opens
    obtain ⟨there, read⟩ := adds start here done []
      (comma :: (encode ([','].intercalate ((second :: more).map writeField)) ++ 0x0A :: rest))
    obtain ⟨next, further⟩ := ih second (.inr rfl) (there.advance comma) (encode field :: done)
      fun impossible => by cases impossible
    refine ⟨next, ?_⟩
    rw [List.reverse_cons, List.append_assoc] at further
    rw [List.map_cons, List.map_cons, List.intercalate_cons_cons, encode_append, encode_append,
      List.append_assoc, List.append_assoc]
    refine read.trans ?_
    rw [readFrom_comma outside, List.append_nil, List.reverse_reverse]
    exact further

/-- Only a single empty field is written as nothing. -/
theorem eq_nil_of_line {field : List Char} {more : List (List Char)}
    (blank : [','].intercalate ((field :: more).map writeField) = []) : field = [] ∧ more = [] := by
  cases more with
  | nil =>
    rw [List.map_singleton, List.intercalate_singleton, writeField] at blank
    by_cases quotes : needsQuotes field = true
    · rw [if_pos quotes] at blank
      cases blank
    · rw [if_neg quotes] at blank
      exact ⟨blank, rfl⟩
  | cons second more =>
    rw [List.map_cons, List.map_cons, List.intercalate_cons_cons] at blank
    simp at blank

/-- **A written record is read as one record**, also when it would be a blank line. -/
theorem readFrom_writeRecord {record : List (List Char)} (nonempty : record ≠ [])
    (start here : Position) (rest : Bytes) :
    ∃ next, readFrom .recordStart start here [] [] (encode (writeRecord record) ++ rest)
      = ⟨start, record.map encode⟩ :: readFrom .recordStart next next [] [] rest := by
  obtain ⟨field, more, rfl⟩ := List.exists_cons_of_ne_nil nonempty
  simp only [writeRecord]
  rw [encode_append, List.append_assoc]
  by_cases blank : ([','].intercalate ((field :: more).map writeField)).isEmpty = true
  · rw [if_pos blank]
    -- What stands instead of the blank line is the quoted form of its one empty field.
    obtain ⟨rfl, rfl⟩ := eq_nil_of_line (List.isEmpty_iff.1 blank)
    obtain ⟨there, read⟩ := adds_quoteField [] (.inl rfl) start here [] [] (0x0A :: rest)
    have outside : Phase.afterQuote ≠ .quoted := by decide
    obtain ⟨next, ended⟩ := readFrom_lineFeed outside (by decide) start there [] [] rest
    exact ⟨next, read.trans ended⟩
  · rw [if_neg blank]
    exact readFrom_line field more (.inl rfl) start here [] rest fun _ nothing =>
      blank (List.isEmpty_iff.2 nothing)

/-- **Written records are read back**, in their order. -/
theorem fields_readFrom {records : List (List (List Char))}
    (nonempty : ∀ record ∈ records, record ≠ []) (start here : Position) :
    (readFrom .recordStart start here [] [] (encode (records.flatMap writeRecord))).map
        Record.fields
      = records.map (·.map encode) := by
  induction records generalizing start here with
  | nil => rfl
  | cons record records ih =>
    obtain ⟨next, read⟩ := readFrom_writeRecord (nonempty record (.head _)) start here
      (encode (records.flatMap writeRecord))
    rw [List.flatMap_cons, encode_append, read, List.map_cons, List.map_cons,
      ih fun other member => nonempty other (.tail _ member)]

end ColumnCalc.Csv
