/-
**Escaped texts.**

A text can be written between tags or in an attribute in many ways: a character stands for itself
unless it would be read as markup, or it is written as a reference, by name or by number
(`Escaped`). Whichever way is taken, reading gives the text back.

* `unescape_of_escaped` — the characters, with the references replaced;
* `text_of_escaped` — the same from bytes.
-/

import ColumnCalc.Proofs.Text.Utf8
import ColumnCalc.Xml.Tag

namespace ColumnCalc.Xml

open Text (Bytes)
open Text.Utf8 (encode text_encode mem_encode_iff)

/-- Digits in a base write a number; zeros in front are digits, too. -/
def Writes (base : Nat) (digit? : Char → Option Nat) (digits : List Char) (number : Nat) : Prop :=
  ∃ values : List Nat, digits.map digit? = values.map some ∧
    values.foldl (base * · + ·) 0 = number

/-- **What stands for a character between an ampersand and a semicolon.** -/
inductive Refers : List Char → Char → Prop
  | less : Refers "lt".toList '<'
  | greater : Refers "gt".toList '>'
  | ampersand : Refers "amp".toList '&'
  | apostrophe : Refers "apos".toList '\''
  | quote : Refers "quot".toList '"'
  | decimal {digits : List Char} {c : Char} (few : digits.length ≤ 7) (visible : c.toNat ≠ 0)
      (writes : Writes 10 decimalValue? digits c.toNat) : Refers ('#' :: digits) c
  | hexadecimal {digits : List Char} {c : Char} (few : digits.length ≤ 6) (visible : c.toNat ≠ 0)
      (writes : Writes 16 hexValue? digits c.toNat) : Refers ('#' :: 'x' :: digits) c

/-- **The ways to write a text between tags or in an attribute.** -/
inductive Escaped : List Char → List Char → Prop
  | nil : Escaped [] []
  | plain {c : Char} {raw text : List Char} (noTag : c ≠ '<') (noReference : c ≠ '&')
      (rest : Escaped raw text) : Escaped (c :: raw) (c :: text)
  | reference {name : List Char} {c : Char} {raw text : List Char} (refers : Refers name c)
      (rest : Escaped raw text) : Escaped ('&' :: (name ++ ';' :: raw)) (c :: text)

/-! ### References -/

theorem digitsNumber_of_writes {base most : Nat} {digit? : Char → Option Nat} {digits : List Char}
    {number : Nat} (few : digits.length ≤ most) (writes : Writes base digit? digits number) :
    digitsNumber? base most digit? digits = some number := by
  obtain ⟨values, areDigits, isNumber⟩ := writes
  have folded : ∀ (digits : List Char) (values : List Nat) (start : Nat),
      digits.map digit? = values.map some →
      digits.foldlM (fun number digit => (digit? digit).map (base * number + ·)) start
        = some (values.foldl (base * · + ·) start) := by
    intro digits
    induction digits with
    | nil =>
      intro values start same
      cases values with
      | nil => rfl
      | cons _ _ => cases same
    | cons digit digits ih =>
      intro values start same
      cases values with
      | nil => cases same
      | cons value values =>
        obtain ⟨first, others⟩ := List.cons.inj same
        rw [List.foldlM_cons, first]
        exact ih values (base * start + value) others
  rw [digitsNumber?, if_neg (Nat.not_lt.2 few), folded digits values 0 areDigits, isNumber]

theorem charOfNumber_toNat {c : Char} (visible : c.toNat ≠ 0) :
    charOfNumber? c.toNat = some c := by
  have valid : c.toNat.isValidChar := c.valid
  rw [charOfNumber?, if_pos ⟨visible, valid⟩, Char.ofNat_toNat]

/-- A digit of a number that is written is one. -/
theorem exists_value_of_writes {base : Nat} {digit? : Char → Option Nat} {digits : List Char}
    {number : Nat} (writes : Writes base digit? digits number) {c : Char} (member : c ∈ digits) :
    ∃ value, digit? c = some value := by
  obtain ⟨values, areDigits, _⟩ := writes
  have isMapped := List.mem_map_of_mem (f := digit?) member
  rw [areDigits] at isMapped
  obtain ⟨value, _, same⟩ := List.mem_map.1 isMapped
  exact ⟨value, same.symm⟩

theorem Refers.reference_eq {name : List Char} {c : Char} (refers : Refers name c) :
    reference? name = some c := by
  cases refers with
  | decimal few visible writes =>
    rename_i digits
    have number := digitsNumber_of_writes few writes
    unfold reference?
    split
    · rename_i same
      cases same
      obtain ⟨value, isDigit⟩ := exists_value_of_writes writes (.head _)
      cases isDigit
    · rename_i same
      cases same
      rw [number]
      exact charOfNumber_toNat visible
    · rename_i other
      exact absurd rfl (other digits)
  | hexadecimal few visible writes =>
    show digitsNumber? 16 6 hexValue? _ >>= charOfNumber? = some c
    rw [digitsNumber_of_writes few writes]
    exact charOfNumber_toNat visible
  | _ => rfl

/-- No character of a reference starts another one, ends it or opens a tag. -/
theorem Refers.inside {name : List Char} {c : Char} (refers : Refers name c) :
    '&' ∉ name ∧ ';' ∉ name ∧ '<' ∉ name := by
  have noMark : ∀ {base : Nat} {digit? : Char → Option Nat} {digits : List Char} {number : Nat}
      {mark : Char}, Writes base digit? digits number → digit? mark = none → mark ∉ digits := by
    intro _ _ _ _ mark writes noDigit member
    obtain ⟨value, isDigit⟩ := exists_value_of_writes writes member
    rw [noDigit] at isDigit
    cases isDigit
  cases refers with
  | decimal _ _ writes =>
    exact ⟨by simpa using noMark writes rfl, by simpa using noMark writes rfl,
      by simpa using noMark writes rfl⟩
  | hexadecimal _ _ writes =>
    exact ⟨by simpa using noMark writes rfl, by simpa using noMark writes rfl,
      by simpa using noMark writes rfl⟩
  | _ => decide

/-- Up to its semicolon the characters of a reference are gathered. -/
theorem unescapeFrom_name {name : List Char} (noStart : '&' ∉ name) (noEnd : ';' ∉ name)
    (pending raw : List Char) :
    unescapeFrom? (some pending) (name ++ ';' :: raw)
      = reference? (name.reverse ++ pending).reverse >>= fun c =>
          (unescapeFrom? none raw).map (c :: ·) := by
  induction name generalizing pending with
  | nil =>
    have noStart : ';' ≠ '&' := by decide
    rw [List.nil_append, unescapeFrom?, if_neg noStart, if_pos rfl, List.reverse_nil,
      List.nil_append]
    cases reference? pending.reverse with
    | none => rfl
    | some c => cases unescapeFrom? none raw <;> rfl
  | cons c name ih =>
    simp only [List.mem_cons, not_or] at noStart noEnd
    have notStart : c ≠ '&' := fun same => noStart.1 same.symm
    have notEnd : c ≠ ';' := fun same => noEnd.1 same.symm
    rw [List.cons_append, unescapeFrom?]
    simp only [notStart, notEnd, if_false]
    rw [ih noStart.2 noEnd.2, List.reverse_cons, List.append_assoc, List.singleton_append]

/-! ### Texts -/

/-- **An escaped text reads back**, whichever way it is written. -/
theorem unescape_of_escaped {raw text : List Char} (escaped : Escaped raw text) :
    unescape? raw = some text := by
  induction escaped with
  | nil => rfl
  | plain noTag noReference _ ih =>
    unfold unescape? at ih ⊢
    rw [unescapeFrom?, if_neg noReference, ih]
    rfl
  | @reference name c raw text refers _ ih =>
    obtain ⟨noStart, noEnd, _⟩ := refers.inside
    unfold unescape? at ih ⊢
    rw [unescapeFrom?, if_pos rfl, unescapeFrom_name noStart noEnd, List.append_nil,
      List.reverse_reverse, refers.reference_eq, ih]
    rfl

/-- No character of an escaped text opens a tag. -/
theorem Escaped.noTag {raw text : List Char} (escaped : Escaped raw text) : '<' ∉ raw := by
  induction escaped with
  | nil => simp
  | plain noTag _ _ ih => simp [ih, Ne.symm noTag]
  | reference refers _ ih => simp [ih, refers.inside.2.2]

theorem Escaped.eq_nil_iff {raw text : List Char} (escaped : Escaped raw text) :
    raw = [] ↔ text = [] := by
  cases escaped <;> simp

/-- A text with everything that could be markup replaced is one way to write it. -/
theorem escaped_escape (text : List Char) : Escaped (escape text) text := by
  induction text with
  | nil => exact .nil
  | cons c rest ih =>
    rw [escape, List.flatMap_cons, escapeChar]
    split
    · next same => exact same ▸ .reference .less ih
    · split
      · next same => exact same ▸ .reference .greater ih
      · split
        · next same => exact same ▸ .reference .ampersand ih
        · split
          · next same => exact same ▸ .reference .apostrophe ih
          · split
            · next same => exact same ▸ .reference .quote ih
            · next noTag _ noReference _ _ => exact .plain noTag noReference ih

/-- An escaped text may stand between double quotation marks. -/
theorem quote_notMem_escape (text : List Char) : 0x22 ∉ encode (escape text) := by
  intro inside
  have quote : '"' ∈ escape text := (mem_encode_iff (by decide) _).1 inside
  obtain ⟨c, _, inCharacter⟩ := List.mem_flatMap.1 quote
  revert inCharacter
  rw [escapeChar]
  -- Five characters are replaced by references, and none of these holds a quotation mark.
  iterate 5
    split
    · decide
  · next isOther => simpa using Ne.symm isOther

theorem text_of_escaped {raw text : List Char} (escaped : Escaped raw text) :
    text? (encode raw) = some text := by
  rw [text?, text_encode]
  exact unescape_of_escaped escaped

end ColumnCalc.Xml
