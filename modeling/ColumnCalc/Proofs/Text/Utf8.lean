/-
**UTF-8, there and back.**

What `encode` writes, `decode` reads:

* `decodeChar_encodeChar` — one character, whatever follows it, by the number of bytes it takes;
* `decode_encode`, `text_encode` — a whole text, with nothing left over;
* `mem_encode_iff` — a byte below 0x80 stands for its character and is part of no other one, so a
  reader that looks for such bytes needs no decoding;
* `encode_lt` — texts are ordered as their bytes are;
* `size_toList` — the length of a string in bytes is that of its characters;
* `dropByteOrderMark_encode` — a text that does not start with U+FEFF has no byte order mark.
-/

import ColumnCalc.Text.Utf8

namespace ColumnCalc.Text.Utf8

/-! ### Lengths -/

theorem size_pos {text : List Char} (nonempty : text ≠ []) : 0 < size text := by
  obtain ⟨c, rest, rfl⟩ := List.exists_cons_of_ne_nil nonempty
  have positive := c.utf8Size_pos
  rw [size_cons]
  omega

theorem size_toList (string : String) : size string.toList = string.utf8ByteSize := by
  have ofList (text : List Char) : size text = (String.ofList text).utf8ByteSize := by
    induction text with
    | nil => rfl
    | cons c rest ih =>
      rw [size_cons, ih, String.ofList_cons, String.utf8ByteSize_append,
        String.utf8ByteSize_singleton]
  rw [ofList, String.ofList_toList]

/-! ### Single bytes -/

/-- The value of a byte that is given by its number. -/
theorem toNat_byte {number : Nat} (small : number < 256) : (UInt8.ofNat number).toNat = number :=
  UInt8.toNat_ofNat_of_lt' small

/-- A continuation byte is recognised. -/
theorem isTail_byte (bits : Nat) : isTail (UInt8.ofNat (bits % 0x40 + 0x80)) = true := by
  have value := toNat_byte (show bits % 0x40 + 0x80 < 256 by omega)
  simp only [isTail, Bool.and_eq_true, decide_eq_true_eq, UInt8.le_iff_toNat_le, value,
    UInt8.toNat_ofNat]
  omega

/-- A continuation byte gives back the bits it was made of. -/
theorem tailBits_byte (bits : Nat) :
    tailBits (UInt8.ofNat (bits % 0x40 + 0x80)) = bits % 0x40 := by
  rw [tailBits, toNat_byte (by omega)]
  omega

theorem toNat_lt (c : Char) : c.toNat < 0x110000 := by
  have valid : c.toNat.isValidChar := c.valid
  simp only [Nat.isValidChar] at valid
  omega

/-- The code point of a character is accepted where the character needs that many bytes. -/
theorem charOf_toNat {c : Char} {least code : Nat} (same : code = c.toNat)
    (needed : least ≤ c.toNat) : charOf? least code = some c := by
  have valid : c.toNat.isValidChar := c.valid
  rw [charOf?, same, if_pos ⟨needed, valid⟩, Char.ofNat_toNat]

/-! ### One character -/

/-- The bytes of a character of each length. -/
theorem encodeChar_cases (c : Char) :
    (c.toNat < 0x80 ∧ String.utf8EncodeChar c = [UInt8.ofNat c.toNat]) ∨
    (0x80 ≤ c.toNat ∧ c.toNat < 0x800 ∧ String.utf8EncodeChar c =
      [UInt8.ofNat (c.toNat / 64 % 0x20 + 0xC0), UInt8.ofNat (c.toNat % 0x40 + 0x80)]) ∨
    (0x800 ≤ c.toNat ∧ c.toNat < 0x10000 ∧ String.utf8EncodeChar c =
      [UInt8.ofNat (c.toNat / 4096 % 0x10 + 0xE0), UInt8.ofNat (c.toNat / 64 % 0x40 + 0x80),
        UInt8.ofNat (c.toNat % 0x40 + 0x80)]) ∨
    (0x10000 ≤ c.toNat ∧ String.utf8EncodeChar c =
      [UInt8.ofNat (c.toNat / 262144 % 0x08 + 0xF0), UInt8.ofNat (c.toNat / 4096 % 0x40 + 0x80),
        UInt8.ofNat (c.toNat / 64 % 0x40 + 0x80), UInt8.ofNat (c.toNat % 0x40 + 0x80)]) := by
  have value : c.val.toNat = c.toNat := rfl
  simp only [String.utf8EncodeChar, value]
  split
  · exact .inl ⟨by omega, rfl⟩
  split
  · exact .inr (.inl ⟨by omega, by omega, rfl⟩)
  split
  · exact .inr (.inr (.inl ⟨by omega, by omega, rfl⟩))
  · exact .inr (.inr (.inr ⟨by omega, rfl⟩))

/-- **A written character is read back**, whatever follows it. -/
theorem decodeChar_encodeChar (c : Char) (rest : Bytes) :
    decodeChar? (String.utf8EncodeChar c ++ rest) = some (c, rest) := by
  have bound := toNat_lt c
  -- One goal for each length. The value of the first byte decides which branch reads it.
  obtain ⟨small, bytes⟩ | ⟨atLeast, small, bytes⟩ | ⟨atLeast, small, bytes⟩ | ⟨atLeast, bytes⟩ :=
    encodeChar_cases c <;> rw [bytes]
  · have first := toNat_byte (show c.toNat < 256 by omega)
    simp only [List.cons_append, List.nil_append, decodeChar?, UInt8.lt_iff_toNat_lt, first,
      UInt8.toNat_ofNat]
    rw [if_pos (by omega), Char.ofNat_toNat]
  · have first := toNat_byte (show c.toNat / 64 % 0x20 + 0xC0 < 256 by omega)
    simp only [List.cons_append, List.nil_append, decodeChar?, UInt8.lt_iff_toNat_lt,
      UInt8.le_iff_toNat_le, first, UInt8.toNat_ofNat, isTail_byte, tailBits_byte, if_true]
    rw [if_neg (by omega), if_pos (by omega), charOf_toNat (c := c) (by omega) atLeast]
    rfl
  · have first := toNat_byte (show c.toNat / 4096 % 0x10 + 0xE0 < 256 by omega)
    simp only [List.cons_append, List.nil_append, decodeChar?, UInt8.lt_iff_toNat_lt,
      UInt8.le_iff_toNat_le, first, UInt8.toNat_ofNat, isTail_byte, tailBits_byte, Bool.and_true,
      if_true]
    rw [if_neg (by omega), if_neg (by omega), if_pos (by omega),
      charOf_toNat (c := c) (by omega) atLeast]
    rfl
  · have first := toNat_byte (show c.toNat / 262144 % 0x08 + 0xF0 < 256 by omega)
    simp only [List.cons_append, List.nil_append, decodeChar?, UInt8.lt_iff_toNat_lt,
      UInt8.le_iff_toNat_le, first, UInt8.toNat_ofNat, isTail_byte, tailBits_byte, Bool.and_true,
      if_true]
    rw [if_neg (by omega), if_neg (by omega), if_neg (by omega), if_pos (by omega),
      charOf_toNat (c := c) (by omega) atLeast]
    rfl

/-- A byte below 0x80 is part of its own character only. -/
theorem mem_encodeChar_iff {small : Char} (isSmall : small.toNat < 0x80) (c : Char) :
    UInt8.ofNat small.toNat ∈ String.utf8EncodeChar c ↔ c = small := by
  have value := toNat_byte (show small.toNat < 256 by omega)
  constructor
  · intro member
    rw [← Char.toNat_inj]
    obtain ⟨_, bytes⟩ | ⟨_, _, bytes⟩ | ⟨_, _, bytes⟩ | ⟨_, bytes⟩ := encodeChar_cases c <;>
      simp only [bytes, List.mem_cons, List.not_mem_nil, or_false, ← UInt8.toNat_inj, value]
        at member
    · rw [toNat_byte (by omega)] at member
      exact member.symm
    all_goals
      repeat rw [toNat_byte (by omega)] at member
      omega
  · rintro rfl
    obtain ⟨_, bytes⟩ | ⟨_, _⟩ | ⟨_, _⟩ | ⟨_, _⟩ := encodeChar_cases c
    · rw [bytes]
      exact .head _
    all_goals omega

/-- **The bytes of a lesser character come first**, whatever follows them. -/
theorem encodeChar_lt {c d : Char} (less : c < d) (first second : Bytes) :
    String.utf8EncodeChar c ++ first < String.utf8EncodeChar d ++ second := by
  have order : c.toNat < d.toNat := less
  have bound := toNat_lt d
  -- Characters of different lengths differ in the first byte.
  obtain ⟨small, bytes⟩ | ⟨atLeast, small, bytes⟩ | ⟨atLeast, small, bytes⟩ | ⟨atLeast, bytes⟩ :=
    encodeChar_cases c <;>
  obtain ⟨small', bytes'⟩ | ⟨atLeast', small', bytes'⟩ | ⟨atLeast', small', bytes'⟩ |
    ⟨atLeast', bytes'⟩ := encodeChar_cases d <;>
  rw [bytes, bytes'] <;>
  simp only [List.cons_append, List.nil_append, List.cons_lt_cons_iff, UInt8.lt_iff_toNat_lt,
    ← UInt8.toNat_inj, UInt8.toNat_ofNat']
  case inr.inr.inr.inr.inr.inr =>
    rcases Nat.lt_or_ge (c.toNat / 262144) (d.toNat / 262144) with before | notBefore
    · exact .inl (by omega)
    refine .inr ⟨by omega, ?_⟩
    rcases Nat.lt_or_ge (c.toNat / 4096) (d.toNat / 4096) with before | notBefore
    · exact .inl (by omega)
    exact .inr ⟨by omega, by omega⟩
  all_goals omega

/-! ### Texts -/

@[simp] theorem encode_nil : encode [] = [] := rfl

theorem encode_cons (c : Char) (rest : List Char) :
    encode (c :: rest) = String.utf8EncodeChar c ++ encode rest :=
  List.flatMap_cons

theorem encode_append (first second : List Char) :
    encode (first ++ second) = encode first ++ encode second :=
  List.flatMap_append

theorem encode_eq_nil_iff {text : List Char} : encode text = [] ↔ text = [] := by
  cases text with
  | nil => simp
  | cons c rest => simp [encode_cons]

theorem mem_encode_iff {small : Char} (isSmall : small.toNat < 0x80) (text : List Char) :
    UInt8.ofNat small.toNat ∈ encode text ↔ small ∈ text := by
  simp [encode, mem_encodeChar_iff isSmall]

/-- **Texts are ordered as their bytes are.** -/
theorem encode_lt {first second : List Char} (less : first < second) :
    encode first < encode second := by
  induction first generalizing second with
  | nil =>
    cases second with
    | nil => cases less
    | cons d rest =>
      obtain ⟨byte, bytes, areBytes⟩ := List.exists_cons_of_ne_nil
        (mt encode_eq_nil_iff.1 (List.cons_ne_nil d rest))
      rw [areBytes]
      exact List.nil_lt_cons byte bytes
  | cons c first ih =>
    cases second with
    | nil => cases less
    | cons d second =>
      rw [encode_cons, encode_cons]
      rcases List.cons_lt_cons_iff.1 less with before | ⟨rfl, further⟩
      · exact encodeChar_lt before _ _
      · exact List.append_left_lt (ih further)

/-- **What is written is read back, with nothing left over.** -/
theorem decode_encode (text : List Char) : decode (encode text) = (text, []) := by
  induction text with
  | nil =>
    rw [decode]
    rfl
  | cons c rest ih =>
    rw [encode_cons, decode]
    have first := decodeChar_encodeChar c (encode rest)
    split
    · rename_i none
      rw [none] at first
      cases first
    · rename_i decoded
      rw [first] at decoded
      cases decoded
      simp only [ih]

theorem text_encode (text : List Char) : text? (encode text) = some text := by
  rw [text?, decode_encode]

/-- **A text that does not start with U+FEFF has no byte order mark.** -/
theorem dropByteOrderMark_encode {text : List Char} (noMark : text.head? ≠ some '\uFEFF') :
    dropByteOrderMark (encode text) = encode text := by
  unfold dropByteOrderMark
  split
  · rename_i rest marked
    have mark : decodeChar? (encode text) = some ('\uFEFF', rest) := by
      rw [marked]
      exact decodeChar_encodeChar '\uFEFF' rest
    cases text with
    | nil => cases mark
    | cons c more =>
      rw [encode_cons, decodeChar_encodeChar] at mark
      cases mark
      exact absurd rfl noMark
  · rfl

end ColumnCalc.Text.Utf8
