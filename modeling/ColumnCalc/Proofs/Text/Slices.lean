/-
**Texts cut at bytes.**

A text can be cut where a character starts and where the text ends, and nowhere else; a count of
bytes can be taken from another one unless it is the greater of the two. Here both say whether they
are possible, so a reader that cuts and counts can be shown never to ask for what is not.

* `cut?_eq_some_iff` — where a text can be cut, and into what.
* `findByte?_not` — the byte up to which all characters are of a kind.
* `head?_encode_iff`, `encode_of_ascii` — characters that are one byte each.
-/

import ColumnCalc.Proofs.Text.Utf8

namespace ColumnCalc.Text.Utf8

/-! ### Counting -/

/-- The difference of two counts, unless it is negative. -/
def minus? (whole part : Nat) : Option Nat :=
  if part ≤ whole then some (whole - part) else none

@[simp] theorem minus?_add (part more : Nat) : minus? (part + more) part = some more := by
  rw [minus?, if_pos (Nat.le_add_right ..), Nat.add_sub_cancel_left]

theorem minus?_eq_some_iff {whole part more : Nat} :
    minus? whole part = some more ↔ whole = part + more := by
  constructor
  · intro isMore
    unfold minus? at isMore
    split at isMore
    · cases isMore
      omega
    · cases isMore
  · rintro rfl
    exact minus?_add part more

/-! ### Cutting -/

/-- A text cut behind some bytes, unless they end inside a character or there are fewer of them. -/
def cut? (bytes : Nat) : List Char → Option (List Char × List Char)
  | [] => if bytes = 0 then some ([], []) else none
  | c :: rest =>
    if bytes = 0 then some ([], c :: rest)
    else do
      let further ← minus? bytes c.utf8Size
      let (front, behind) ← cut? further rest
      return (c :: front, behind)

theorem cut?_zero (text : List Char) : cut? 0 text = some ([], text) := by
  cases text <;> rfl

/-- **A text is cut between two characters**: behind as many bytes as those in front take. -/
theorem cut?_eq_some_iff {bytes : Nat} {text front behind : List Char} :
    cut? bytes text = some (front, behind) ↔ text = front ++ behind ∧ size front = bytes := by
  induction text generalizing bytes front with
  | nil =>
    unfold cut?
    split
    · rename_i none
      subst none
      constructor
      · rintro ⟨⟩
        exact ⟨rfl, rfl⟩
      · rintro ⟨nothing, -⟩
        obtain ⟨rfl, rfl⟩ := List.append_eq_nil_iff.1 nothing.symm
        rfl
    · rename_i some
      refine ⟨nofun, ?_⟩
      rintro ⟨nothing, isSize⟩
      obtain ⟨rfl, rfl⟩ := List.append_eq_nil_iff.1 nothing.symm
      exact absurd isSize.symm some
  | cons c rest ih =>
    by_cases none : bytes = 0
    · subst none
      rw [cut?_zero]
      constructor
      · rintro ⟨⟩
        exact ⟨rfl, rfl⟩
      · rintro ⟨split, isSize⟩
        cases front with
        | nil => rw [split, List.nil_append]
        | cons d front => exact absurd isSize (Nat.ne_of_gt (size_pos (List.cons_ne_nil d front)))
    · rw [cut?, if_neg none]
      constructor
      · intro isCut
        obtain ⟨further, isFurther, isCut⟩ := Option.bind_eq_some_iff.1 isCut
        obtain ⟨⟨inside, outside⟩, there, isCut⟩ := Option.bind_eq_some_iff.1 isCut
        cases isCut
        obtain ⟨rfl, rfl⟩ := ih.1 there
        exact ⟨rfl, (minus?_eq_some_iff.1 isFurther).symm⟩
      · rintro ⟨split, isSize⟩
        cases front with
        | nil => exact absurd isSize.symm none
        | cons d front =>
          obtain ⟨rfl, isRest⟩ := List.cons_eq_cons.1 split
          rw [← isSize, size_cons, minus?_add, Option.bind_eq_bind, Option.bind_some,
            ih.2 ⟨isRest, rfl⟩]
          rfl

/-- A text can be cut between two characters. -/
theorem cut?_size (front behind : List Char) :
    cut? (size front) (front ++ behind) = some (front, behind) :=
  cut?_eq_some_iff.2 ⟨rfl, rfl⟩

/-- A text is not cut inside a character. -/
example : cut? 1 ['é', 'a'] = none ∧ cut? 2 ['é', 'a'] = some (['é'], ['a']) := by decide

/-- The first bytes of a text, if they are whole characters. -/
def slice? (bytes : Nat) (text : List Char) : Option (List Char) :=
  (cut? bytes text).map Prod.fst

theorem slice?_size (front behind : List Char) : slice? (size front) (front ++ behind) = front := by
  rw [slice?, cut?_size]
  rfl

/-! ### Finding -/

/-- The byte at which the first character that is sought starts. -/
def findByte? (sought : Char → Bool) : List Char → Option Nat
  | [] => none
  | c :: rest => if sought c then some 0 else (findByte? sought rest).map (c.utf8Size + ·)

/-- **The characters in front of one that is sought** are those up to its byte. -/
theorem findByte?_append {sought : Char → Bool} {front : List Char}
    (passed : ∀ c ∈ front, sought c = false) (behind : List Char) :
    findByte? sought (front ++ behind) = (findByte? sought behind).map (size front + ·) := by
  induction front with
  | nil =>
    rw [List.nil_append, size_nil]
    simp only [Nat.zero_add, Option.map_id']
  | cons c front ih =>
    obtain ⟨isPassed, further⟩ := List.forall_mem_cons.1 passed
    rw [List.cons_append, findByte?, if_neg (Bool.eq_false_iff.1 isPassed), ih further,
      Option.map_map]
    refine congrArg (Option.map · _) (funext fun byte => ?_)
    exact (Nat.add_assoc ..).symm

/-- **All characters of a kind at the start of a text**: they go on up to the first one of another
kind, or to the end. -/
theorem findByte?_not (kind : Char → Bool) (text : List Char) :
    (findByte? (fun c => !kind c) text).getD (size text) = size (text.takeWhile kind) := by
  induction text with
  | nil => rfl
  | cons c rest ih =>
    cases isKind : kind c with
    | true =>
      rw [List.takeWhile_cons_of_pos isKind, size_cons, size_cons, ← ih, findByte?, isKind]
      cases findByte? (fun c => !kind c) rest <;> rfl
    | false =>
      rw [List.takeWhile_cons_of_neg (Bool.eq_false_iff.1 isKind), findByte?, isKind]
      rfl

/-! ### Characters of one byte -/

/-- The byte of a character that is only one. -/
def byteOf (c : Char) : UInt8 :=
  UInt8.ofNat c.toNat

theorem encodeChar_of_ascii {c : Char} (ascii : c.toNat < 0x80) :
    String.utf8EncodeChar c = [byteOf c] := by
  obtain ⟨-, bytes⟩ | ⟨atLeast, -⟩ | ⟨atLeast, -⟩ | ⟨atLeast, -⟩ := encodeChar_cases c
  · exact bytes
  all_goals omega

theorem encode_of_ascii {text : List Char} (ascii : ∀ c ∈ text, c.toNat < 0x80) :
    encode text = text.map byteOf := by
  induction text with
  | nil => rfl
  | cons c rest ih =>
    obtain ⟨isAscii, further⟩ := List.forall_mem_cons.1 ascii
    rw [encode_cons, encodeChar_of_ascii isAscii, ih further]
    rfl

/-- Such characters are as many as their bytes. -/
theorem size_of_ascii {text : List Char} (ascii : ∀ c ∈ text, c.toNat < 0x80) :
    size text = text.length := by
  rw [← length_encode, encode_of_ascii ascii, List.length_map]

/-- **The first byte of a text** is that of such a character exactly if its first character is. -/
theorem head?_encode_iff {c : Char} (ascii : c.toNat < 0x80) (text : List Char) :
    (encode text).head? = some (byteOf c) ↔ text.head? = some c := by
  cases text with
  | nil => exact ⟨nofun, nofun⟩
  | cons first rest =>
    rw [encode_cons]
    constructor
    · intro isFirst
      obtain ⟨byte, more, bytes⟩ : ∃ byte more, String.utf8EncodeChar first = byte :: more := by
        refine List.exists_cons_of_length_pos ?_
        rw [String.length_utf8EncodeChar]
        exact first.utf8Size_pos
      have isByte : byteOf c ∈ String.utf8EncodeChar first := by
        rw [bytes] at isFirst ⊢
        cases isFirst
        exact .head more
      rw [(mem_encodeChar_iff ascii first).1 isByte]
      rfl
    · rintro ⟨⟩
      rw [encodeChar_of_ascii ascii]
      rfl

/-- The byte behind some characters is the first one of the others. -/
theorem getElem?_encode (front behind : List Char) :
    (encode (front ++ behind))[size front]? = (encode behind).head? := by
  rw [encode_append, ← length_encode front, List.getElem?_append_right (Nat.le_refl _),
    Nat.sub_self, List.head?_eq_getElem?]

end ColumnCalc.Text.Utf8
