/-
**UTF-8, read and written.**

`encode` writes the bytes of a text. `decode` reads the longest prefix of a byte string that is
well formed and gives back what is left, so the place of the first fault is the number of bytes
read. `decodeChar_shorter` says that each character takes at least one byte.
-/

namespace ColumnCalc.Text

/-- The contents of a file or of a field of one. -/
abbrev Bytes := List UInt8

namespace Utf8

/-- A byte that continues a character. -/
def isTail (byte : UInt8) : Bool :=
  0x80 ≤ byte && byte ≤ 0xBF

/-- The six low bits of a continuation byte. -/
def tailBits (byte : UInt8) : Nat :=
  byte.toNat % 0x40

/-- The character of a code point, unless it is a surrogate, lies beyond the last plane or could
be written in fewer bytes (`least` is the least code point of this length). -/
def charOf? (least code : Nat) : Option Char :=
  if least ≤ code ∧ code.isValidChar then some (Char.ofNat code) else none

/-- The first character and the bytes behind it. -/
def decodeChar? : Bytes → Option (Char × Bytes)
  | [] => none
  | first :: rest =>
    if first < 0x80 then some (Char.ofNat first.toNat, rest)
    else if 0xC0 ≤ first ∧ first < 0xE0 then
      match rest with
      | second :: rest =>
        if isTail second then
          (charOf? 0x80 (first.toNat % 0x20 * 0x40 + tailBits second)).map (·, rest)
        else none
      | _ => none
    else if 0xE0 ≤ first ∧ first < 0xF0 then
      match rest with
      | second :: third :: rest =>
        if isTail second && isTail third then
          (charOf? 0x800 (first.toNat % 0x10 * 0x1000 + tailBits second * 0x40
            + tailBits third)).map (·, rest)
        else none
      | _ => none
    else if 0xF0 ≤ first ∧ first < 0xF8 then
      match rest with
      | second :: third :: fourth :: rest =>
        if isTail second && isTail third && isTail fourth then
          (charOf? 0x10000 (first.toNat % 0x08 * 0x40000 + tailBits second * 0x1000
            + tailBits third * 0x40 + tailBits fourth)).map (·, rest)
        else none
      | _ => none
    else none

/-- A character takes at least one byte. -/
theorem decodeChar_shorter {bytes rest : Bytes} {c : Char}
    (decoded : decodeChar? bytes = some (c, rest)) : rest.length < bytes.length := by
  unfold decodeChar? at decoded
  repeat' split at decoded
  all_goals first
    | contradiction
    | (simp only [Option.some.injEq, Prod.mk.injEq, Option.map_eq_some_iff] at decoded; grind)

/-- The characters of the longest well-formed prefix, and the bytes behind it. -/
def decode (bytes : Bytes) : List Char × Bytes :=
  match _decoded : decodeChar? bytes with
  | none => ([], bytes)
  | some (c, rest) =>
    let more := decode rest
    (c :: more.1, more.2)
termination_by bytes.length
decreasing_by exact decodeChar_shorter _decoded

/-- The text, when the bytes are well formed throughout. -/
def text? (bytes : Bytes) : Option (List Char) :=
  match decode bytes with
  | (text, []) => some text
  | _ => none

/-- The number of bytes in front of the first fault. -/
def validLength (bytes : Bytes) : Nat :=
  bytes.length - (decode bytes).2.length

/-- The bytes of a text. -/
def encode (text : List Char) : Bytes :=
  text.flatMap String.utf8EncodeChar

/-- The number of bytes of a text. -/
def size (text : List Char) : Nat :=
  text.foldr (fun c size => c.utf8Size + size) 0

@[simp] theorem size_nil : size [] = 0 := rfl

@[simp] theorem size_cons (c : Char) (rest : List Char) :
    size (c :: rest) = c.utf8Size + size rest := rfl

@[simp] theorem size_append (first second : List Char) :
    size (first ++ second) = size first + size second := by
  induction first with
  | nil => simp
  | cons c rest hypothesis => simp only [List.cons_append, size_cons, hypothesis]; omega

@[simp] theorem length_encode (text : List Char) : (encode text).length = size text := by
  induction text with
  | nil => rfl
  | cons c rest hypothesis => simp_all [encode]

/-- The byte order mark. -/
def byteOrderMark : Bytes := [0xEF, 0xBB, 0xBF]

/-- A text file without the byte order mark it may start with. -/
def dropByteOrderMark : Bytes → Bytes
  | 0xEF :: 0xBB :: 0xBF :: rest => rest
  | bytes => bytes

end Utf8

end ColumnCalc.Text
