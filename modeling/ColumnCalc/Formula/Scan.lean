/-
**Scanning one item of a formula.**

An item is a token or a lexical error. `lexeme` looks at the characters from a non-blank one on and
says what starts there and how many characters it takes; `scan` skips white space first and gives
positions. Main statements: `lexeme_taken_pos` (an item takes at least one character) and
`scan_shorter` (so scanning ends).

Numbers are scanned by longest match (`numberLength`). A letter, digit, point or underscore right
behind a number makes it malformed as a whole, although only the number itself is taken.
-/

import ColumnCalc.Formula.Token
import ColumnCalc.Text.Blank
import ColumnCalc.Text.Letters
import ColumnCalc.Text.Utf8

namespace ColumnCalc

open Text (isBlank isAlphabetic isAlphanumeric)

/-- What a formula's text is made of: tokens and lexical errors. -/
abbrev Item := Except FormulaError Token

namespace Scan

/-- A character that may start a name. -/
def startsName (c : Char) : Bool :=
  c == '_' || isAlphabetic c

/-- A character that may continue a name. -/
def continuesName (c : Char) : Bool :=
  c == '_' || isAlphanumeric c

/-- A character that may not follow a number directly. -/
def continuesNumber (c : Char) : Bool :=
  c == '.' || continuesName c

/-- The number of digits at the start of a text. -/
def digitCount (text : List Char) : Nat :=
  (splitDigits text).1.length

/-- The length of the exponent at the start of a text: a mark, an optional sign and at least one
digit, or nothing. -/
def exponentLength : List Char → Nat
  | [] => 0
  | mark :: rest =>
    if mark = 'e' ∨ mark = 'E' then
      let sign := match rest with
        | '+' :: _ | '-' :: _ => 1
        | _ => 0
      let power := digitCount (rest.drop sign)
      if 0 < power then 1 + sign + power else 0
    else 0

/-- The length of the digits at the start of a text, with a point among or behind them. -/
def mantissaLength (text : List Char) : Nat :=
  let whole := digitCount text
  match text.drop whole with
  | '.' :: rest => whole + (1 + digitCount rest)
  | _ => whole

/-- The length of the number at the start of a text: digits, an optional fraction and an optional
exponent. -/
def numberLength (text : List Char) : Nat :=
  mantissaLength text + exponentLength (text.drop (mantissaLength text))

/-- The kind of a character that is always a token by itself. -/
def single? : Char → Option TokenKind
  | '(' => some .leftParen
  | ')' => some .rightParen
  | '[' => some .leftBracket
  | ']' => some .rightBracket
  | '\x7b' => some .leftBrace
  | '\x7d' => some .rightBrace
  | ',' => some .comma
  | '-' => some .minus
  | '+' => some .plus
  | ';' => some .semicolon
  | ':' => some .colon
  | '%' => some .percent
  | '&' => some .ampersand
  | '|' => some .pipe
  | '^' => some .caret
  | '~' => some .tilde
  | _ => none

/-- A character that makes another token when a second one follows: that second character, the
kind of the pair and the kind of the character alone. -/
def double? : Char → Option (Char × TokenKind × TokenKind)
  | '*' => some ('*', .starStar, .star)
  | '/' => some ('/', .slashSlash, .slash)
  | '!' => some ('=', .bangEqual, .bang)
  | '=' => some ('=', .equalEqual, .equal)
  | '>' => some ('=', .greaterEqual, .greater)
  | '<' => some ('=', .lessEqual, .less)
  | _ => none

/-- Words that are no names. -/
def keyword? : String → Option TokenKind
  | "and" => some .andWord
  | "or" => some .orWord
  | "not" => some .notWord
  | "if" => some .ifWord
  | "else" => some .elseWord
  | "lambda" => some .lambdaWord
  | _ => none

/-- What starts at a character: a token of some characters, or a fault whose span has some length
in bytes; in both cases `taken` characters are passed over. -/
inductive Lexeme where
  | token (kind : TokenKind) (taken : Nat)
  | fault (fault : SyntaxFault) (bytes : Nat) (taken : Nat)

/-- How many characters a lexeme passes over. -/
def Lexeme.taken : Lexeme → Nat
  | .token _ taken => taken
  | .fault _ _ taken => taken

/-- The string literal that starts with a quote in front of `rest`. It ends at the next quote of
its kind; without one only the opening quote is passed over. -/
def stringLexeme (quote : Char) (rest : List Char) : Lexeme :=
  let inside := rest.takeWhile (· != quote)
  if inside.length < rest.length then .token .string (1 + (inside.length + 1))
  else .fault .unterminatedString (Text.Utf8.size (quote :: rest)) 1

/-- The name or keyword at the start of a text. -/
def nameLexeme (c : Char) (rest : List Char) : Lexeme :=
  let more := rest.takeWhile continuesName
  let name := String.ofList (c :: more)
  .token ((keyword? name).getD .name) (1 + more.length)

/-- The number at the start of a text. -/
def numberLexeme (text : List Char) : Lexeme :=
  let length := numberLength text
  let literal := text.take length
  let following := text.drop length
  if following.head?.any continuesNumber then
    let bad := text.takeWhile continuesNumber
    .fault (.malformedNumber (String.ofList bad)) (Text.Utf8.size bad) length
  else
    match readNumber? literal with
    | none => .fault (.unreadableNumber (String.ofList literal)) (Text.Utf8.size literal) length
    | some value =>
      if value.isFinite then .token (.number value) length
      else .fault (.numberOutOfRange (String.ofList literal)) (Text.Utf8.size literal) length

/-- What starts at the character `c` in front of `rest`. -/
def lexeme (c : Char) (rest : List Char) : Lexeme :=
  match single? c with
  | some kind => .token kind 1
  | none =>
    match double? c with
    | some (second, pair, alone) =>
      if rest.head? = some second then .token pair 2 else .token alone 1
    | none =>
      if c = '"' ∨ c = '\'' then stringLexeme c rest
      else if c = '.' ∧ !rest.head?.any Char.isDigit then .token .dot 1
      else if c = '.' ∨ c.isDigit then numberLexeme (c :: rest)
      else if startsName c then nameLexeme c rest
      else .fault (.unexpectedCharacter c) c.utf8Size 1

theorem digitCount_cons_pos {c : Char} (rest : List Char) (digit : c.isDigit) :
    0 < digitCount (c :: rest) := by
  simp [digitCount, splitDigits, digit]

theorem mantissaLength_pos {c : Char} (rest : List Char) (starts : c = '.' ∨ c.isDigit) :
    0 < mantissaLength (c :: rest) := by
  rcases starts with point | digit
  · subst point
    have noDigits : digitCount ('.' :: rest) = 0 := by simp [digitCount, splitDigits]
    simp only [mantissaLength, noDigits, List.drop_zero]
    omega
  · have positive := digitCount_cons_pos rest digit
    simp only [mantissaLength]
    split <;> omega

/-- A text that starts with a digit or a point starts with a number of positive length. -/
theorem numberLength_pos {c : Char} (rest : List Char) (starts : c = '.' ∨ c.isDigit) :
    0 < numberLength (c :: rest) := by
  have positive := mantissaLength_pos rest starts
  simp only [numberLength]
  omega

/-- An item passes over at least one character. -/
theorem lexeme_taken_pos (c : Char) (rest : List Char) : 0 < (lexeme c rest).taken := by
  unfold lexeme
  split
  · simp [Lexeme.taken]
  · split
    · split <;> simp [Lexeme.taken]
    · split
      · simp only [stringLexeme]
        split <;> simp only [Lexeme.taken] <;> omega
      · split
        · simp [Lexeme.taken]
        · split
          · rename_i starts
            have positive := numberLength_pos rest starts
            simp only [numberLexeme]
            split
            · simpa [Lexeme.taken] using positive
            · split
              · simpa [Lexeme.taken] using positive
              · split <;> simpa [Lexeme.taken] using positive
          · split
            · simp only [nameLexeme, Lexeme.taken]
              omega
            · simp [Lexeme.taken]

/-- An item, the byte behind it and the text from there on. -/
structure Scanned where
  item : Item
  stop : Nat
  rest : List Char

/-- The first item of a text that starts at a byte of the formula; none when only white space is
left. -/
def scan (byte : Nat) : List Char → Option Scanned
  | [] => none
  | c :: rest =>
    if isBlank c then scan (byte + c.utf8Size) rest
    else
      let text := c :: rest
      let found := lexeme c rest
      let passed := text.take found.taken
      let item : Item :=
        match found with
        | .token kind _ => .ok ⟨kind, String.ofList passed, byte⟩
        | .fault fault bytes _ => .error (.malformed fault ⟨byte, bytes⟩)
      some ⟨item, byte + Text.Utf8.size passed, text.drop found.taken⟩

/-- Behind an item there is less text than before it. -/
theorem scan_shorter {byte : Nat} {text : List Char} {scanned : Scanned}
    (found : scan byte text = some scanned) : scanned.rest.length < text.length := by
  induction text generalizing byte with
  | nil => simp [scan] at found
  | cons c rest hypothesis =>
    simp only [scan] at found
    split at found
    · have shorter := hypothesis found
      simp only [List.length_cons]
      omega
    · have positive := lexeme_taken_pos c rest
      simp only [Option.some.injEq] at found
      subst found
      simp only [List.length_drop, List.length_cons]
      omega

/-- All items of a text that starts at a byte of the formula. Scanning goes on behind an error. -/
def items (byte : Nat) (text : List Char) : List Item :=
  match _found : scan byte text with
  | none => []
  | some scanned => scanned.item :: items scanned.stop scanned.rest
termination_by text.length
decreasing_by exact scan_shorter _found

end Scan

/-- The items of a formula, in order. -/
def itemsOf (formula : String) : List Item :=
  Scan.items 0 formula.toList

end ColumnCalc
