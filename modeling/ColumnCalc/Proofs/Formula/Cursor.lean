/-
**Reading a formula ends, and no step of it fails.**

A formula is read by bytes. Slices are cut off at bytes that were found or counted, and the bytes of
the first character, which is passed already, are taken off the others. Here each of these steps
fails if a slice splits a character or goes beyond the text, or if a difference is negative. In no
formula does any step fail, and what is read are its items. Each of them takes at least one
character, malformed ones too, so reading ends.

* `read?_eq` — what starts at a character is read as its lexeme, a case for each start.
* `next?_scan` — the next item is read as it is scanned, and `run?_eq` — so are all items.
* `next_takes` — an item takes characters.
* `exists_starts` — the items start one behind the other.
* `lexing_ends` — all of it, for every formula.
-/

import ColumnCalc.Proofs.Formula.NumeralBytes
import ColumnCalc.Proofs.Formula.Spans
import ColumnCalc.Proofs.Formula.Thresholds

namespace ColumnCalc

open Text (isBlank)
open Text.Utf8 (size encode minus? cut? slice? findByte?)

/-- Where a formula is read: a byte of it, and the text from there on. -/
structure Cursor where
  byte : Nat
  rest : List Char

namespace Cursor

/-- The cursor behind some bytes, unless they end inside a character or there are fewer of them. -/
def advance? (cursor : Cursor) (bytes : Nat) : Option Cursor := do
  let (_, behind) ← cut? bytes cursor.rest
  return ⟨cursor.byte + bytes, behind⟩

/-- The token of some bytes at a cursor. -/
def token? (start : Cursor) (kind : TokenKind) (bytes : Nat) : Option Item := do
  let literal ← slice? bytes start.rest
  return .ok ⟨kind, String.ofList literal, start.byte⟩

/-- The fault of the text from a cursor up to a byte. -/
def fault? (start : Cursor) (fault : SyntaxFault) (stop : Nat) : Option Item := do
  let bytes ← minus? stop start.byte
  return .error (.malformed fault ⟨start.byte, bytes⟩)

/-- The byte at which the characters of a kind end that are at a cursor. -/
def stopOf (kind : Char → Bool) (start : Cursor) : Nat :=
  (findByte? (fun c => !kind c) start.rest).getD (size start.rest)

theorem advance?_eq {cursor : Cursor} {bytes : Nat} {front behind : List Char}
    (split : cursor.rest = front ++ behind) (isSize : size front = bytes) :
    cursor.advance? bytes = some ⟨cursor.byte + bytes, behind⟩ := by
  rw [advance?, Text.Utf8.cut?_eq_some_iff.2 ⟨split, isSize⟩]
  rfl

theorem token?_eq {start : Cursor} {bytes : Nat} {front behind : List Char} (kind : TokenKind)
    (split : start.rest = front ++ behind) (isSize : size front = bytes) :
    start.token? kind bytes = some (.ok ⟨kind, String.ofList front, start.byte⟩) := by
  rw [token?, slice?, Text.Utf8.cut?_eq_some_iff.2 ⟨split, isSize⟩]
  rfl

theorem fault?_eq {start : Cursor} {stop bytes : Nat} (fault : SyntaxFault)
    (isStop : stop = start.byte + bytes) :
    start.fault? fault stop = some (.error (.malformed fault ⟨start.byte, bytes⟩)) := by
  rw [fault?, isStop, Text.Utf8.minus?_add]
  rfl

theorem stopOf_eq (kind : Char → Bool) (start : Cursor) :
    start.stopOf kind = size (start.rest.takeWhile kind) :=
  Text.Utf8.findByte?_not kind start.rest

end Cursor

open Cursor (advance?_eq token?_eq fault?_eq stopOf_eq)

namespace Scan

/-! ### What starts at a character -/

/-- **What starts at a character is read**: `start` is in front of the character and `here` behind it.
The text at fault in a string without an end goes on to the end of the formula, whose length in bytes
is `whole`. -/
def Start.read? (whole : Nat) (c : Char) (start here : Cursor) : Start → Option (Item × Cursor)
  | single kind => do
    let token ← start.token? kind c.utf8Size
    return (token, here)
  | double second pair alone =>
    if here.rest.head? = some second then do
      let after ← here.advance? second.utf8Size
      let token ← start.token? pair (c.utf8Size + second.utf8Size)
      return (token, after)
    else do
      let token ← start.token? alone c.utf8Size
      return (token, here)
  | string =>
    match findByte? (· == c) here.rest with
    | none => do
      let fault ← start.fault? .unterminatedString whole
      return (fault, here)
    | some stop => do
      let after ← here.advance? (stop + c.utf8Size)
      let token ← start.token? .string (stop + 2 * c.utf8Size)
      return (token, after)
  | point => do
    let token ← start.token? .dot c.utf8Size
    return (token, here)
  | number => do
    let length ← numberBytes? (encode start.rest)
    let literal ← slice? length start.rest
    let further ← minus? length c.utf8Size
    let after ← here.advance? further
    if after.rest.head?.any continuesNumber then
      let bad ← slice? (start.stopOf continuesNumber) start.rest
      let fault ← start.fault? (.malformedNumber (String.ofList bad))
        (start.byte + start.stopOf continuesNumber)
      return (fault, after)
    else
      match readNumber? literal with
      | none =>
        let fault ← start.fault? (.unreadableNumber (String.ofList literal)) after.byte
        return (fault, after)
      | some value =>
        if value.isFinite then
          let token ← start.token? (.number value) length
          return (token, after)
        else
          let fault ← start.fault? (.numberOutOfRange (String.ofList literal)) after.byte
          return (fault, after)
  | name => do
    let length := start.stopOf continuesName
    let literal ← slice? length start.rest
    let further ← minus? length c.utf8Size
    let after ← here.advance? further
    let token ← start.token? ((keyword? (String.ofList literal)).getD .name) length
    return (token, after)
  | other => do
    let fault ← start.fault? (.unexpectedCharacter c) here.byte
    return (fault, here)

/-- The item of a lexeme at a byte of the formula, and the cursor behind what it passes over. -/
def Lexeme.read (byte : Nat) (text : List Char) (found : Lexeme) : Item × Cursor :=
  (found.item byte (text.take found.taken),
    ⟨byte + size (text.take found.taken), text.drop found.taken⟩)

section

variable {whole byte : Nat} {c : Char}

/-- A lexeme passes over its first character and some more. -/
theorem read_more {found : Lexeme} {rest : List Char} (more behind : List Char)
    (split : rest = more ++ behind) (isTaken : found.taken = 1 + more.length) :
    found.read byte (c :: rest)
      = (found.item byte (c :: more), ⟨byte + size (c :: more), behind⟩) := by
  have length : found.taken = (c :: more).length := isTaken.trans (Nat.add_comm ..)
  rw [Lexeme.read, length, split, ← List.cons_append, List.take_left, List.drop_left]

/-- The token of these characters. -/
theorem read_token {kind : TokenKind} {taken : Nat} {rest : List Char} (more behind : List Char)
    (split : rest = more ++ behind) (isTaken : taken = 1 + more.length) :
    some (.ok ⟨kind, String.ofList (c :: more), byte⟩, ⟨byte + size (c :: more), behind⟩)
      = some ((Lexeme.token kind taken).read byte (c :: rest)) :=
  congrArg some (@read_more byte c (.token kind taken) rest more behind split isTaken).symm

/-- A fault found there. -/
theorem read_fault {cause : SyntaxFault} {bytes taken : Nat} {rest : List Char}
    (more behind : List Char) (split : rest = more ++ behind) (isTaken : taken = 1 + more.length) :
    some (.error (.malformed cause ⟨byte, bytes⟩), ⟨byte + size (c :: more), behind⟩)
      = some ((Lexeme.fault cause bytes taken).read byte (c :: rest)) :=
  congrArg some (@read_more byte c (.fault cause bytes taken) rest more behind split isTaken).symm

/-- Behind the first character of an item the others are passed over. -/
theorem advance?_more (more behind : List Char) :
    Cursor.advance? ⟨byte + c.utf8Size, more ++ behind⟩ (size more)
      = some ⟨byte + size (c :: more), behind⟩ := by
  rw [@advance?_eq ⟨byte + c.utf8Size, more ++ behind⟩ _ more behind rfl rfl, Nat.add_assoc]
  rfl

/-- The bytes of the first character are among those of an item. -/
theorem minus?_more (more : List Char) : minus? (size (c :: more)) c.utf8Size = some (size more) :=
  Text.Utf8.minus?_add ..

theorem read?_single (kind : TokenKind) (rest : List Char) :
    (Start.single kind).read? whole c ⟨byte, c :: rest⟩ ⟨byte + c.utf8Size, rest⟩
      = some ((Lexeme.token kind 1).read byte (c :: rest)) := by
  have token := @token?_eq ⟨byte, c :: rest⟩ c.utf8Size [c] rest kind rfl rfl
  rw [Start.read?, token]
  exact read_token [] rest rfl rfl

theorem read?_double (second : Char) (pair alone : TokenKind) (rest : List Char) :
    (Start.double second pair alone).read? whole c ⟨byte, c :: rest⟩ ⟨byte + c.utf8Size, rest⟩
      = some (((Start.double second pair alone).lexeme c rest).read byte (c :: rest)) := by
  simp only [Start.read?, Start.lexeme]
  by_cases isPair : rest.head? = some second
  · obtain ⟨behind, rfl⟩ := List.head?_eq_some_iff.1 isPair
    have advanced : Cursor.advance? ⟨byte + c.utf8Size, second :: behind⟩ second.utf8Size
      = some ⟨byte + size [c, second], behind⟩ := advance?_more [second] behind
    have token := @token?_eq ⟨byte, c :: second :: behind⟩ (c.utf8Size + second.utf8Size)
      [c, second] behind pair rfl rfl
    rw [if_pos isPair, if_pos isPair, advanced, token]
    exact read_token [second] behind rfl rfl
  · rw [if_neg isPair, if_neg isPair]
    exact @read?_single whole byte c alone rest

theorem read?_string (rest : List Char) :
    Start.string.read? (byte + size (c :: rest)) c ⟨byte, c :: rest⟩ ⟨byte + c.utf8Size, rest⟩
      = some ((stringLexeme c rest).read byte (c :: rest)) := by
  simp only [Start.read?, stringLexeme]
  have other : ∀ d ∈ rest.takeWhile (· != c), (d == c) = false := fun d member => by
    simpa using List.all_eq_true.1 List.all_takeWhile d member
  by_cases closed : (rest.takeWhile (· != c)).length < rest.length
  · rw [if_pos closed]
    obtain ⟨behind, split⟩ := exists_quote closed
    generalize rest.takeWhile (· != c) = inside at split other
    subst split
    have isStop : findByte? (· == c) (inside ++ c :: behind) = some (size inside) := by
      rw [Text.Utf8.findByte?_append other, findByte?, if_pos (beq_self_eq_true c)]
      rfl
    have split : inside ++ c :: behind = inside ++ [c] ++ behind :=
      (List.append_assoc inside [c] behind).symm
    have bytes : size (inside ++ [c]) = size inside + c.utf8Size := Text.Utf8.size_append ..
    have advanced := @advance?_more byte c (inside ++ [c]) behind
    rw [← split, bytes] at advanced
    have token := @token?_eq ⟨byte, c :: (inside ++ c :: behind)⟩ (size inside + 2 * c.utf8Size)
      (c :: (inside ++ [c])) behind .string (congrArg _ split) (by rw [Text.Utf8.size_cons]; omega)
    simp only [isStop, advanced, token]
    exact read_token (inside ++ [c]) behind split (by rw [List.length_append]; rfl)
  · have all : rest.takeWhile (· != c) = rest :=
      (List.takeWhile_prefix _).eq_of_length_le (Nat.le_of_not_lt closed)
    have unfound : findByte? (· == c) rest = none := by
      rw [← List.append_nil rest, Text.Utf8.findByte?_append (all ▸ other)]
      rfl
    have fault := @fault?_eq ⟨byte, c :: rest⟩ _ (size (c :: rest)) .unterminatedString rfl
    simp only [if_neg closed, unfound, fault]
    exact read_fault [] rest rfl rfl

theorem read?_name (rest : List Char) (starts : startsName c = true) :
    Start.name.read? whole c ⟨byte, c :: rest⟩ ⟨byte + c.utf8Size, rest⟩
      = some ((nameLexeme c rest).read byte (c :: rest)) := by
  have stop : Cursor.stopOf continuesName ⟨byte, c :: rest⟩
      = size (c :: rest.takeWhile continuesName) := by
    rw [stopOf_eq, List.takeWhile_cons_of_pos (continuesName_of_startsName starts)]
  have split : rest = rest.takeWhile continuesName ++ rest.dropWhile continuesName :=
    List.takeWhile_append_dropWhile.symm
  simp only [Start.read?, nameLexeme, stop]
  generalize rest.takeWhile continuesName = more at split
  generalize rest.dropWhile continuesName = behind at split
  subst split
  have literal := Text.Utf8.slice?_size (c :: more) behind
  have advanced := @advance?_more byte c more behind
  have token (kind : TokenKind) := @token?_eq ⟨byte, c :: (more ++ behind)⟩ (size (c :: more))
    (c :: more) behind kind rfl rfl
  rw [List.cons_append] at literal
  simp only [literal, minus?_more, advanced, token, Option.bind_eq_bind, Option.bind_some]
  exact read_token more behind rfl rfl

/-- A number is not empty, and its bytes are counted. -/
theorem exists_counted (rest : List Char) (starts : c = '.' ∨ c.isDigit = true) :
    ∃ more behind, rest = more ++ behind ∧ numberLength (c :: rest) = (c :: more).length ∧
      numberBytes? (encode (c :: rest)) = some (size (c :: more)) := by
  obtain ⟨number, behind, split, length, isNumber⟩ := exists_number (c :: rest)
  have positive := numberLength_pos rest starts
  cases number with
  | nil =>
    rw [length] at positive
    exact absurd positive (Nat.lt_irrefl 0)
  | cons first more =>
    obtain ⟨rfl, isRest⟩ := List.cons_eq_cons.1 split
    refine ⟨more, behind, isRest, length, ?_⟩
    rw [numberBytes?_encode, length, Text.Utf8.size_of_ascii (ascii_of_isNumber isNumber)]

theorem read?_number (rest : List Char) (starts : c = '.' ∨ c.isDigit = true) :
    Start.number.read? whole c ⟨byte, c :: rest⟩ ⟨byte + c.utf8Size, rest⟩
      = some ((numberLexeme (c :: rest)).read byte (c :: rest)) := by
  obtain ⟨more, behind, rfl, length, counted⟩ := exists_counted rest starts
  have literal : slice? (size (c :: more)) (c :: (more ++ behind)) = some (c :: more) :=
    Text.Utf8.slice?_size (c :: more) behind
  have advanced := @advance?_more byte c more behind
  have front : (c :: (more ++ behind)).take (c :: more).length = c :: more := List.take_left
  have following : (c :: (more ++ behind)).drop (c :: more).length = behind := List.drop_left
  have taken : (c :: more).length = 1 + more.length := Nat.add_comm ..
  simp only [Start.read?, numberLexeme, counted, literal, minus?_more, advanced, length, front,
    following, Option.bind_eq_bind, Option.bind_some]
  have fault {bytes : Nat} (cause : SyntaxFault) :=
    @fault?_eq ⟨byte, c :: (more ++ behind)⟩ (byte + bytes) bytes cause rfl
  by_cases goesOn : behind.head?.any continuesNumber = true
  · have bad := Text.Utf8.slice?_size ((c :: (more ++ behind)).takeWhile continuesNumber)
      ((c :: (more ++ behind)).dropWhile continuesNumber)
    rw [List.takeWhile_append_dropWhile] at bad
    rw [if_pos goesOn, if_pos goesOn, stopOf_eq, bad, Option.bind_some, fault]
    exact read_fault more behind rfl taken
  · rw [if_neg goesOn, if_neg goesOn]
    cases readNumber? (c :: more) with
    | none =>
      simp only [fault]
      exact read_fault more behind rfl taken
    | some value =>
      by_cases isFinite : value.isFinite = true
      · have token := @token?_eq ⟨byte, c :: (more ++ behind)⟩ _ (c :: more) behind
          (.number value) rfl rfl
        simp only [if_pos isFinite, token]
        exact read_token more behind rfl taken
      · simp only [if_neg isFinite, fault]
        exact read_fault more behind rfl taken

/-- **What starts at a character is read as its lexeme**, and no step of that fails. -/
theorem read?_eq (rest : List Char) :
    (startOf c rest).read? (byte + size (c :: rest)) c ⟨byte, c :: rest⟩ ⟨byte + c.utf8Size, rest⟩
      = some ((lexeme c rest).read byte (c :: rest)) := by
  have fits := startOf_fits c rest
  rw [lexeme_eq]
  cases starts : startOf c rest <;> rw [starts] at fits
  case single kind => exact read?_single kind rest
  case double second pair alone => exact read?_double second pair alone rest
  case string => exact read?_string rest
  case point => exact @read?_single (byte + size (c :: rest)) byte c .dot rest
  case number => exact read?_number rest fits
  case name => exact read?_name rest fits
  case other =>
    have fault := @fault?_eq ⟨byte, c :: rest⟩ _ c.utf8Size (.unexpectedCharacter c) rfl
    simp only [Start.read?, fault]
    exact read_fault [] rest rfl rfl

end

end Scan

/-! ### One step -/

namespace Cursor

/-- A cursor that is passed on is closer to the end. -/
theorem length_advance {cursor after : Cursor} {bytes : Nat}
    (advanced : cursor.advance? bytes = some after) (positive : 0 < bytes) :
    after.rest.length < cursor.rest.length := by
  obtain ⟨⟨front, behind⟩, isCut, isAfter⟩ := Option.bind_eq_some_iff.1 advanced
  cases isAfter
  obtain ⟨split, isSize⟩ := Text.Utf8.cut?_eq_some_iff.1 isCut
  have nonempty : front ≠ [] := by
    rintro rfl
    exact absurd isSize (Nat.ne_of_lt positive)
  have some := List.length_pos_iff.2 nonempty
  rw [split, List.length_append]
  exact Nat.lt_add_of_pos_left some

/-- **The next item**, or none at the end, in a formula of `whole` bytes. White space is skipped. -/
def next? (whole : Nat) (cursor : Cursor) : Option (Option Item × Cursor) :=
  match _isText : cursor.rest with
  | [] => some (none, cursor)
  | c :: _ =>
    match _isHere : cursor.advance? c.utf8Size with
    | none => none
    | some here =>
      if isBlank c then here.next? whole
      else do
        let (item, after) ← (Scan.startOf c here.rest).read? whole c cursor here
        return (some item, after)
termination_by cursor.rest.length
decreasing_by exact length_advance _isHere c.utf8Size_pos

/-- As many items as are asked for, one after another, whatever they are. -/
def run? (whole : Nat) : Nat → Cursor → Option (List (Option Item))
  | 0, _ => some []
  | count + 1, cursor => do
    let (item, after) ← cursor.next? whole
    let further ← after.run? whole count
    return item :: further

theorem next?_cons (whole byte : Nat) (c : Char) (rest : List Char) :
    next? whole ⟨byte, c :: rest⟩ =
      if isBlank c then next? whole ⟨byte + c.utf8Size, rest⟩
      else do
        let (item, after) ← (Scan.startOf c rest).read? whole c ⟨byte, c :: rest⟩
          ⟨byte + c.utf8Size, rest⟩
        return (some item, after) := by
  have advanced : advance? ⟨byte, c :: rest⟩ c.utf8Size = some ⟨byte + c.utf8Size, rest⟩ :=
    @advance?_eq ⟨byte, c :: rest⟩ _ [c] rest rfl rfl
  rw [next?]
  split
  · rename_i isText
    cases isText
  · rename_i isText
    cases isText
    split
    · rename_i failed
      cases advanced.symm.trans failed
    · rename_i isHere
      cases advanced.symm.trans isHere
      rfl

/-- What a scan answers, and the cursor behind it. -/
def answerOf (byte : Nat) (text : List Char) : Option Scan.Scanned → Option Item × Cursor
  | none => (none, ⟨byte + size text, []⟩)
  | some scanned => (some scanned.item, ⟨scanned.stop, scanned.rest⟩)

/-- **The next item is the one that is scanned**, and no step fails. -/
theorem next?_scan (byte : Nat) (text : List Char) :
    next? (byte + size text) ⟨byte, text⟩ = some (answerOf byte text (Scan.scan byte text)) := by
  induction text generalizing byte with
  | nil =>
    rw [next?]
    rfl
  | cons c rest ih =>
    rw [next?_cons]
    cases blank : isBlank c with
    | true =>
      have further := ih (byte + c.utf8Size)
      rw [Nat.add_assoc] at further
      rw [if_pos rfl, Scan.scan_blank blank, Text.Utf8.size_cons, further]
      cases Scan.scan (byte + c.utf8Size) rest with
      | none => rw [answerOf, answerOf, Text.Utf8.size_cons, Nat.add_assoc]
      | some scanned => rfl
    | false =>
      rw [if_neg Bool.false_ne_true, Scan.scan_solid blank, Scan.read?_eq]
      rfl

end Cursor

namespace Lexer

/-- **Taking an item passes over characters**, at least one. -/
theorem next_takes {lexer : Lexer} {item : Item} (fresh : lexer.peeked = none)
    (taken : lexer.next.1 = some item) :
    ∃ passed, passed ≠ [] ∧ lexer.rest = passed ++ lexer.next.2.rest ∧
      lexer.next.2.byte = lexer.byte + size passed := by
  cases found : Scan.scan lexer.byte lexer.rest with
  | none =>
    rw [next_of_end fresh found] at taken
    cases taken
  | some scanned =>
    rw [next_of_scan fresh found]
    obtain ⟨blanks, passed, passes⟩ := Scan.scan_passes found
    refine ⟨blanks ++ passed, ?_, ?_, ?_⟩
    · exact fun nothing => passes.nonempty (List.append_eq_nil_iff.1 nothing).2
    · rw [passes.split, List.append_assoc]
    · rw [passes.stop, Text.Utf8.size_append, Nat.add_assoc]

/-- Whether there is an item or none, the end of the formula stays where it is. -/
theorem end_next {lexer : Lexer} (fresh : lexer.peeked = none) :
    lexer.next.2.byte + size lexer.next.2.rest = lexer.byte + size lexer.rest := by
  cases taken : lexer.next.1 with
  | some item =>
    obtain ⟨passed, -, split, byte⟩ := next_takes fresh taken
    rw [split, byte, Text.Utf8.size_append, Nat.add_assoc]
  | none =>
    cases found : Scan.scan lexer.byte lexer.rest with
    | none =>
      rw [next_of_end fresh found]
      rfl
    | some scanned =>
      rw [next_of_scan fresh found] at taken
      cases taken

/-- The lexer after some items. -/
def afterItems (lexer : Lexer) (count : Nat) : Lexer :=
  lexer.after (.replicate count .next)

theorem peeked_afterItems {lexer : Lexer} (fresh : lexer.peeked = none) (count : Nat) :
    (lexer.afterItems count).peeked = none := by
  induction count generalizing lexer with
  | zero => exact fresh
  | succ count ih => exact ih (peeked_next lexer)

/-- The item behind some items. -/
theorem next_afterItems (formula : String) (count : Nat) :
    ((ofFormula formula).afterItems count).next.1 = (itemsOf formula)[count]? := by
  rw [afterItems, next_after, List.countP_replicate]
  rfl

/-- **Reading goes on as the lexer does**, and no step fails. -/
theorem run?_eq {lexer : Lexer} (fresh : lexer.peeked = none) (count : Nat) :
    Cursor.run? (lexer.byte + size lexer.rest) count ⟨lexer.byte, lexer.rest⟩
      = some ((lexer.transcript (.replicate count .next)).map Step.answer) := by
  induction count generalizing lexer with
  | zero => rfl
  | succ count ih =>
    have step : Cursor.next? (lexer.byte + size lexer.rest) ⟨lexer.byte, lexer.rest⟩
        = some (lexer.next.1, ⟨lexer.next.2.byte, lexer.next.2.rest⟩) := by
      rw [Cursor.next?_scan]
      cases found : Scan.scan lexer.byte lexer.rest with
      | none =>
        rw [next_of_end fresh found]
        rfl
      | some scanned =>
        rw [next_of_scan fresh found]
        rfl
    have further := ih (peeked_next lexer)
    rw [end_next fresh] at further
    rw [Cursor.run?, step, List.replicate_succ, transcript, List.map_cons, answer]
    simp only [Option.bind_eq_bind, Option.bind_some, further]
    rfl

end Lexer

/-- The byte at which an item starts. -/
def startOfItem? (item : Item) : Option Nat :=
  (spanOf? item).map Span.offset

/-- **The items of a formula start one behind the other.** -/
theorem exists_starts (formula : String) :
    ∃ starts : List Nat, (itemsOf formula).map startOfItem? = starts.map some ∧
      starts.Pairwise (· < ·) := by
  have starts {item : Item} (member : item ∈ itemsOf formula) :
      ∃ span, spanOf? item = some span ∧ (startOfItem? item).getD 0 = span.offset := by
    obtain ⟨span, stands⟩ := standsIn_of_itemsOf member
    exact ⟨span, stands.isSpan, by rw [startOfItem?, stands.isSpan]; rfl⟩
  refine ⟨(itemsOf formula).map fun item => (startOfItem? item).getD 0, ?_, ?_⟩
  · rw [List.map_map]
    refine List.map_congr_left fun item member => ?_
    obtain ⟨span, isSpan, isStart⟩ := starts member
    rw [Function.comp, isStart, startOfItem?, isSpan]
    rfl
  · rw [List.pairwise_map]
    refine (itemsOf_ordered formula).imp_of_mem fun {item next} member later inFront => ?_
    obtain ⟨span, isSpan, isStart⟩ := starts member
    obtain ⟨other, isOther, isNext⟩ := starts later
    rw [isStart, isNext]
    exact (inFront span other isSpan isOther).1

/-- **Lexing ends, on malformed formulas too, and no step of it fails.** Whoever takes item after item
of a formula, errors among them, comes to the end after at most as many items as the formula has
characters, and there is nothing from there on. Each item passes over at least one character, and
each starts behind the start of the one before. Reading by bytes gives the same answers, however
many are asked for: no slice splits a character or goes beyond the text, and no difference of bytes
is negative. -/
theorem lexing_ends (formula : String) :
    (itemsOf formula).length ≤ formula.length ∧
    (∀ count, ((Lexer.ofFormula formula).afterItems count).next.1 = (itemsOf formula)[count]?) ∧
    (∀ count item, ((Lexer.ofFormula formula).afterItems count).next.1 = some item →
      let here := (Lexer.ofFormula formula).afterItems count
      ∃ passed, passed ≠ [] ∧ here.rest = passed ++ here.next.2.rest ∧
        here.next.2.byte = here.byte + size passed) ∧
    (∃ starts : List Nat, (itemsOf formula).map startOfItem? = starts.map some ∧
      starts.Pairwise (· < ·)) ∧
    ∀ count, Cursor.run? formula.utf8ByteSize count ⟨0, formula.toList⟩
      = some ((List.range count).map fun place => (itemsOf formula)[place]?) := by
  have fresh : (Lexer.ofFormula formula).peeked = none := rfl
  refine ⟨Parser.length_itemsOf formula, Lexer.next_afterItems formula, fun count item taken => ?_,
    exists_starts formula, fun count => ?_⟩
  · exact Lexer.next_takes (Lexer.peeked_afterItems fresh count) taken
  · have run := Lexer.run?_eq fresh count
    rw [Lexer.answers_iterated] at run
    have whole : (Lexer.ofFormula formula).byte + size (Lexer.ofFormula formula).rest
        = formula.utf8ByteSize := by
      rw [← Text.Utf8.size_toList]
      exact Nat.zero_add _
    rw [whole] at run
    exact run

end ColumnCalc
