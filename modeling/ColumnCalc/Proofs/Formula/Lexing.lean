/-
**The lexer loses nothing.**

A lexer keeps the text in front of it and the byte at which that text starts, and one item if it has
been read ahead. Whatever calls are made, the two never drift apart; the tokens that are answered are
the text at their spans, and they come in the order of the text, each behind the one before. If
there is no error in a formula, its text is its tokens and white space around them.

* `scan_passes` — what one scan passes over; `spaced_of_items` — the text of tokens only.
* `StandsIn` — a lexer, and a token, against the text; `reads_next` — what taking an item does, and
  `calls_answer` — what any call does.
* `after_stands`, `standsIn_transcript`, `follows_transcript` — whole runs; a run from a token that was
  peeked at (`transcript_of_peeked`) gives that token until a call takes it.
* `answers_next` — iteration answers the items of the text.
* `lexing_lossless` — all of it, for every formula and every sequence of calls.
-/

import ColumnCalc.Formula.Lexer
import ColumnCalc.Proofs.Text.Utf8

namespace ColumnCalc

open Text (isBlank)

/-- **The characters at a span of a text**: whole characters, from the byte at which the span starts to
the byte at which it ends. -/
def Covers (text : List Char) (span : Span) (characters : List Char) : Prop :=
  ∃ before behind, text = before ++ (characters ++ behind) ∧
    Text.Utf8.size before = span.offset ∧ Text.Utf8.size characters = span.length

/-- A token is the text at its span, and its span is not empty. -/
structure Token.StandsIn (text : List Char) (token : Token) : Prop where
  covers : Covers text token.span token.literal.toList
  nonempty : 0 < token.span.length

/-- **Tokens with white space between them**: the text is its tokens in order, with nothing but white
space in front of the first one and behind each. -/
def Spaced (text : List Char) (tokens : List Token) : Prop :=
  ∃ (first : List Char) (gaps : List (List Char)), gaps.length = tokens.length ∧
    (∀ c ∈ first, isBlank c = true) ∧ (∀ gap ∈ gaps, ∀ c ∈ gap, isBlank c = true) ∧
    text = first ++ (tokens.zip gaps).flatMap fun (token, gap) => token.literal.toList ++ gap

/-! ### One scan -/

namespace Scan

/-- **What a scan passes over**: white space, and behind it the characters of an item. -/
structure Passes (byte : Nat) (text : List Char) (scanned : Scanned) (blanks passed : List Char) :
    Prop where
  split : text = blanks ++ (passed ++ scanned.rest)
  blank : ∀ c ∈ blanks, isBlank c = true
  nonempty : passed ≠ []
  stop : scanned.stop = byte + Text.Utf8.size blanks + Text.Utf8.size passed
  token : ∀ token, scanned.item = .ok token →
    token.literal.toList = passed ∧ token.offset = byte + Text.Utf8.size blanks

theorem scan_passes {byte : Nat} {text : List Char} {scanned : Scanned}
    (found : scan byte text = some scanned) :
    ∃ blanks passed, Passes byte text scanned blanks passed := by
  induction text generalizing byte with
  | nil => cases found
  | cons c rest ih =>
    rw [scan] at found
    split at found
    · rename_i isBlank
      obtain ⟨blanks, passed, passes⟩ := ih found
      refine ⟨c :: blanks, passed, ?_, List.forall_mem_cons.2 ⟨isBlank, passes.blank⟩,
        passes.nonempty, ?_, ?_⟩
      · rw [passes.split]
        rfl
      · rw [passes.stop, Text.Utf8.size_cons]
        omega
      · intro token isToken
        rw [(passes.token token isToken).2, Text.Utf8.size_cons]
        exact ⟨(passes.token token isToken).1, by omega⟩
    · cases found
      refine ⟨[], (c :: rest).take (lexeme c rest).taken, ?_, ?_, ?_, rfl, ?_⟩
      · exact (List.take_append_drop _ _).symm
      · exact fun _ member => absurd member List.not_mem_nil
      · have positive := lexeme_taken_pos c rest
        intro isEmpty
        rcases List.take_eq_nil_iff.1 isEmpty with none | empty
        · omega
        · cases empty
      · intro token isToken
        simp only at isToken
        split at isToken
        · cases isToken
          exact ⟨String.toList_ofList, rfl⟩
        · cases isToken

/-- Where nothing is found there is only white space. -/
theorem blank_of_scan {byte : Nat} {text : List Char} (found : scan byte text = none) :
    ∀ c ∈ text, isBlank c = true := by
  induction text generalizing byte with
  | nil => exact nofun
  | cons c rest ih =>
    rw [scan] at found
    split at found
    · rename_i isBlank
      exact List.forall_mem_cons.2 ⟨isBlank, ih found⟩
    · cases found

/-- **The text of a formula without errors** is its tokens and white space around them. -/
theorem spaced_of_items {byte : Nat} {text : List Char} {tokens : List Token}
    (areItems : items byte text = tokens.map .ok) : Spaced text tokens := by
  induction byte, text using items.induct generalizing tokens with
  | case1 byte text found =>
    rw [items, found] at areItems
    cases List.map_eq_nil_iff.1 areItems.symm
    exact ⟨text, [], rfl, blank_of_scan found, nofun, (List.append_nil text).symm⟩
  | case2 byte text scanned found ih =>
    rw [items, found] at areItems
    obtain ⟨token, rest, rfl, isToken, areRest⟩ := List.map_eq_cons_iff.1 areItems.symm
    obtain ⟨first, gaps, sameLength, isBlank, areBlank, split⟩ := ih areRest.symm
    obtain ⟨blanks, passed, passes⟩ := scan_passes found
    refine ⟨blanks, first :: gaps, congrArg (· + 1) sameLength, passes.blank,
      List.forall_mem_cons.2 ⟨isBlank, areBlank⟩, ?_⟩
    rw [passes.split, ← (passes.token token isToken.symm).1, split, List.zip_cons_cons,
      List.flatMap_cons, List.append_assoc]

end Scan

namespace Lexer

/-! ### Calls -/

/-- A call of a lexer. -/
inductive Call where
  | next
  | peek
  | expect (kind : TokenKind) (expected : Expectation)

/-- What a call answers, and the lexer after it. -/
def answer (lexer : Lexer) : Call → Option Item × Lexer
  | .next => lexer.next
  | .peek => lexer.peek
  | .expect kind expected =>
    (some (lexer.expect kind expected).1, (lexer.expect kind expected).2)

/-- The lexer after a sequence of calls. -/
def after (lexer : Lexer) (calls : List Call) : Lexer :=
  calls.foldl (fun lexer call => (lexer.answer call).2) lexer

/-- A call that was made: the item that was next, which the call is about, and the answer. The answer
is not that item where another kind of token was expected. -/
structure Step where
  call : Call
  item : Option Item
  answer : Option Item

/-- Calls made one after another. -/
def transcript (lexer : Lexer) : List Call → List Step
  | [] => []
  | call :: calls =>
    ⟨call, lexer.next.1, (lexer.answer call).1⟩ :: (lexer.answer call).2.transcript calls

/-- **A later call is about a later token**: it starts behind the start of the earlier one and not
before its end. Only a token that was peeked at comes once more. -/
def Step.Follows (earlier later : Step) : Prop :=
  ∀ token next, earlier.item = some (.ok token) → later.item = some (.ok next) →
    token.offset < next.offset ∧ token.span.stop ≤ next.offset ∨
      earlier.call = .peek ∧ next = token

theorem next_of_peeked {lexer : Lexer} {item : Item} (ahead : lexer.peeked = some item) :
    lexer.next = (some item, { lexer with peeked := none }) := by
  simp only [next, ahead]

theorem next_of_end {lexer : Lexer} (ahead : lexer.peeked = none)
    (found : Scan.scan lexer.byte lexer.rest = none) : lexer.next = (none, lexer.atEnd) := by
  simp only [next, ahead, found]

theorem next_of_scan {lexer : Lexer} {scanned : Scan.Scanned} (ahead : lexer.peeked = none)
    (found : Scan.scan lexer.byte lexer.rest = some scanned) :
    lexer.next = (some scanned.item, { lexer with byte := scanned.stop, rest := scanned.rest }) := by
  simp only [next, ahead, found]

/-- Peeking is reading an item and putting it back. -/
theorem peek_eq (lexer : Lexer) :
    lexer.peek = (lexer.next.1, { lexer.next.2 with peeked := lexer.next.1 }) := by
  unfold peek
  cases ahead : lexer.peeked with
  | none => rfl
  | some item => simp only [next_of_peeked ahead, ← ahead]

/-- Expecting a kind is reading an item, and answering it if it is a token of that kind. -/
theorem expect_eq (lexer : Lexer) (kind : TokenKind) (expected : Expectation) :
    (lexer.expect kind expected).2 = lexer.next.2 ∧
      ∀ token, (lexer.expect kind expected).1 = .ok token → lexer.next.1 = some (.ok token) := by
  unfold expect
  split
  · rename_i token after isNext
    split
    · refine ⟨by rw [isNext], fun other same => ?_⟩
      cases same
      rw [isNext]
    · exact ⟨by rw [isNext], nofun⟩
  · rename_i error after isNext
    exact ⟨by rw [isNext], nofun⟩
  · rename_i after isNext
    exact ⟨by rw [isNext], nofun⟩

/-- A token is answered only if it is next. -/
theorem next_of_answer {lexer : Lexer} {call : Call} {token : Token}
    (answered : (lexer.answer call).1 = some (.ok token)) : lexer.next.1 = some (.ok token) := by
  cases call with
  | next => exact answered
  | peek => rwa [answer, peek_eq] at answered
  | expect kind expected =>
    exact (expect_eq lexer kind expected).2 token (Option.some.inj answered)

theorem next_of_transcript {lexer : Lexer} {calls : List Call} {step : Step} {token : Token}
    (member : step ∈ lexer.transcript calls) (answered : step.answer = some (.ok token)) :
    step.item = some (.ok token) := by
  induction calls generalizing lexer with
  | nil => cases member
  | cons call calls ih =>
    rcases List.mem_cons.1 member with rfl | later
    · exact next_of_answer answered
    · exact ih later

/-! ### A lexer against its text -/

/-- **A lexer stands in a text**: what is in front of it is the text from its byte on, and a token that
was read ahead is in the text behind it. -/
structure StandsIn (text : List Char) (lexer : Lexer) : Prop where
  position : ∃ before, text = before ++ lexer.rest ∧ Text.Utf8.size before = lexer.byte
  ahead : ∀ token, lexer.peeked = some (.ok token) →
    token.StandsIn text ∧ token.span.stop ≤ lexer.byte

/-- The byte before which no further token starts. -/
def front (lexer : Lexer) : Nat :=
  match lexer.peeked with
  | some (.ok token) => token.offset
  | _ => lexer.byte

theorem standsIn_ofFormula (formula : String) :
    StandsIn formula.toList (ofFormula formula) :=
  ⟨⟨[], rfl, rfl⟩, nofun⟩

theorem front_of_token {lexer : Lexer} {token : Token} (ahead : lexer.peeked = some (.ok token)) :
    lexer.front = token.offset := by
  simp only [front, ahead]

theorem front_of_none {lexer : Lexer} (ahead : lexer.peeked = none) : lexer.front = lexer.byte := by
  simp only [front, ahead]

theorem front_of_error {lexer : Lexer} {error : FormulaError}
    (ahead : lexer.peeked = some (.error error)) : lexer.front = lexer.byte := by
  simp only [front, ahead]

/-- **What reading an item does**: the lexer is behind the item, and the item, if it is a token, is in
the text between the front of the lexer and its new place. -/
structure Reads (text : List Char) (lexer : Lexer) (item : Option Item) (after : Lexer) : Prop where
  position : ∃ before, text = before ++ after.rest ∧ Text.Utf8.size before = after.byte
  nothingAhead : after.peeked = none
  forward : lexer.front ≤ after.byte
  token : ∀ token, item = some (.ok token) →
    token.StandsIn text ∧ lexer.front ≤ token.offset ∧ token.span.stop ≤ after.byte

/-- A lexer with an item read ahead does not move. -/
theorem reads_peeked {text : List Char} {lexer : Lexer} {item : Item}
    (stands : StandsIn text lexer) (ahead : lexer.peeked = some item) :
    Reads text lexer (some item) { lexer with peeked := none } where
  position := stands.position
  nothingAhead := rfl
  forward := by
    cases item with
    | error error => exact Nat.le_of_eq (front_of_error ahead)
    | ok token =>
      rw [front_of_token ahead]
      exact Nat.le_trans (Nat.le_add_right ..) (stands.ahead token ahead).2
  token := by
    intro token isToken
    cases isToken
    obtain ⟨inText, inside⟩ := stands.ahead token ahead
    exact ⟨inText, Nat.le_of_eq (front_of_token ahead), inside⟩

/-- Where only white space is left, a lexer moves to the end of the text. -/
theorem reads_end {text : List Char} {lexer : Lexer} (stands : StandsIn text lexer)
    (ahead : lexer.peeked = none) : Reads text lexer none lexer.atEnd where
  position := by
    obtain ⟨before, split, size⟩ := stands.position
    refine ⟨text, (List.append_nil text).symm, ?_⟩
    rw [split, Text.Utf8.size_append, size]
    rfl
  nothingAhead := rfl
  forward := by
    rw [front_of_none ahead]
    exact Nat.le_add_right ..
  token := nofun

/-- Otherwise it moves behind the item that it finds. -/
theorem reads_scan {text : List Char} {lexer : Lexer} {scanned : Scan.Scanned}
    (stands : StandsIn text lexer) (ahead : lexer.peeked = none)
    (found : Scan.scan lexer.byte lexer.rest = some scanned) :
    Reads text lexer (some scanned.item)
      { lexer with byte := scanned.stop, rest := scanned.rest } := by
  obtain ⟨before, split, size⟩ := stands.position
  obtain ⟨blanks, passed, passes⟩ := Scan.scan_passes found
  have stop := passes.stop
  have front := front_of_none ahead
  refine ⟨⟨before ++ (blanks ++ passed), ?_, ?_⟩, ahead, ?_, fun token isToken => ?_⟩
  · rw [split, passes.split]
    simp only [List.append_assoc]
  · show Text.Utf8.size (before ++ (blanks ++ passed)) = scanned.stop
    rw [Text.Utf8.size_append, Text.Utf8.size_append]
    omega
  · show lexer.front ≤ scanned.stop
    omega
  · obtain ⟨literal, offset⟩ := passes.token token (Option.some.inj isToken)
    have length : token.span.length = Text.Utf8.size passed := by
      rw [← literal, Text.Utf8.size_toList]
      rfl
    have nonempty : 0 < token.span.length := length ▸ Text.Utf8.size_pos passes.nonempty
    have covers : Covers text token.span token.literal.toList := by
      refine ⟨before ++ blanks, scanned.rest, ?_, ?_, literal ▸ length.symm⟩
      · rw [split, passes.split, literal, List.append_assoc]
      · rw [Text.Utf8.size_append, size]
        exact offset.symm
    refine ⟨⟨covers, nonempty⟩, by omega, ?_⟩
    show token.offset + token.span.length ≤ scanned.stop
    omega

theorem reads_next {text : List Char} {lexer : Lexer} (stands : StandsIn text lexer) :
    Reads text lexer lexer.next.1 lexer.next.2 := by
  cases ahead : lexer.peeked with
  | some item =>
    rw [next_of_peeked ahead]
    exact reads_peeked stands ahead
  | none =>
    cases found : Scan.scan lexer.byte lexer.rest with
    | none =>
      rw [next_of_end ahead found]
      exact reads_end stands ahead
    | some scanned =>
      rw [next_of_scan ahead found]
      exact reads_scan stands ahead found

/-! ### One call, and a run -/

/-- **What a call does.** The lexer still stands in the text and its front does not go back; a token
that was next is in the text at or behind the front, and it stays next after peeking and is behind the
lexer after any other call. -/
structure Calls (text : List Char) (lexer : Lexer) (call : Call) (after : Lexer) : Prop where
  stands : StandsIn text after
  forward : lexer.front ≤ after.front
  token : ∀ token, lexer.next.1 = some (.ok token) →
    token.StandsIn text ∧ lexer.front ≤ token.offset ∧
      (call = .peek ∧ after.peeked = some (.ok token) ∨ token.span.stop ≤ after.front)

/-- The lexer behind the item is the lexer after every call but peeking. -/
theorem calls_of_reads {text : List Char} {lexer after : Lexer} (call : Call)
    (reads : Reads text lexer lexer.next.1 after) : Calls text lexer call after := by
  have front := front_of_none reads.nothingAhead
  refine ⟨⟨reads.position, fun token ahead => ?_⟩, ?_, fun token isToken => ?_⟩
  · rw [reads.nothingAhead] at ahead
    cases ahead
  · rw [front]
    exact reads.forward
  · obtain ⟨inText, behind, inside⟩ := reads.token token isToken
    exact ⟨inText, behind, .inr (front ▸ inside)⟩

theorem calls_answer {text : List Char} {lexer : Lexer} (stands : StandsIn text lexer)
    (call : Call) : Calls text lexer call (lexer.answer call).2 := by
  have reads := reads_next stands
  -- `next` and `expect` leave the lexer where reading does, `peek` puts the item back.
  cases call with
  | next => exact calls_of_reads .next reads
  | expect kind expected =>
    rw [answer, (expect_eq lexer kind expected).1]
    exact calls_of_reads _ reads
  | peek =>
    rw [answer, peek_eq]
    refine ⟨⟨reads.position, fun token ahead => ?_⟩, ?_, fun token isToken => ?_⟩
    · obtain ⟨inText, -, inside⟩ := reads.token token ahead
      exact ⟨inText, inside⟩
    · match isItem : lexer.next.1 with
      | some (.ok token) => exact (reads.token token isItem).2.1
      | some (.error _) => exact reads.forward
      | none => exact reads.forward
    · obtain ⟨inText, behind, -⟩ := reads.token token isToken
      exact ⟨inText, behind, .inl ⟨rfl, isToken⟩⟩

theorem after_stands {text : List Char} {lexer : Lexer} (stands : StandsIn text lexer)
    (calls : List Call) : StandsIn text (lexer.after calls) := by
  induction calls generalizing lexer with
  | nil => exact stands
  | cons call calls ih => exact ih (calls_answer stands call).stands

/-- The tokens of a run are in the text, at or behind the front of the lexer. -/
theorem standsIn_transcript {text : List Char} {lexer : Lexer} (stands : StandsIn text lexer)
    {calls : List Call} {step : Step} {token : Token} (member : step ∈ lexer.transcript calls)
    (isToken : step.item = some (.ok token)) :
    token.StandsIn text ∧ lexer.front ≤ token.offset := by
  induction calls generalizing lexer with
  | nil => cases member
  | cons call calls ih =>
    have called := calls_answer stands call
    rcases List.mem_cons.1 member with rfl | later
    · exact ⟨(called.token token isToken).1, (called.token token isToken).2.1⟩
    · obtain ⟨inText, behind⟩ := ih called.stands later
      exact ⟨inText, Nat.le_trans called.forward behind⟩

/-- After peeking at a token the run goes on with that token, until a call takes it. -/
theorem transcript_of_peeked {text : List Char} {lexer : Lexer} {token next : Token}
    (stands : StandsIn text lexer) (ahead : lexer.peeked = some (.ok token)) {calls : List Call}
    {step : Step} (member : step ∈ lexer.transcript calls) (isNext : step.item = some (.ok next)) :
    next = token ∨ token.span.stop ≤ next.offset := by
  induction calls generalizing lexer with
  | nil => cases member
  | cons call calls ih =>
    have called := calls_answer stands call
    have isFirst : lexer.next.1 = some (.ok token) := by rw [next_of_peeked ahead]
    rcases List.mem_cons.1 member with rfl | later
    · cases isFirst.symm.trans isNext
      exact .inl rfl
    · -- As long as the lexer is only peeked at, the token stays where it is.
      rcases (called.token token isFirst).2.2 with ⟨-, still⟩ | taken
      · exact ih called.stands still later
      · exact .inr (Nat.le_trans taken (standsIn_transcript called.stands later isNext).2)

/-- **The tokens of a run are in the order of the text.** -/
theorem follows_transcript {text : List Char} {lexer : Lexer} (stands : StandsIn text lexer)
    (calls : List Call) : (lexer.transcript calls).Pairwise Step.Follows := by
  induction calls generalizing lexer with
  | nil => exact .nil
  | cons call calls ih =>
    have called := calls_answer stands call
    refine .cons (fun later member token next isToken isNext => ?_) (ih called.stands)
    obtain ⟨inText, -, place⟩ := called.token token isToken
    have behind (stop : token.span.stop ≤ next.offset) :
        token.offset < next.offset ∧ token.span.stop ≤ next.offset :=
      ⟨Nat.lt_of_lt_of_le (Nat.lt_add_of_pos_right inText.nonempty) stop, stop⟩
    rcases place with ⟨isPeek, still⟩ | taken
    · rcases transcript_of_peeked called.stands still member isNext with same | stop
      · exact .inr ⟨isPeek, same⟩
      · exact .inl (behind stop)
    · exact .inl (behind (Nat.le_trans taken (standsIn_transcript called.stands member isNext).2))

/-! ### Iteration -/

/-- A lexer that is asked for one item after another answers the items of its text, and then that
there are no more. -/
theorem answers_next {lexer : Lexer} (ahead : lexer.peeked = none) {items : List Item}
    (areItems : Scan.items lexer.byte lexer.rest = items) :
    (lexer.transcript (.replicate (items.length + 1) .next)).map Step.answer
      = items.map some ++ [none] := by
  induction items generalizing lexer with
  | nil =>
    rw [Scan.items] at areItems
    split at areItems
    · rename_i found
      simp only [transcript, List.length_nil, List.replicate_succ, List.replicate_zero, answer,
        next_of_end ahead found, List.map_cons, List.map_nil, List.nil_append]
    · cases areItems
  | cons item items ih =>
    rw [Scan.items] at areItems
    split at areItems
    · cases areItems
    · rename_i scanned found
      obtain ⟨rfl, areRest⟩ := List.cons.inj areItems
      let onward : Lexer := { lexer with byte := scanned.stop, rest := scanned.rest }
      have fresh : onward.peeked = none := ahead
      rw [List.length_cons, List.replicate_succ, transcript, List.map_cons, answer,
        next_of_scan ahead found, ih fresh areRest]
      rfl

end Lexer

/-- **The lexer loses nothing and its positions are exact.** After any calls what is in front of the
lexer is the text from its byte on, and that byte is where a character starts. In any run the answered
tokens are those that were next, such a token is the text at its span, no span is empty, and later
tokens start behind earlier ones and do not overlap them. Asking for one item after another gives the
items of the formula and then the end; if there is no error among them the formula is its tokens in
order with white space around them. -/
theorem lexing_lossless (formula : String) :
    (∀ calls : List Lexer.Call,
      let after := (Lexer.ofFormula formula).after calls
      let steps := (Lexer.ofFormula formula).transcript calls
      (∃ before, formula.toList = before ++ after.rest ∧
        Text.Utf8.size before = after.byte) ∧
      (∀ step ∈ steps, ∀ token, step.answer = some (.ok token) → step.item = some (.ok token)) ∧
      (∀ step ∈ steps, ∀ token, step.item = some (.ok token) →
        Covers formula.toList token.span token.literal.toList ∧ 0 < token.span.length) ∧
      steps.Pairwise Lexer.Step.Follows) ∧
    ((Lexer.ofFormula formula).transcript
        (.replicate ((itemsOf formula).length + 1) .next)).map Lexer.Step.answer
      = (itemsOf formula).map some ++ [none] ∧
    ∀ tokens : List Token, itemsOf formula = tokens.map .ok → Spaced formula.toList tokens := by
  have stands := Lexer.standsIn_ofFormula formula
  refine ⟨fun calls => ⟨(Lexer.after_stands stands calls).position, ?_, ?_,
    Lexer.follows_transcript stands calls⟩, Lexer.answers_next rfl rfl,
    fun tokens => Scan.spaced_of_items⟩
  · exact fun step member token => Lexer.next_of_transcript member
  · intro step member token isToken
    obtain ⟨inText, -⟩ := Lexer.standsIn_transcript stands member isToken
    exact ⟨inText.covers, inText.nonempty⟩

/-- Three tokens with offsets 2, 4 and 7, and the text that is made of them. -/
theorem lexing_lossless_sum :
    let tokens : List Token := [⟨.name, "a", 2⟩, ⟨.plus, "+", 4⟩, ⟨.name, "bc", 7⟩]
    itemsOf "  a +  bc" = tokens.map .ok ∧ Spaced "  a +  bc".toList tokens := by
  intro tokens
  have isTokens : itemsOf "  a +  bc" = tokens.map .ok := by with_unfolding_all rfl
  exact ⟨isTokens, (lexing_lossless "  a +  bc").2.2 tokens isTokens⟩

end ColumnCalc
