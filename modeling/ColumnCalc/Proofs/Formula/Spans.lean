/-
**Where the items of a formula are.**

Every item, token or lexical error, has a span, which covers whole characters of the formula and at
least one. Later items start behind the start of earlier ones, and behind the end of earlier tokens.
A fault may reach over the items behind it: a string without an end is at fault up to the end of the
formula, although the text inside it is scanned once more.

* `scan_split`, `lexeme_of_items` — an item is that of a character which is no white space.
* `standsIn_of_items`, `token_of_items` — an item is at its span, and a token is what is found there.
* `items_ordered` — the items are in the order of the text.
-/

import ColumnCalc.Proofs.Formula.LookAhead
import ColumnCalc.Proofs.Formula.Starts

namespace ColumnCalc

open Text (isBlank)

/-- The span of a token, or of the text at fault. -/
def spanOf? : Item → Option Span
  | .ok token => some token.span
  | .error error => error.span?

/-- **An item is at a span of a text**: the span covers whole characters, which are those of the item
if it is a token, and an error is a fault in their spelling. -/
structure ItemStandsIn (text : List Char) (item : Item) (span : Span) : Prop where
  isSpan : spanOf? item = some span
  covers : ∃ characters, Covers text span characters
  nonempty : 0 < span.length
  token : ∀ token, item = .ok token → token.StandsIn text
  fault : ∀ error, item = .error error →
    ∃ fault, error = .malformed fault span ∧ ∀ expected, fault ≠ .endOfFormula expected

theorem Token.StandsIn.item {text : List Char} {token : Token} (stands : token.StandsIn text) :
    ItemStandsIn text (.ok token) token.span where
  isSpan := rfl
  covers := ⟨_, stands.covers⟩
  nonempty := stands.nonempty
  token other same := by
    cases same
    exact stands
  fault := nofun

/-- **An item is in front of another one**: it starts before the other does, and ends before it if it
is a token. -/
def InFront (earlier later : Item) : Prop :=
  ∀ span next, spanOf? earlier = some span → spanOf? later = some next →
    span.offset < next.offset ∧ ∀ token, earlier = .ok token → span.stop ≤ next.offset

namespace Scan

/-- The item of a lexeme, found at a byte, that passes over some characters. -/
def Lexeme.item (byte : Nat) (passed : List Char) : Lexeme → Item
  | .token kind _ => .ok ⟨kind, String.ofList passed, byte⟩
  | .fault cause bytes _ => .error (.malformed cause ⟨byte, bytes⟩)

theorem scan_blank {c : Char} (blank : isBlank c = true) (byte : Nat) (rest : List Char) :
    scan byte (c :: rest) = scan (byte + c.utf8Size) rest := by
  rw [scan, if_pos blank]

theorem scan_solid {c : Char} (solid : isBlank c = false) (byte : Nat) (rest : List Char) :
    scan byte (c :: rest)
      = some ⟨(lexeme c rest).item byte ((c :: rest).take (lexeme c rest).taken),
          byte + Text.Utf8.size ((c :: rest).take (lexeme c rest).taken),
          (c :: rest).drop (lexeme c rest).taken⟩ := by
  rw [scan, if_neg (Bool.eq_false_iff.1 solid)]
  cases lexeme c rest <;> rfl

/-- **A scan is that of the first character which is no white space.** -/
theorem scan_split {byte : Nat} {text : List Char} {scanned : Scanned}
    (found : scan byte text = some scanned) :
    ∃ blanks c rest, text = blanks ++ c :: rest ∧ isBlank c = false ∧
      scan (byte + Text.Utf8.size blanks) (c :: rest) = some scanned := by
  induction text generalizing byte with
  | nil => cases found
  | cons c rest ih =>
    cases blank : isBlank c with
    | false => exact ⟨[], c, rest, rfl, blank, found⟩
    | true =>
      rw [scan_blank blank] at found
      obtain ⟨blanks, first, more, rfl, solid, there⟩ := ih found
      refine ⟨c :: blanks, first, more, rfl, solid, ?_⟩
      rwa [Text.Utf8.size_cons, ← Nat.add_assoc]

/-- The first characters of a lexeme, and those behind it. -/
theorem split_taken (c : Char) (rest : List Char) :
    ∃ more, (c :: rest).take (lexeme c rest).taken = c :: more ∧
      c :: rest = c :: more ++ (c :: rest).drop (lexeme c rest).taken := by
  obtain ⟨taken, isTaken⟩ := Nat.exists_eq_succ_of_ne_zero (Nat.ne_of_gt (lexeme_taken_pos c rest))
  have first : (c :: rest).take (lexeme c rest).taken = c :: rest.take taken := by
    rw [isTaken, List.take_succ_cons]
  exact ⟨rest.take taken, first, by rw [← first, List.take_append_drop]⟩

/-- A token is there whose text is. -/
theorem standsIn_front {before more behind : List Char} {c : Char} (kind : TokenKind) :
    (⟨kind, String.ofList (c :: more), Text.Utf8.size before⟩ : Token).StandsIn
      (before ++ (c :: more ++ behind)) := by
  have length : Text.Utf8.size (c :: more) = (String.ofList (c :: more)).utf8ByteSize := by
    rw [← Text.Utf8.size_toList, String.toList_ofList]
  refine ⟨⟨before, behind, ?_, rfl, ?_⟩, ?_⟩
  · rw [String.toList_ofList]
  · rw [String.toList_ofList]
    exact length
  · show 0 < (String.ofList (c :: more)).utf8ByteSize
    rw [← length]
    exact Text.Utf8.size_pos (List.cons_ne_nil c more)

/-- **The item that is found at a character is there**, and a token is what is passed over. -/
theorem standsIn_of_lexeme {before more behind : List Char} {c : Char} {rest : List Char}
    (split : c :: rest = c :: more ++ behind) :
    ∃ span, ItemStandsIn (before ++ c :: rest)
        ((lexeme c rest).item (Text.Utf8.size before) (c :: more)) span ∧
      span.offset = Text.Utf8.size before ∧
      ∀ token, (lexeme c rest).item (Text.Utf8.size before) (c :: more) = .ok token →
        span.length = Text.Utf8.size (c :: more) := by
  cases found : lexeme c rest with
  | token kind taken =>
    rw [split]
    refine ⟨_, (standsIn_front kind).item, rfl, fun _ _ => ?_⟩
    show (String.ofList (c :: more)).utf8ByteSize = _
    rw [← Text.Utf8.size_toList, String.toList_ofList]
  | fault cause bytes taken =>
    obtain ⟨⟨covered, rest, isText, nonempty, size⟩, spelling⟩ := blames_of_lexeme found
    rw [isText]
    refine ⟨⟨Text.Utf8.size before, bytes⟩, ⟨rfl, ⟨covered, ?_⟩, ?_, nofun, ?_⟩, rfl, nofun⟩
    · exact ⟨before, rest, rfl, rfl, size⟩
    · exact size ▸ Text.Utf8.size_pos nonempty
    · intro error same
      cases same
      exact ⟨cause, rfl, spelling⟩

/-- **What a scan finds is in the text**, from the byte on at which the scan starts. It goes on behind
the start of the item, and behind the end of a token. -/
structure Finds (text : List Char) (byte : Nat) (scanned : Scanned) (span : Span) : Prop where
  stands : ItemStandsIn text scanned.item span
  start : byte ≤ span.offset
  behind : span.offset < scanned.stop
  token : ∀ token, scanned.item = .ok token → span.stop ≤ scanned.stop
  position : ∃ before, text = before ++ scanned.rest ∧ Text.Utf8.size before = scanned.stop

theorem finds_of_scan {before text : List Char} {scanned : Scanned}
    (found : scan (Text.Utf8.size before) text = some scanned) :
    ∃ span, Finds (before ++ text) (Text.Utf8.size before) scanned span := by
  obtain ⟨blanks, c, rest, rfl, solid, there⟩ := scan_split found
  obtain ⟨more, isTaken, split⟩ := split_taken c rest
  rw [← Text.Utf8.size_append, scan_solid solid, isTaken, Option.some.injEq] at there
  obtain ⟨span, stands, start, length⟩ := @standsIn_of_lexeme (before ++ blanks) _ _ _ _ split
  have nonempty := Text.Utf8.size_pos (List.cons_ne_nil c more)
  rw [← List.append_assoc]
  subst there
  refine ⟨span, stands, ?_, ?_, fun token isToken => ?_, before ++ blanks ++ c :: more, ?_, ?_⟩
  · rw [start, Text.Utf8.size_append]
    exact Nat.le_add_right ..
  · show span.offset < _ + _
    rw [start]
    omega
  · show span.offset + span.length ≤ _ + _
    exact Nat.le_of_eq (by rw [start, length token isToken])
  · rw [List.append_assoc (before ++ blanks), ← split]
  · exact Text.Utf8.size_append _ _

/-! ### All items -/

/-- **Every item is that of a character**, at or behind the byte from which the text is scanned. -/
theorem lexeme_of_items {before text : List Char} {item : Item}
    (member : item ∈ items (Text.Utf8.size before) text) :
    ∃ front c rest, before ++ text = front ++ c :: rest ∧
      Text.Utf8.size before ≤ Text.Utf8.size front ∧
      item = (lexeme c rest).item (Text.Utf8.size front)
        ((c :: rest).take (lexeme c rest).taken) := by
  generalize isByte : Text.Utf8.size before = byte at member
  induction byte, text using items.induct generalizing before with
  | case1 byte text found =>
    rw [items_of_end found] at member
    cases member
  | case2 byte text scanned found ih =>
    subst isByte
    rw [items_of_scan found] at member
    rcases List.mem_cons.1 member with rfl | later
    · obtain ⟨blanks, c, rest, rfl, solid, there⟩ := scan_split found
      rw [← Text.Utf8.size_append, scan_solid solid, Option.some.injEq] at there
      subst there
      refine ⟨before ++ blanks, c, rest, (List.append_assoc ..).symm, ?_, rfl⟩
      rw [Text.Utf8.size_append]
      exact Nat.le_add_right ..
    · obtain ⟨span, finds⟩ := finds_of_scan found
      obtain ⟨further, split, stop⟩ := finds.position
      obtain ⟨front, c, rest, isText, behind, isItem⟩ := ih stop later
      have start := finds.start
      have forward := finds.behind
      exact ⟨front, c, rest, split.trans isText, by omega, isItem⟩

/-- **An item is at its span.** -/
theorem standsIn_of_items {before text : List Char} {item : Item}
    (member : item ∈ items (Text.Utf8.size before) text) :
    ∃ span, ItemStandsIn (before ++ text) item span ∧ Text.Utf8.size before ≤ span.offset := by
  obtain ⟨front, c, rest, isText, behind, rfl⟩ := lexeme_of_items member
  obtain ⟨more, isTaken, split⟩ := split_taken c rest
  obtain ⟨span, stands, start, -⟩ := @standsIn_of_lexeme front _ _ _ _ split
  rw [isText, isTaken]
  exact ⟨span, stands, start ▸ behind⟩

/-- A token is what is found at some character, and its text is what is passed over there. -/
theorem token_of_items {before text : List Char} {token : Token}
    (member : .ok token ∈ items (Text.Utf8.size before) text) :
    ∃ c rest taken, lexeme c rest = .token token.kind taken ∧
      token.literal.toList = (c :: rest).take taken := by
  obtain ⟨front, c, rest, -, -, isItem⟩ := lexeme_of_items member
  cases found : lexeme c rest with
  | token kind taken =>
    rw [found] at isItem
    cases isItem
    exact ⟨c, rest, taken, found, String.toList_ofList⟩
  | fault cause bytes taken =>
    rw [found] at isItem
    cases isItem

/-- **The items are in the order of the text.** -/
theorem items_ordered (before text : List Char) :
    (items (Text.Utf8.size before) text).Pairwise InFront := by
  generalize isByte : Text.Utf8.size before = byte
  induction byte, text using items.induct generalizing before with
  | case1 byte text found =>
    rw [items_of_end found]
    exact .nil
  | case2 byte text scanned found ih =>
    subst isByte
    rw [items_of_scan found]
    obtain ⟨span, finds⟩ := finds_of_scan found
    obtain ⟨further, split, stop⟩ := finds.position
    refine .cons (fun later member other next isSpan isNext => ?_) (ih further stop)
    rw [← stop] at member
    obtain ⟨same, stands, behind⟩ := standsIn_of_items member
    have isSame := Option.some.inj (finds.stands.isSpan.symm.trans isSpan)
    have isNextSame := Option.some.inj (stands.isSpan.symm.trans isNext)
    subst isSame isNextSame
    have forward := finds.behind
    refine ⟨by omega, fun token isToken => ?_⟩
    have inside := finds.token token isToken
    omega

end Scan

/-- The items of a formula are at their spans. -/
theorem standsIn_of_itemsOf {formula : String} {item : Item} (member : item ∈ itemsOf formula) :
    ∃ span, ItemStandsIn formula.toList item span := by
  obtain ⟨span, stands, -⟩ := @Scan.standsIn_of_items [] _ _ member
  exact ⟨span, stands⟩

/-- Its tokens are found in the text. -/
theorem lexeme_of_itemsOf {formula : String} {token : Token} (member : .ok token ∈ itemsOf formula) :
    ∃ c rest taken, Scan.lexeme c rest = .token token.kind taken ∧
      token.literal.toList = (c :: rest).take taken :=
  @Scan.token_of_items [] _ _ member

/-- Its items are in the order of the text. -/
theorem itemsOf_ordered (formula : String) : (itemsOf formula).Pairwise InFront :=
  Scan.items_ordered [] formula.toList

end ColumnCalc
