/-
**The tokens of a formula do not depend on its white space.**

A token is found from its own text and the character behind it, and a blank behind it ends every
token where it has ended before. So each token of a formula stands alone: its text, with a blank or
nothing behind it, is scanned as this token. That holds of the longest match too: what a number or a
name would go on with is not there, an operator of one character does not meet its second one, and a
string has its closing quote.

* `findsAgain_lexeme` — what starts at a character is found again in front of a blank.
* `Token.StandsAlone`, `standsAlone_of_items` — the tokens of a text stand alone.
* `items_respaced` — the tokens of a text that is made of such tokens.
* `respaced_alike` — a formula and the text of its tokens, scanned, parsed and accepted.
-/

import ColumnCalc.Proofs.Formula.Places
import ColumnCalc.Proofs.Formula.Spans

namespace ColumnCalc

open Text (isBlank)

namespace Scan

/-- **A text that a token may stand in front of**: it is empty or starts with a blank. -/
def Apart (text : List Char) : Prop :=
  ∀ c ∈ text.head?, c = ' '

theorem Apart.nil : Apart [] := nofun

theorem Apart.blank (rest : List Char) : Apart (' ' :: rest) := by
  intro c isFirst
  cases isFirst
  rfl

/-- No digit, letter or point stands first in such a text. -/
theorem Apart.ends {text : List Char} (apart : Apart text) :
    ∀ c ∈ text.head?, continuesNumber c = false := by
  intro c isFirst
  rw [apart c isFirst]
  decide

/-! ### One lexeme -/

/-- **What is found behind a character is found again**: a token takes that character and `more`,
and so it does wherever `more` has a blank or nothing behind it. -/
def FindsAgain (find : List Char → Lexeme) : Prop :=
  ∀ rest kind taken, find rest = .token kind taken →
    ∃ more behind, rest = more ++ behind ∧ taken = 1 + more.length ∧
      ∀ tail, Apart tail → find (more ++ tail) = .token kind taken

theorem takeWhile_apart {p : Char → Bool} (stops : p ' ' = false) {kept tail : List Char}
    (isKept : ∀ c ∈ kept, p c = true) (apart : Apart tail) : (kept ++ tail).takeWhile p = kept := by
  rw [List.takeWhile_append_of_pos isKept]
  cases tail with
  | nil => rw [List.takeWhile_nil, List.append_nil]
  | cons c tail => rw [apart c rfl, List.takeWhile_cons_of_neg (by simp [stops]), List.append_nil]

theorem findsAgain_name (c : Char) : FindsAgain (nameLexeme c) := by
  intro rest kind taken isName
  cases isName
  refine ⟨rest.takeWhile continuesName, rest.dropWhile continuesName,
    List.takeWhile_append_dropWhile.symm, rfl, fun tail apart => ?_⟩
  have same : (rest.takeWhile continuesName ++ tail).takeWhile continuesName
      = rest.takeWhile continuesName :=
    takeWhile_apart (by decide) (List.all_eq_true.1 List.all_takeWhile) apart
  rw [nameLexeme, same]

theorem findsAgain_string (quote : Char) : FindsAgain (stringLexeme quote) := by
  intro rest kind taken isString
  simp only [stringLexeme] at isString
  split at isString
  · rename_i closed
    cases isString
    obtain ⟨behind, split⟩ := exists_quote closed
    have inside : ∀ c ∈ rest.takeWhile (· != quote), (c != quote) = true :=
      List.all_eq_true.1 List.all_takeWhile
    refine ⟨rest.takeWhile (· != quote) ++ [quote], behind, ?_, ?_, fun tail apart => ?_⟩
    · rw [List.append_assoc]
      exact split
    · rw [List.length_append, List.length_singleton]
    · -- The closing quote ends the string, whatever stands behind it.
      have same : (rest.takeWhile (· != quote) ++ (quote :: tail)).takeWhile (· != quote)
          = rest.takeWhile (· != quote) := by
        rw [List.takeWhile_append_of_pos inside, List.takeWhile_cons_of_neg (by simp),
          List.append_nil]
      rw [List.append_assoc, List.singleton_append]
      simp only [stringLexeme, same]
      rw [if_pos]
      rw [List.length_append, List.length_cons]
      omega
  · cases isString

/-- **A number is found again** wherever nothing behind it continues it, as nothing did before. -/
theorem numberLexeme_again {c : Char} (starts : continuesNumber c = true) {rest : List Char}
    {kind : TokenKind} {taken : Nat} (isNumber : numberLexeme (c :: rest) = .token kind taken) :
    ∃ more behind, rest = more ++ behind ∧ taken = 1 + more.length ∧
      (∀ c ∈ behind.head?, continuesNumber c = false) ∧
      ∀ tail, (∀ c ∈ tail.head?, continuesNumber c = false) →
        numberLexeme (c :: (more ++ tail)) = .token kind taken := by
  obtain ⟨number, behind, split, length, hasForm⟩ := exists_number (c :: rest)
  obtain ⟨isTaken, ends, -⟩ := token_of_numberLexeme isNumber
  rw [length] at isTaken ends
  rw [split, List.drop_left] at ends
  rw [split, numberLexeme_append hasForm ends] at isNumber
  cases number with
  | nil =>
    -- The first character would stand behind the number, and it continues numbers.
    subst split
    exact absurd starts (Bool.eq_false_iff.1 (ends c rfl))
  | cons first more =>
    cases split
    refine ⟨more, behind, rfl, isTaken.trans (Nat.add_comm ..), ends, fun tail stops => ?_⟩
    rw [← List.cons_append, numberLexeme_append hasForm stops]
    exact isNumber

theorem findsAgain_number {c : Char} (starts : continuesNumber c = true) :
    FindsAgain fun rest => numberLexeme (c :: rest) := by
  intro rest kind taken isNumber
  obtain ⟨more, behind, split, isTaken, -, again⟩ := numberLexeme_again starts isNumber
  exact ⟨more, behind, split, isTaken, fun tail apart => again tail apart.ends⟩

/-- A token that takes only its character, whatever stands behind it. -/
theorem findsAgain_single (kind : TokenKind) : FindsAgain fun _ => .token kind 1 := by
  intro rest _ _ isSingle
  cases isSingle
  exact ⟨[], rest, rfl, rfl, fun _ _ => rfl⟩

theorem findsAgain_fault (fault : SyntaxFault) (bytes taken : Nat) :
    FindsAgain fun _ => .fault fault bytes taken := nofun

theorem double_ne_blank {c second : Char} {pair alone : TokenKind}
    (isDouble : double? c = some (second, pair, alone)) : second ≠ ' ' := by
  unfold double? at isDouble
  split at isDouble <;> cases isDouble <;> decide

/-- **A character that a second one may follow**: a blank is no such second one. -/
theorem findsAgain_double {second : Char} (noBlank : second ≠ ' ') (pair alone : TokenKind) :
    FindsAgain fun rest => if rest.head? = some second then .token pair 2 else .token alone 1 := by
  intro rest kind taken isToken
  simp only at isToken
  split at isToken
  · rename_i isSecond
    cases isToken
    obtain ⟨behind, rfl⟩ := List.head?_eq_some_iff.1 isSecond
    exact ⟨[second], behind, rfl, rfl, fun _ _ => if_pos rfl⟩
  · cases isToken
    exact ⟨[], rest, rfl, rfl, fun tail apart =>
      if_neg fun isSecond => noBlank (apart second isSecond)⟩

/-- **A point starts a number before a digit**, and it does so again, since the number takes the
digit. Else it is a token of its own, and a blank is no digit. -/
theorem findsAgain_point :
    FindsAgain fun rest =>
      if !rest.head?.any Char.isDigit then .token .dot 1 else numberLexeme ('.' :: rest) := by
  intro rest kind taken isToken
  simp only at isToken
  split at isToken
  · cases isToken
    refine ⟨[], rest, rfl, rfl, fun tail apart => if_pos ?_⟩
    cases tail with
    | nil => rfl
    | cons c tail =>
      rw [apart c rfl]
      rfl
  · rename_i isFraction
    obtain ⟨more, behind, rfl, isTaken, ends, again⟩ := numberLexeme_again (by decide) isToken
    refine ⟨more, behind, rfl, isTaken, fun tail apart => ?_⟩
    cases more with
    | nil =>
      cases behind with
      | nil => exact absurd rfl isFraction
      | cons digit behind =>
        have noDigit := (noPart_of_continuesNumber (ends digit rfl)).1
        exact absurd (by simp [noDigit]) isFraction
    | cons digit more => exact (if_neg isFraction).trans (again tail apart.ends)

/-- **Whatever starts at a character is found again.** -/
theorem findsAgain_lexeme (c : Char) : FindsAgain (lexeme c) := by
  have alike {find : List Char → Lexeme} (again : FindsAgain find)
      (same : ∀ rest, lexeme c rest = find rest) : FindsAgain (lexeme c) := by
    rwa [funext same]
  cases isSingle : single? c with
  | some kind => exact alike (findsAgain_single kind) fun rest => by simp only [lexeme, isSingle]
  | none =>
    cases isDouble : double? c with
    | some double =>
      obtain ⟨second, pair, alone⟩ := double
      exact alike (findsAgain_double (double_ne_blank isDouble) pair alone) fun rest => by
        simp only [lexeme, isSingle, isDouble]
    | none =>
      by_cases isQuote : c = '"' ∨ c = '\''
      · exact alike (findsAgain_string c) fun rest => by
          simp only [lexeme, isSingle, isDouble, if_pos isQuote]
      · by_cases isPoint : c = '.'
        · refine alike findsAgain_point fun rest => ?_
          subst isPoint
          simp only [lexeme, isSingle, isDouble, if_neg isQuote, true_and, true_or, if_true]
        · by_cases isDigit : c.isDigit = true
          · refine alike (findsAgain_number (continuesNumber_of_isDigit isDigit)) fun rest => ?_
            simp only [lexeme, isSingle, isDouble, if_neg isQuote, isPoint, isDigit, false_and,
              if_false, or_true, if_true]
          · by_cases isName : startsName c = true
            · refine alike (findsAgain_name c) fun rest => ?_
              simp only [lexeme, isSingle, isDouble, if_neg isQuote, isPoint, isDigit, false_and,
                if_false, Bool.false_eq_true, or_self, isName, if_true]
            · refine alike (findsAgain_fault (.unexpectedCharacter c) c.utf8Size 1) fun rest => ?_
              simp only [lexeme, isSingle, isDouble, if_neg isQuote, isPoint, isDigit, false_and,
                if_false, Bool.false_eq_true, or_self, isName]

/-! ### One token -/

theorem scan_token {c : Char} {rest : List Char} {kind : TokenKind} {taken : Nat}
    (noBlank : ¬isBlank c = true) (isToken : lexeme c rest = .token kind taken) (byte : Nat) :
    scan byte (c :: rest) = some ⟨.ok ⟨kind, String.ofList ((c :: rest).take taken), byte⟩,
      byte + Text.Utf8.size ((c :: rest).take taken), (c :: rest).drop taken⟩ := by
  simp only [scan, if_neg noBlank, isToken, Lexeme.taken]

end Scan

/-- **A token stands alone**: its text, with a blank or nothing behind it, is scanned as it. -/
def Token.StandsAlone (token : Token) : Prop :=
  ∀ byte tail, Scan.Apart tail →
    Scan.scan byte (token.literal.toList ++ tail)
      = some ⟨.ok { token with offset := byte },
          byte + Text.Utf8.size token.literal.toList, tail⟩

namespace Scan

/-- **The tokens of a text stand alone**, whatever stands around them there. -/
theorem standsAlone_of_scan {byte : Nat} {text : List Char} {scanned : Scanned} {token : Token}
    (found : scan byte text = some scanned) (isToken : scanned.item = .ok token) :
    token.StandsAlone := by
  induction text generalizing byte with
  | nil => cases found
  | cons c rest ih =>
    by_cases blank : isBlank c = true
    · rw [scan_blank blank] at found
      exact ih found
    · cases isLexeme : lexeme c rest with
      | fault fault bytes taken =>
        simp only [scan, if_neg blank, isLexeme] at found
        cases found
        cases isToken
      | token kind taken =>
        rw [scan_token blank isLexeme] at found
        cases found
        cases isToken
        obtain ⟨more, behind, rfl, rfl, again⟩ := findsAgain_lexeme c rest kind taken isLexeme
        have isTaken (tail : List Char) :
            (c :: (more ++ tail)).take (1 + more.length) = c :: more := by
          rw [Nat.add_comm, List.take_succ_cons, List.take_left]
        have isLeft (tail : List Char) : (c :: (more ++ tail)).drop (1 + more.length) = tail := by
          rw [Nat.add_comm, List.drop_succ_cons, List.drop_left]
        intro start tail apart
        simp only [isTaken, String.toList_ofList, List.cons_append]
        rw [scan_token blank (again tail apart), isTaken, isLeft]

theorem standsAlone_of_items {byte : Nat} {text : List Char} {tokens : List Token}
    (areItems : items byte text = tokens.map .ok) : ∀ token ∈ tokens, token.StandsAlone := by
  induction byte, text using items.induct generalizing tokens with
  | case1 byte text found =>
    rw [items_of_end found] at areItems
    cases List.map_eq_nil_iff.1 areItems.symm
    exact fun _ member => absurd member List.not_mem_nil
  | case2 byte text scanned found ih =>
    rw [items_of_scan found] at areItems
    obtain ⟨token, rest, rfl, isToken, areRest⟩ := List.map_eq_cons_iff.1 areItems.symm
    exact List.forall_mem_cons.2 ⟨standsAlone_of_scan found isToken.symm, ih areRest.symm⟩

end Scan

/-! ### A text of tokens -/

/-- **The text of some tokens**, with a single space between any two. -/
def respaced (tokens : List Token) : String :=
  " ".intercalate (tokens.map Token.literal)

namespace Scan

/-- A space in front of a text moves its tokens, and that is all. -/
theorem items_space (byte : Nat) (text : List Char) :
    items byte (' ' :: text) = items (byte + 1) text := by
  have skipped : scan byte (' ' :: text) = scan (byte + 1) text := scan_blank rfl byte text
  cases found : scan (byte + 1) text with
  | none => rw [items_of_end found, items_of_end (skipped.trans found)]
  | some scanned => rw [items_of_scan found, items_of_scan (skipped.trans found)]

theorem items_of_standsAlone {token : Token} (alone : token.StandsAlone) (byte : Nat)
    {tail : List Char} (apart : Apart tail) :
    items byte (token.literal.toList ++ tail) = .ok { token with offset := byte } ::
      items (byte + Text.Utf8.size token.literal.toList) tail :=
  items_of_scan (alone byte tail apart)

/-- **Tokens that stand alone are the tokens of their text**, up to their places. -/
theorem items_respaced {tokens : List Token} (alone : ∀ token ∈ tokens, token.StandsAlone)
    (byte : Nat) :
    ∃ others : List Token, items byte (respaced tokens).toList = others.map .ok ∧
      others.map Token.unplaced = tokens.map Token.unplaced := by
  induction tokens generalizing byte with
  | nil => exact ⟨[], items_of_end rfl, rfl⟩
  | cons token rest ih =>
    have first := alone token (.head _)
    cases rest with
    | nil =>
      refine ⟨[{ token with offset := byte }], ?_, rfl⟩
      have whole := items_of_standsAlone first byte .nil
      rwa [List.append_nil, @items_of_end _ [] rfl] at whole
    | cons second rest =>
      obtain ⟨others, areItems, same⟩ := ih (fun other member => alone other (.tail _ member))
        (byte + Text.Utf8.size token.literal.toList + 1)
      refine ⟨{ token with offset := byte } :: others, ?_, congrArg (token.unplaced :: ·) same⟩
      have split : (respaced (token :: second :: rest)).toList
          = token.literal.toList ++ ' ' :: (respaced (second :: rest)).toList := by
        rw [respaced, List.map_cons, List.map_cons, String.intercalate_cons_cons,
          String.toList_append, String.toList_append, List.append_assoc]
        rfl
      rw [split, items_of_standsAlone first byte (.blank _), items_space, areItems, List.map_cons]

end Scan

/-- **Token boundaries do not depend on spacing.** If a formula is made of tokens, their texts with
single spaces in between are made of as many tokens, of the same kinds, number values included, and
the same texts. So within any limits both are parsed and accepted alike: in the same tree, or for
the same cause with the same code and message, and only places differ. -/
theorem respaced_alike {formula : String} {tokens : List Token}
    (areTokens : itemsOf formula = tokens.map .ok) :
    (∃ others : List Token, itemsOf (respaced tokens) = others.map .ok ∧
      others.length = tokens.length ∧ others.map Token.kind = tokens.map Token.kind ∧
      others.map Token.literal = tokens.map Token.literal) ∧
    ∀ limits : Limits,
      Displaced Expr.unplaced (parse limits (respaced tokens)) (parse limits formula) ∧
      Displaced Expr.unplaced ((Formula.accept (respaced tokens) limits).map Formula.tree)
        ((Formula.accept formula limits).map Formula.tree) ∧
      ∀ error other, Formula.accept (respaced tokens) limits = .error error →
        Formula.accept formula limits = .error other →
        error.code = other.code ∧ error.message = other.message := by
  obtain ⟨others, areOthers, same⟩ :=
    Scan.items_respaced (Scan.standsAlone_of_items areTokens) 0
  -- What does not look at the place of a token is the same of both.
  have alikeIn {α : Type} (part : Token → α) (blind : ∀ token, part token.unplaced = part token) :
      others.map part = tokens.map part := by
    have kept (tokens : List Token) : (tokens.map Token.unplaced).map part = tokens.map part := by
      rw [List.map_map]
      exact List.map_congr_left fun token _ => blind token
    rw [← kept others, same, kept]
  have sameItems : (itemsOf (respaced tokens)).map (withoutPlaces Token.unplaced)
      = (itemsOf formula).map (withoutPlaces Token.unplaced) := by
    rw [areTokens, itemsOf, areOthers, List.map_map, List.map_map]
    exact alikeIn (withoutPlaces Token.unplaced ∘ Except.ok) fun _ => rfl
  refine ⟨⟨others, areOthers, ?_, alikeIn _ fun _ => rfl, alikeIn _ fun _ => rfl⟩,
    fun limits => ⟨?_, displaced_accept limits sameItems, ?_⟩⟩
  · have sameLength := congrArg List.length same
    rwa [List.length_map, List.length_map] at sameLength
  · exact Parser.displaced_parseItems limits _ _ sameItems
  · intro error other isError isOther
    have alike := displaced_accept limits sameItems
    rw [isError, isOther] at alike
    have cause : error.unplaced = other.unplaced := Except.error.inj alike
    rw [← error.code_unplaced, ← error.message_unplaced, cause, other.code_unplaced,
      other.message_unplaced]
    exact ⟨rfl, rfl⟩

/-- Tokens that stand close together: an operator of two characters, and behind it a number that
starts with its point and has an exponent. -/
theorem respaced_alike_power :
    let tokens : List Token := [⟨.name, "a", 0⟩, ⟨.starStar, "**", 1⟩, ⟨.number 5, ".5e1", 3⟩]
    itemsOf "a**.5e1" = tokens.map .ok ∧ respaced tokens = "a ** .5e1" ∧
      Displaced Expr.unplaced (parse {} "a ** .5e1") (parse {} "a**.5e1") := by
  intro tokens
  have isRead : readNumber? ['.', '5', 'e', '1'] = some 5 := by decide +kernel
  have isFinite : Float.isFinite 5 = true := by decide +kernel
  have isNumber : Scan.lexeme '.' ['5', 'e', '1'] = .token (.number 5) 4 := by
    have length : Scan.numberLength ['.', '5', 'e', '1'] = 4 := by decide +kernel
    have isFraction : Scan.lexeme '.' ['5', 'e', '1']
        = Scan.numberLexeme ['.', '5', 'e', '1'] := by
      simp [Scan.lexeme, Scan.single?, Scan.double?]
    simp [isFraction, Scan.numberLexeme, length, isRead, isFinite]
  have areTokens : itemsOf "a**.5e1" = tokens.map .ok := by
    have name : Scan.scan 0 "a**.5e1".toList = some ⟨.ok ⟨.name, "a", 0⟩, 1, "**.5e1".toList⟩ := by
      with_unfolding_all rfl
    have power : Scan.scan 1 "**.5e1".toList
        = some ⟨.ok ⟨.starStar, "**", 1⟩, 3, ".5e1".toList⟩ := by
      with_unfolding_all rfl
    have number : Scan.scan 3 ".5e1".toList = some ⟨.ok ⟨.number 5, ".5e1", 3⟩, 7, []⟩ :=
      Scan.scan_token (by decide) isNumber 3
    rw [itemsOf, Scan.items_of_scan name, Scan.items_of_scan power, Scan.items_of_scan number,
      @Scan.items_of_end _ [] rfl]
    rfl
  exact ⟨areTokens, rfl, ((respaced_alike areTokens).2 {}).1⟩

end ColumnCalc
