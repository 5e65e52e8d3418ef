/-
**What starts at a character of a formula.**

A character, and for a point the one behind it, says what is found there: one of seven starts. The
item that begins there and how far it goes are then a matter of that start alone (`lexeme_eq`), so a
fact about all items is a fact about seven cases.

* `startOf_fits` — the characters of each start.
* `blames_of_lexeme` — a fault is about whole characters, from the first one on.
* `origin_of_lexeme` — which tokens are names and numbers.
* `name_of_lexeme` — a name is spelled as names are, and it is no other word.
-/

import ColumnCalc.Proofs.Formula.Numerals

namespace ColumnCalc.Scan

open Text (isAlphabetic)

/-- What starts at a character. -/
inductive Start where
  | single (kind : TokenKind)
  | double (second : Char) (pair alone : TokenKind)
  | string
  | point
  | number
  | name
  | other

/-- What starts at the character `c` in front of `rest`. -/
def startOf (c : Char) (rest : List Char) : Start :=
  match single? c with
  | some kind => .single kind
  | none =>
    match double? c with
    | some (second, pair, alone) => .double second pair alone
    | none =>
      if c = '"' ∨ c = '\'' then .string
      else if c = '.' ∧ !rest.head?.any Char.isDigit then .point
      else if c = '.' ∨ c.isDigit then .number
      else if startsName c then .name
      else .other

/-- The lexeme of a start. -/
def Start.lexeme (c : Char) (rest : List Char) : Start → Lexeme
  | single kind => .token kind 1
  | double second pair alone => if rest.head? = some second then .token pair 2 else .token alone 1
  | string => stringLexeme c rest
  | point => .token .dot 1
  | number => numberLexeme (c :: rest)
  | name => nameLexeme c rest
  | other => .fault (.unexpectedCharacter c) c.utf8Size 1

/-- **The lexeme at a character is that of what starts there.** -/
theorem lexeme_eq (c : Char) (rest : List Char) :
    lexeme c rest = (startOf c rest).lexeme c rest := by
  unfold lexeme startOf
  cases single? c with
  | some kind => rfl
  | none =>
    cases double? c with
    | some double => rfl
    | none =>
      by_cases isQuote : c = '"' ∨ c = '\''
      · simp only [if_pos isQuote, Start.lexeme]
      · simp only [if_neg isQuote]
        by_cases isPoint : c = '.' ∧ !rest.head?.any Char.isDigit
        · simp only [if_pos isPoint, Start.lexeme]
        · simp only [if_neg isPoint]
          by_cases isNumber : c = '.' ∨ c.isDigit = true
          · simp only [if_pos isNumber, Start.lexeme]
          · simp only [if_neg isNumber]
            cases startsName c <;> rfl

/-- The characters at which something starts. -/
def Start.Fits (c : Char) : Start → Prop
  | single kind => single? c = some kind
  | double second pair alone => double? c = some (second, pair, alone)
  | string => c = '"' ∨ c = '\''
  | point => c = '.'
  | number => c = '.' ∨ c.isDigit = true
  | name => startsName c = true
  | other => True

theorem startOf_fits (c : Char) (rest : List Char) : (startOf c rest).Fits c := by
  unfold startOf
  cases isSingle : single? c with
  | some kind => exact isSingle
  | none =>
    cases isDouble : double? c with
    | some double => exact isDouble
    | none =>
      by_cases isQuote : c = '"' ∨ c = '\''
      · simp only [if_pos isQuote]
        exact isQuote
      · simp only [if_neg isQuote]
        by_cases isPoint : c = '.' ∧ !rest.head?.any Char.isDigit
        · simp only [if_pos isPoint]
          exact isPoint.1
        · simp only [if_neg isPoint]
          by_cases isNumber : c = '.' ∨ c.isDigit = true
          · simp only [if_pos isNumber]
            exact isNumber
          · simp only [if_neg isNumber]
            cases isName : startsName c with
            | true => exact isName
            | false => trivial

/-- What starts a number may stand behind one. -/
theorem continuesNumber_of_starts {c : Char} (starts : c = '.' ∨ c.isDigit = true) :
    continuesNumber c = true := by
  rcases starts with rfl | isDigit
  · rfl
  · exact continuesNumber_of_isDigit isDigit

/-- What starts a name may stand behind one. -/
theorem continuesName_of_startsName {c : Char} (starts : startsName c = true) :
    continuesName c = true := by
  rw [startsName, Bool.or_eq_true] at starts
  rw [continuesName, Bool.or_eq_true, Text.isAlphanumeric, Bool.or_eq_true]
  exact starts.imp_right .inl

/-- A string that ends has its quote behind the characters that are no such quote. -/
theorem exists_quote {quote : Char} {rest : List Char}
    (closed : (rest.takeWhile (· != quote)).length < rest.length) :
    ∃ behind, rest = rest.takeWhile (· != quote) ++ quote :: behind := by
  have split : rest.takeWhile (· != quote) ++ rest.dropWhile (· != quote) = rest :=
    List.takeWhile_append_dropWhile
  have stops := List.head?_dropWhile_not (· != quote) rest
  cases dropped : rest.dropWhile (· != quote) with
  | nil =>
    rw [dropped, List.append_nil] at split
    rw [split] at closed
    exact absurd closed (Nat.lt_irrefl _)
  | cons c behind =>
    rw [dropped] at split stops
    obtain rfl : c = quote := by simpa using stops
    exact ⟨behind, split.symm⟩

/-! ### Faults -/

/-- **What a fault is about**: characters from the first one on, as many bytes as it says. No fault
in the spelling of an item is that the formula ends. -/
structure Blames (text : List Char) (fault : SyntaxFault) (bytes : Nat) : Prop where
  covers : ∃ covered behind, text = covered ++ behind ∧ covered ≠ [] ∧
    Text.Utf8.size covered = bytes
  spelling : ∀ expected, fault ≠ .endOfFormula expected

theorem blames_front {text : List Char} {fault : SyntaxFault} {covered behind : List Char}
    (split : text = covered ++ behind) (nonempty : covered ≠ [])
    (spelling : ∀ expected, fault ≠ .endOfFormula expected) :
    Blames text fault (Text.Utf8.size covered) :=
  ⟨⟨covered, behind, split, nonempty, rfl⟩, spelling⟩

theorem blames_of_stringLexeme {c : Char} {rest : List Char} {fault : SyntaxFault}
    {bytes taken : Nat} (found : stringLexeme c rest = .fault fault bytes taken) :
    Blames (c :: rest) fault bytes := by
  simp only [stringLexeme] at found
  split at found
  · cases found
  · cases found
    refine blames_front (List.append_nil _).symm (List.cons_ne_nil c rest) fun expected same => ?_
    cases same

theorem blames_of_numberLexeme {c : Char} {rest : List Char} {fault : SyntaxFault}
    {bytes taken : Nat} (starts : c = '.' ∨ c.isDigit = true)
    (found : numberLexeme (c :: rest) = .fault fault bytes taken) :
    Blames (c :: rest) fault bytes := by
  have positive := numberLength_pos rest starts
  have literal : (c :: rest).take (numberLength (c :: rest)) ≠ [] := by
    intro isEmpty
    rcases List.take_eq_nil_iff.1 isEmpty with none | empty
    · omega
    · cases empty
  have split := (List.take_append_drop (numberLength (c :: rest)) (c :: rest)).symm
  simp only [numberLexeme] at found
  split at found
  · cases found
    refine blames_front List.takeWhile_append_dropWhile.symm ?_ fun expected same => ?_
    · rw [List.takeWhile_cons_of_pos (continuesNumber_of_starts starts)]
      exact List.cons_ne_nil _ _
    · cases same
  · split at found
    · cases found
      refine blames_front split literal fun expected same => ?_
      cases same
    · split at found
      · cases found
      · cases found
        refine blames_front split literal fun expected same => ?_
        cases same

/-- **A fault is about whole characters**, the first of which is where it was found. -/
theorem blames_of_lexeme {c : Char} {rest : List Char} {fault : SyntaxFault} {bytes taken : Nat}
    (found : lexeme c rest = .fault fault bytes taken) : Blames (c :: rest) fault bytes := by
  have fits := startOf_fits c rest
  rw [lexeme_eq] at found
  cases starts : startOf c rest <;> rw [starts] at fits found
  case single => cases found
  case double second pair alone =>
    simp only [Start.lexeme] at found
    split at found <;> cases found
  case string => exact blames_of_stringLexeme found
  case point => cases found
  case number => exact blames_of_numberLexeme fits found
  case name => cases found
  case other =>
    cases found
    exact @blames_front _ _ [c] rest rfl (List.cons_ne_nil c []) nofun

/-! ### Tokens -/

/-- A kind of token that is neither a name nor a number: its text is always the same, or it is not
part of the language. -/
def IsSign (kind : TokenKind) : Prop :=
  kind ≠ .name ∧ ∀ value, kind ≠ .number value

theorem isSign_string : IsSign .string :=
  ⟨nofun, nofun⟩

theorem isSign_dot : IsSign .dot :=
  ⟨nofun, nofun⟩

theorem isSign_of_single {c : Char} {kind : TokenKind} (found : single? c = some kind) :
    IsSign kind := by
  unfold single? at found
  split at found <;> cases found <;> exact ⟨nofun, nofun⟩

theorem isSign_of_double {c second : Char} {pair alone : TokenKind}
    (found : double? c = some (second, pair, alone)) : IsSign pair ∧ IsSign alone := by
  unfold double? at found
  split at found <;> cases found <;> exact ⟨⟨nofun, nofun⟩, ⟨nofun, nofun⟩⟩

/-- **Where tokens come from**: those that are no signs are read as names or as numbers. -/
theorem origin_of_lexeme {c : Char} {rest : List Char} {kind : TokenKind} {taken : Nat}
    (found : lexeme c rest = .token kind taken) :
    IsSign kind ∨ (startsName c = true ∧ nameLexeme c rest = .token kind taken) ∨
      ((c = '.' ∨ c.isDigit = true) ∧ numberLexeme (c :: rest) = .token kind taken) := by
  have fits := startOf_fits c rest
  rw [lexeme_eq] at found
  cases starts : startOf c rest <;> rw [starts] at fits found
  case single =>
    cases found
    exact .inl (isSign_of_single fits)
  case double second pair alone =>
    simp only [Start.lexeme] at found
    split at found <;> cases found
    · exact .inl (isSign_of_double fits).1
    · exact .inl (isSign_of_double fits).2
  case string =>
    simp only [Start.lexeme, stringLexeme] at found
    split at found <;> cases found
    exact .inl isSign_string
  case point =>
    cases found
    exact .inl isSign_dot
  case number => exact .inr (.inr ⟨fits, found⟩)
  case name => exact .inr (.inl ⟨fits, found⟩)
  case other => cases found

/-- **How a name is spelled**: a letter or an underscore first, then letters, digits and underscores,
and the whole is none of the words that are tokens of their own. -/
structure SpellsName (text : List Char) : Prop where
  characters : ∃ first more, text = first :: more ∧ (first = '_' ∨ isAlphabetic first = true) ∧
    ∀ c ∈ more, c = '_' ∨ Text.isAlphanumeric c = true
  noKeyword : String.ofList text ∉ ["and", "or", "not", "if", "else", "lambda"]

/-- A word that is a name is no keyword. -/
theorem noKeyword_of_name {word : String} (isName : (keyword? word).getD .name = .name) :
    word ∉ ["and", "or", "not", "if", "else", "lambda"] := by
  intro member
  simp only [List.mem_cons, List.not_mem_nil, or_false] at member
  rcases member with rfl | rfl | rfl | rfl | rfl | rfl <;> cases isName

/-- **A name is spelled as names are.** -/
theorem name_of_lexeme {c : Char} {rest : List Char} {taken : Nat}
    (found : lexeme c rest = .token .name taken) : SpellsName ((c :: rest).take taken) := by
  rcases origin_of_lexeme found with isSign | ⟨starts, isName⟩ | ⟨-, isNumber⟩
  · exact absurd rfl isSign.1
  · simp only [nameLexeme, Lexeme.token.injEq] at isName
    obtain ⟨isName, rfl⟩ := isName
    have isTaken : (c :: rest).take (1 + (rest.takeWhile continuesName).length)
        = c :: rest.takeWhile continuesName := by
      rw [Nat.add_comm, List.take_succ_cons]
      exact congrArg _ (List.prefix_iff_eq_take.1 (List.takeWhile_prefix _)).symm
    rw [isTaken]
    refine ⟨⟨c, _, rfl, ?_, fun d member => ?_⟩, noKeyword_of_name isName⟩
    · rwa [startsName, Bool.or_eq_true, beq_iff_eq] at starts
    · have continues : continuesName d = true := List.all_eq_true.1 List.all_takeWhile d member
      rwa [continuesName, Bool.or_eq_true, beq_iff_eq] at continues
  · obtain ⟨-, -, value, isValue, -⟩ := token_of_numberLexeme isNumber
    cases isValue

end ColumnCalc.Scan
