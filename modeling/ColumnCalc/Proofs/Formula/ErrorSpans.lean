/-
**Every error points into its formula.**

Unless a formula is too complex as a whole, its error has a span that can be shown: it lies in the
text, covers something, and ends where a character ends. It starts where a character starts, too,
with one exception. A formula that ends too early is at fault at its last byte, whatever character
that byte belongs to.

* `PointsInto` — what a span must be to be shown.
* `pointsInto_covered`, `pointsInto_end` — the spans of characters, and the last byte.
* `refused_of_advance` — a token is refused at its span, and never for the end of the formula.
* `error_points_into` — all errors of parsing and checking.
-/

import ColumnCalc.Proofs.Formula.FirstFault
import ColumnCalc.Proofs.Formula.Names

namespace ColumnCalc

/-- **A byte of a text that splits no character**: a character starts there, or the text ends. -/
def IsBoundary (text : List Char) (byte : Nat) : Prop :=
  ∃ before behind, text = before ++ behind ∧ Text.Utf8.size before = byte

/-- **A span at which an error can be shown in a text.** -/
structure PointsInto (text : String) (error : FormulaError) (span : Span) : Prop where
  isSpan : error.span? = some span
  inside : span.stop ≤ text.utf8ByteSize
  nonempty : text ≠ "" → 0 < span.length
  stop : IsBoundary text.toList span.stop
  start : (∀ expected, error ≠ .malformed (.endOfFormula expected) span) →
    IsBoundary text.toList span.offset
  lastByte : ∀ expected, error = .malformed (.endOfFormula expected) span →
    span.offset = text.utf8ByteSize - 1 ∧ span.stop = text.utf8ByteSize

/-- Whole characters start and end at boundaries. -/
theorem pointsInto_covered {text : String} {error : FormulaError} {span : Span}
    {characters : List Char} (isSpan : error.span? = some span)
    (covers : Covers text.toList span characters) (nonempty : 0 < span.length)
    (within : ∀ expected, error ≠ .malformed (.endOfFormula expected) span) :
    PointsInto text error span := by
  obtain ⟨before, behind, split, start, length⟩ := covers
  have whole := congrArg Text.Utf8.size split
  rw [Text.Utf8.size_toList, Text.Utf8.size_append, Text.Utf8.size_append, start, length] at whole
  refine ⟨isSpan, ?_, fun _ => nonempty, ⟨before ++ characters, behind, ?_, ?_⟩, fun _ => ?_, ?_⟩
  · rw [Span.stop]
    omega
  · rw [split, List.append_assoc]
  · rw [Text.Utf8.size_append, start, length, Span.stop]
  · exact ⟨before, characters ++ behind, split, start⟩
  · exact fun expected same => absurd same (within expected)

/-- The end of a formula is shown at its last byte, which may be part of a character. -/
theorem pointsInto_end (text : String) (expected : Expectation) :
    PointsInto text (endOfFormula text.utf8ByteSize expected)
      ⟨text.utf8ByteSize - 1, text.utf8ByteSize - (text.utf8ByteSize - 1)⟩ := by
  have stop : text.utf8ByteSize - 1 + (text.utf8ByteSize - (text.utf8ByteSize - 1))
      = text.utf8ByteSize := by omega
  refine ⟨rfl, Nat.le_of_eq stop, fun nonempty => ?_, ⟨text.toList, [], ?_, ?_⟩, ?_, ?_⟩
  · have positive : 0 < text.utf8ByteSize := by
      refine Nat.pos_of_ne_zero fun none => nonempty ?_
      exact String.utf8ByteSize_eq_zero_iff.1 none
    show 0 < text.utf8ByteSize - (text.utf8ByteSize - 1)
    omega
  · exact (List.append_nil _).symm
  · rw [Text.Utf8.size_toList]
    exact stop.symm
  · exact fun otherwise => absurd rfl (otherwise expected)
  · exact fun _ _ => ⟨rfl, stop⟩

/-! ### Errors of parsing -/

namespace Parser

/-- **A token that is refused**, at its span: for what it introduces, or for a fault that is not the
end of the formula. -/
def Refused (token : Token) (error : FormulaError) : Prop :=
  (∃ construct, error = .disallowedConstruct construct token.span) ∨
    ∃ fault, error = .malformed fault token.span ∧ ∀ expected, fault ≠ .endOfFormula expected

theorem refused_rejection (token : Token) {fault : SyntaxFault}
    (within : ∀ expected, fault ≠ .endOfFormula expected) :
    Refused token (token.rejection fault) := by
  unfold Token.rejection
  split
  · exact .inl ⟨_, rfl⟩
  · exact .inr ⟨fault, rfl, within⟩

theorem refused_of_readOperand {frames : List Frame} {nodes : Nat} {token : Token}
    {error : FormulaError} (read : readOperand frames nodes token = .error error) :
    Refused token error := by
  unfold readOperand at read
  split at read
  · cases read
  · cases read
  · cases read
  · split at read
    · cases read
    · cases read
      exact refused_rejection token nofun

theorem refused_of_readClosing {operand : Expr} {frames : List Frame} {nodes : Nat} {token : Token}
    {error : FormulaError} (read : readClosing operand frames nodes token = .error error) :
    Refused token error := by
  unfold readClosing at read
  split at read
  · split at read
    · cases read
    · cases read
      exact refused_rejection token nofun
  · split at read
    · cases read
    · cases read
    · cases read
      exact refused_rejection token nofun
  · cases read
    exact refused_rejection token nofun

theorem refused_of_readComplete {operand : Expr} {frames : List Frame} {nodes : Nat} {token : Token}
    {error : FormulaError} (read : readComplete operand frames nodes token = .error error) :
    Refused token error := by
  unfold readComplete at read
  split at read
  · cases read
    exact .inl ⟨_, rfl⟩
  · split at read
    · cases read
      exact .inl ⟨_, rfl⟩
    · cases read
    · exact refused_of_readClosing read

/-- **The automaton refuses a token at its span.** -/
theorem refused_of_advance {state : State} {token : Token} {error : FormulaError}
    (read : advance state (.ok token) = .error error) : Refused token error := by
  obtain ⟨phase, frames, nodes⟩ := state
  cases phase with
  | operand => exact refused_of_readOperand read
  | afterName name span =>
    simp only [advance] at read
    split at read
    · cases read
    · exact refused_of_readComplete read
  | afterCall function span =>
    simp only [advance] at read
    split at read
    · cases read
    · exact refused_of_readOperand read
  | complete operand => exact refused_of_readComplete read

/-- Without the limits a formula that is not too complex has the same error. -/
theorem readItems_of_failed {limits : Limits} {text : String} {error : FormulaError}
    (failed : parse limits text = .error error) (within : ∀ excess, error ≠ .tooComplex excess) :
    readItems text.utf8ByteSize (itemsOf text) = .error error := by
  rcases parse_cutOff limits text with same | ⟨excess, same⟩
  · exact same.symm.trans failed
  · rw [failed] at same
    cases same
    exact absurd rfl (within excess)

end Parser

/-- **Errors of parsing** are at an item or at the end. -/
theorem pointsInto_of_parse {limits : Limits} {text : String} {error : FormulaError}
    (failed : parse limits text = .error error) (within : ∀ excess, error ≠ .tooComplex excess) :
    ∃ span, PointsInto text error span := by
  obtain ⟨before, rest, last, split, -, -, stops⟩ :=
    Parser.readItems_stops text.utf8ByteSize (itemsOf text)
  rw [Parser.readItems_of_failed failed within] at stops
  cases rest with
  | nil =>
    obtain ⟨expected, rfl⟩ := Parser.refusal_of_conclude stops.symm
    exact ⟨_, pointsInto_end text expected⟩
  | cons item rest =>
    have member : item ∈ itemsOf text := split ▸ List.mem_append_right _ (.head rest)
    obtain ⟨span, stands⟩ := standsIn_of_itemsOf member
    obtain ⟨characters, covers⟩ := stands.covers
    cases item with
    | error lexical =>
      cases stops
      obtain ⟨fault, rfl, spelling⟩ := stands.fault error rfl
      refine ⟨span, pointsInto_covered rfl covers stands.nonempty fun expected same => ?_⟩
      cases same
      exact spelling expected rfl
    | ok token =>
      obtain ⟨refused, isRefused, answer⟩ := stops
      cases answer
      have inText := stands.token token rfl
      rcases Parser.refused_of_advance isRefused with ⟨construct, rfl⟩ | ⟨fault, rfl, other⟩
      · exact ⟨_, pointsInto_covered rfl inText.covers inText.nonempty nofun⟩
      · refine ⟨_, pointsInto_covered rfl inText.covers inText.nonempty fun expected same => ?_⟩
        cases same
        exact other expected rfl

/-! ### Errors of checking -/

/-- **A call that is not permitted** is shown at its name. -/
theorem pointsInto_of_forbidden {limits : Limits} {text : String} {tree : Expr} {name : String}
    {span : Span} (parsed : parse limits text = .ok tree)
    (found : tree.forbiddenCall? = some (name, span)) :
    PointsInto text (.disallowedFunction name span) span := by
  rw [Expr.forbiddenCall_eq] at found
  have isLabel := Expr.mem_labels_of_callees (List.mem_of_find?_eq_some found)
  obtain ⟨covers, nonempty, -⟩ := label_of_parse parsed isLabel
  exact pointsInto_covered rfl covers nonempty nofun

/-- **Every formula error points into the formula.** If a formula is rejected, and not because it is
too complex, the error has a span that lies in the text, ends at the end of a character, and is not
empty unless the text is. It starts where a character starts, unless the formula ends too early:
then it is the last byte. -/
theorem error_points_into {text : String} {limits : Limits} {error : FormulaError}
    (rejected : Formula.accept text limits = .error error)
    (within : ∀ excess, error ≠ .tooComplex excess) :
    ∃ span, PointsInto text error span := by
  rcases accept_error rejected with failed | ⟨tree, parsed, checked⟩
  · exact pointsInto_of_parse failed within
  · rcases check_error checked with ⟨excess, rfl⟩ | ⟨name, span, found, rfl⟩
    · exact absurd rfl (within excess)
    · exact ⟨span, pointsInto_of_forbidden parsed found⟩

/-- `(é` ends too early; the last byte of the text is the second one of its last character. -/
theorem error_points_into_end :
    let error : FormulaError := .malformed (.endOfFormula .closingParen) ⟨2, 1⟩
    Formula.accept "(é" = .error error ∧ (∃ span, PointsInto "(é" error span) ∧
      ¬ IsBoundary "(é".toList 2 := by
  intro error
  have rejected : Formula.accept "(é" = .error error := by with_unfolding_all rfl
  refine ⟨rejected, error_points_into rejected nofun, ?_⟩
  rintro ⟨before, behind, split, size⟩
  match before, split with
  | [], _ => cases size
  | [_], rfl => cases size
  | [_, _], rfl => cases size

end ColumnCalc
