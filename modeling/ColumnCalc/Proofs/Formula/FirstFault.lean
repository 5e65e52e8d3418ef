/-
**A formula is refused at its first fault.**

The items of a refused formula are tokens that start a sentence, and behind them the fault: a lexical
error, a token with which no sentence goes on, or the end of the formula where no sentence ends.
Nothing is refused late, since whatever the automaton has read starts a sentence
(`viable_of_reads`), and nothing early, since it reads every sentence (`conclude_of_derives`).

* `Refusal` — what the error of a refused token is: it depends on the kind of the token only.
* `refusal_of_advance` — the automaton refuses in these words.
* `not_viable_of_advance` — it refuses only tokens with which no sentence goes on.
* `parse_error_first_fault` — the first fault of a formula within limits.
-/

import ColumnCalc.Proofs.Formula.Sentences

namespace ColumnCalc.Parser

open Grammar (Derives Viable EndsInOperand)

/-- **The error of a refused token** behind some tokens, at the token's span: the notation that the
token belongs to if that lies outside the language; a call of something that is no name for a
parenthesis, which is refused only behind a complete operand; and a syntax error otherwise. -/
structure Refusal (before : List Token) (token : Token) (error : FormulaError) : Prop where
  outside : ∀ construct, token.kind.construct? = some construct →
    error = .disallowedConstruct construct token.span
  call : token.kind = .leftParen →
    EndsInOperand before ∧ error = .disallowedConstruct .callOfNonName token.span
  other : token.kind.construct? = none → token.kind ≠ .leftParen →
    ∃ fault, error = .malformed fault token.span

/-- A rejection that does not look at parentheses. -/
theorem refusal_of_rejection {before : List Token} {token : Token} (fault : SyntaxFault)
    (noParen : token.kind ≠ .leftParen) : Refusal before token (token.rejection fault) where
  outside construct isOutside := by
    rw [Token.rejection, isOutside]
  call isParen := absurd isParen noParen
  other isInside _ := by
    rw [Token.rejection, isInside]
    exact ⟨fault, rfl⟩

theorem refusal_of_readOperand {frames : List Frame} {nodes : Nat} {before : List Token}
    {token : Token} {error : FormulaError} (read : readOperand frames nodes token = .error error) :
    Refusal before token error := by
  unfold readOperand at read
  split at read
  · cases read
  · cases read
  · cases read
  · rename_i noParen
    split at read
    · cases read
    · cases read
      exact refusal_of_rejection _ noParen

theorem refusal_of_readClosing {operand : Expr} {frames : List Frame} {nodes : Nat}
    {before : List Token} {token : Token} {error : FormulaError} (noParen : token.kind ≠ .leftParen)
    (read : readClosing operand frames nodes token = .error error) :
    Refusal before token error := by
  unfold readClosing at read
  split at read
  · split at read
    · cases read
    · cases read
      exact refusal_of_rejection _ noParen
  · split at read
    · cases read
    · cases read
    · cases read
      exact refusal_of_rejection _ noParen
  · cases read
    exact refusal_of_rejection _ noParen

theorem refusal_of_readComplete {operand : Expr} {frames : List Frame} {nodes : Nat}
    {before : List Token} {token : Token} {error : FormulaError} (ends : EndsInOperand before)
    (read : readComplete operand frames nodes token = .error error) :
    Refusal before token error := by
  unfold readComplete at read
  split at read
  · rename_i construct isOutside
    cases read
    refine ⟨?_, ?_, ?_⟩
    · intro other same
      rw [isOutside] at same
      cases same
      rfl
    · intro isParen
      rw [isParen] at isOutside
      cases isOutside
    · intro isInside
      rw [isOutside] at isInside
      cases isInside
  · rename_i isInside
    split at read
    · rename_i isParen
      cases read
      refine ⟨?_, fun _ => ⟨ends, rfl⟩, fun _ noParen => absurd isParen noParen⟩
      intro other same
      rw [isInside] at same
      cases same
    · cases read
    · rename_i noParen
      exact refusal_of_readClosing noParen read

/-- **The automaton's refusals.** -/
theorem refusal_of_advance {state : State} {before : List Token} {token : Token}
    {error : FormulaError} (reads : state.Reads before)
    (read : advance state (.ok token) = .error error) : Refusal before token error := by
  obtain ⟨phase, frames, nodes⟩ := state
  cases phase with
  | operand => exact refusal_of_readOperand read
  | afterName name span =>
    obtain ⟨earlier, word, rfl, _, isName, rfl, rfl⟩ := reads
    simp only [advance] at read
    split at read
    · cases read
    · exact refusal_of_readComplete ⟨earlier, [word], _, rfl, .name isName⟩ read
  | afterCall function span =>
    simp only [advance] at read
    split at read
    · cases read
    · exact refusal_of_readOperand read
  | complete operand =>
    obtain ⟨earlier, inner, rfl, _, derived⟩ := reads
    exact refusal_of_readComplete ⟨earlier, inner, operand, rfl, derived⟩ read

/-! ### Neither early nor late -/

/-- **No refusal comes early.** Reading a sentence is one run, so a token at which a run ends starts
no sentence together with the tokens before it. -/
theorem not_viable_of_advance {before : List Token} {token : Token} {last : State}
    {error : FormulaError} (run : advanceAll .start before = .ok last)
    (refused : advance last (.ok token) = .error error) : ¬ Viable (before ++ [token]) := by
  intro viable
  obtain ⟨rest, tree, derived⟩ := viable
  obtain ⟨state, whole, _⟩ := conclude_of_derives derived
  rw [List.append_assoc, advanceAll_append, run] at whole
  have stuck : advance last (.ok token) >>= (fun next => advanceAll next rest) = .ok state := whole
  rw [refused] at stuck
  cases stuck

/-- A sentence is not refused at its end. -/
theorem not_derives_of_conclude {tokens : List Token} {last : State} {length : Nat}
    {error : FormulaError} (run : advanceAll .start tokens = .ok last)
    (refused : conclude length last = .error error) (tree : Expr) :
    ¬ Derives (.expr tree) tokens := by
  intro derived
  obtain ⟨state, whole, concluded⟩ := conclude_of_derives derived
  rw [run] at whole
  cases whole
  rw [concluded length] at refused
  cases refused

theorem refusal_of_concludeComplete {length : Nat} {operand : Expr} {frames : List Frame}
    {error : FormulaError} (refused : concludeComplete length operand frames = .error error) :
    ∃ expected, error = endOfFormula length expected := by
  unfold concludeComplete at refused
  split at refused
  · cases refused
  · cases refused
    exact ⟨_, rfl⟩
  · cases refused
    exact ⟨_, rfl⟩

/-- At its end a formula is refused for ending there. -/
theorem refusal_of_conclude {length : Nat} {state : State} {error : FormulaError}
    (refused : conclude length state = .error error) :
    ∃ expected, error = endOfFormula length expected := by
  obtain ⟨phase, frames, nodes⟩ := state
  cases phase with
  | operand =>
    cases refused
    exact ⟨_, rfl⟩
  | afterName name span => exact refusal_of_concludeComplete refused
  | afterCall function span =>
    cases refused
    exact ⟨_, rfl⟩
  | complete operand => exact refusal_of_concludeComplete refused

/-- **A formula is refused at its first fault.** Unless it is too complex, the items of a refused
formula are tokens that start a sentence and then the fault: a lexical error, which is the answer; a
token with which no sentence goes on, which is refused by its kind and at its place; or the end of
the formula, where the tokens are no sentence yet. -/
theorem parse_error_first_fault {limits : Limits} {formula : String} {error : FormulaError}
    (failed : parse limits formula = .error error)
    (within : ∀ excess, error ≠ .tooComplex excess) :
    ∃ before rest, itemsOf formula = before.map .ok ++ rest ∧ Viable before ∧
      match rest with
      | .error lexical :: _ => error = lexical
      | .ok token :: _ => ¬ Viable (before ++ [token]) ∧ Refusal before token error
      | [] => (∀ tree, ¬ Derives (.expr tree) before) ∧
          ∃ expected, error = endOfFormula formula.utf8ByteSize expected := by
  have read : readItems formula.utf8ByteSize (itemsOf formula) = .error error := by
    rcases parse_cutOff limits formula with same | ⟨excess, same⟩
    · exact same.symm.trans failed
    · rw [failed] at same
      cases same
      exact absurd rfl (within excess)
  obtain ⟨before, rest, last, same, run, reads, stops⟩ :=
    readItems_stops formula.utf8ByteSize (itemsOf formula)
  rw [read] at stops
  refine ⟨before, rest, same, viable_of_reads reads, ?_⟩
  cases rest with
  | nil => exact ⟨not_derives_of_conclude run stops.symm, refusal_of_conclude stops.symm⟩
  | cons item rest =>
    cases item with
    | error lexical =>
      cases stops
      rfl
    | ok token =>
      obtain ⟨refused, isRefused, answer⟩ := stops
      cases answer
      exact ⟨not_viable_of_advance run isRefused, refusal_of_advance reads isRefused⟩

/-- In `(a b` the fault is the second name. -/
theorem parse_error_unclosed :
    parse {} "(a b" = .error (.malformed (.missing .closingParen) ⟨3, 1⟩) ∧
    ∃ before rest, itemsOf "(a b" = before.map .ok ++ rest ∧ Viable before ∧
      match rest with
      | .error lexical :: _ => .malformed (.missing .closingParen) ⟨3, 1⟩ = lexical
      | .ok token :: _ => ¬ Viable (before ++ [token]) ∧
          Refusal before token (.malformed (.missing .closingParen) ⟨3, 1⟩)
      | [] => (∀ tree, ¬ Derives (.expr tree) before) ∧
          ∃ expected, .malformed (.missing .closingParen) ⟨3, 1⟩
            = endOfFormula "(a b".utf8ByteSize expected := by
  have failed : parse {} "(a b" = .error (.malformed (.missing .closingParen) ⟨3, 1⟩) := by
    with_unfolding_all rfl
  refine ⟨failed, parse_error_first_fault failed fun excess same => ?_⟩
  cases same

end ColumnCalc.Parser
