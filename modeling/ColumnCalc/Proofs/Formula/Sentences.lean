/-
**What is parsed is what the grammar derives.**

A formula is accepted exactly when its items are the tokens of a sentence, and the tree is the one that
the sentence has. Limits can only refuse a sentence, for the one reason that it is too complex.

`readItems_stops` says where reading ends: at a lexical error, at a token that the automaton refuses, or
at the end of the items.
-/

import ColumnCalc.Proofs.Formula.Acceptance
import ColumnCalc.Proofs.Formula.Limits

namespace ColumnCalc.Parser

open Grammar (Derives)

/-- **Where a run ends.** Tokens are read up to the end of the items, up to a lexical error, which is
the answer, or up to a token that is refused. -/
theorem foldlM_advance_stops (length : Nat) (items : List Item) (state : State) :
    ∃ tokens rest last, items = tokens.map .ok ++ rest ∧ advanceAll state tokens = .ok last ∧
      match rest with
      | [] => items.foldlM advance state >>= conclude length = conclude length last
      | .error error :: _ => items.foldlM advance state >>= conclude length = .error error
      | .ok token :: _ => ∃ error, advance last (.ok token) = .error error ∧
          items.foldlM advance state >>= conclude length = .error error := by
  induction items generalizing state with
  | nil => exact ⟨[], [], state, rfl, rfl, rfl⟩
  | cons item items ih =>
    rw [List.foldlM_cons]
    cases item with
    | error error => exact ⟨[], .error error :: items, state, rfl, rfl, rfl⟩
    | ok token =>
      cases read : advance state (.ok token) with
      | error error => exact ⟨[], .ok token :: items, state, rfl, rfl, error, read, rfl⟩
      | ok next =>
        obtain ⟨tokens, rest, last, rfl, run, stops⟩ := ih next
        refine ⟨token :: tokens, rest, last, rfl, ?_, stops⟩
        rw [advanceAll_cons, read]
        exact run

/-- Reading all items of a formula. -/
theorem readItems_stops (length : Nat) (items : List Item) :
    ∃ tokens rest last, items = tokens.map .ok ++ rest ∧ advanceAll .start tokens = .ok last ∧
      last.Reads tokens ∧
      match rest with
      | [] => readItems length items = conclude length last
      | .error error :: _ => readItems length items = .error error
      | .ok token :: _ => ∃ error, advance last (.ok token) = .error error ∧
          readItems length items = .error error := by
  obtain ⟨tokens, rest, last, same, run, stops⟩ := foldlM_advance_stops length items .start
  exact ⟨tokens, rest, last, same, run, reads_advanceAll reads_start run, stops⟩

/-- Items that give a tree are the tokens of a sentence of that tree. -/
theorem derives_of_readItems {length : Nat} {items : List Item} {tree : Expr}
    (read : readItems length items = .ok tree) :
    ∃ tokens, items = tokens.map .ok ∧ Derives (.expr tree) tokens := by
  obtain ⟨tokens, rest, last, same, _, reads, stops⟩ := readItems_stops length items
  rw [read] at stops
  cases rest with
  | nil =>
    rw [List.append_nil] at same
    exact ⟨tokens, same, derives_of_conclude reads stops.symm⟩
  | cons item rest =>
    cases item with
    | error error => cases stops
    | ok token =>
      obtain ⟨error, _, impossible⟩ := stops
      cases impossible

/-- The tokens of a sentence give its tree. -/
theorem readItems_of_derives {tree : Expr} {tokens : List Token}
    (derived : Derives (.expr tree) tokens) (length : Nat) :
    readItems length (tokens.map .ok) = .ok tree := by
  obtain ⟨last, run, concluded⟩ := conclude_of_derives derived
  rw [readItems, foldlM_advance, run]
  exact concluded length

/-- A tree is that of a sentence: its text has no lexical error and its tokens derive it. -/
theorem derives_of_parse {limits : Limits} {formula : String} {tree : Expr}
    (parsed : parse limits formula = .ok tree) :
    ∃ tokens, itemsOf formula = tokens.map .ok ∧ Derives (.expr tree) tokens := by
  rcases parse_cutOff limits formula with same | ⟨excess, same⟩
  · exact derives_of_readItems (same.symm.trans parsed)
  · rw [parsed] at same
    cases same

/-- **Formulas are parsed by the grammar.** A tree that is answered is derived by the tokens of the
whole text. Where the tokens derive a tree, that tree is the only one; it is the answer unless a limit
is exceeded, and limits as large as the number of tokens are not exceeded. -/
theorem parse_recognises (limits : Limits) (formula : String) (tree : Expr) :
    (parse limits formula = .ok tree →
      ∃ tokens, itemsOf formula = tokens.map .ok ∧ Derives (.expr tree) tokens) ∧
    (∀ tokens, itemsOf formula = tokens.map .ok → Derives (.expr tree) tokens →
      (parse limits formula = .ok tree ∨
        ∃ excess, parse limits formula = .error (.tooComplex excess)) ∧
      (tokens.length ≤ limits.maxNodes → tokens.length < limits.maxDepth →
        parse limits formula = .ok tree) ∧
      ∀ other, Derives (.expr other) tokens → other = tree) := by
  refine ⟨derives_of_parse, ?_⟩
  intro tokens isTokens derived
  have read : readItems formula.utf8ByteSize (itemsOf formula) = .ok tree := by
    rw [isTokens]
    exact readItems_of_derives derived _
  refine ⟨?_, ?_, ?_⟩
  · rcases parse_cutOff limits formula with same | cut
    · exact .inl (same.trans read)
    · exact .inr cut
  · intro few shallow
    exact (parse_of_ample isTokens few shallow).trans read
  · intro other derivedOther
    exact derives_unique derivedOther derived

/-- The tree of `a - b`, both ways. -/
theorem parse_recognises_difference :
    (∃ tokens, itemsOf "a - b" = tokens.map .ok ∧
      Derives (.expr (.binary .sub (.name "a" ⟨0, 1⟩) (.name "b" ⟨4, 1⟩))) tokens) ∧
    parse {} "a - b" = .ok (.binary .sub (.name "a" ⟨0, 1⟩) (.name "b" ⟨4, 1⟩)) := by
  have recognised := parse_recognises {} "a - b"
    (.binary .sub (.name "a" ⟨0, 1⟩) (.name "b" ⟨4, 1⟩))
  have left := @Derives.name ⟨.name, "a", 0⟩ rfl
  have right := @Derives.name ⟨.name, "b", 4⟩ rfl
  have minus : (Token.kind ⟨.minus, "-", 2⟩, BinaryOp.sub) ∈ Grammar.sumSigns :=
    .tail _ (.head _)
  have derived := Derives.sum left.expr_of_primary minus right.term_of_primary
  have isTokens : itemsOf "a - b"
      = List.map .ok ([⟨.name, "a", 0⟩] ++ ⟨.minus, "-", 2⟩ :: [⟨.name, "b", 4⟩] : List Token) := by
    with_unfolding_all rfl
  have parsed := (recognised.2 _ isTokens derived).2.1 (by decide) (by decide)
  exact ⟨recognised.1 parsed, parsed⟩

end ColumnCalc.Parser
