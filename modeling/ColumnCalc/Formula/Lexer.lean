/-
**A lexer with one item of look-ahead.**

`next` gives the items of a formula one by one, `peek` the one that `next` gives next, `expect` one
of a given kind or the reason why it is not there. A lexer is a value: each operation gives the
lexer after it. `next_peek` says that peeking changes no later answer.
-/

import ColumnCalc.Formula.Scan

namespace ColumnCalc

/-- A formula being read: the bytes of all of it, the text from `byte` on, and the item that was
read ahead. -/
structure Lexer where
  length : Nat
  rest : List Char
  byte : Nat
  peeked : Option Item

/-- The error of a formula of `length` bytes that ends too early; it points at the last byte. -/
def endOfFormula (length : Nat) (expected : Expectation) : FormulaError :=
  .malformed (.endOfFormula expected) ⟨length - 1, length - (length - 1)⟩

/-- The error of a token in a place where another is wanted: its notation if that is not part of
the language, else the given fault. -/
def Token.rejection (token : Token) (fault : SyntaxFault) : FormulaError :=
  match token.kind.construct? with
  | some construct => .disallowedConstruct construct token.span
  | none => .malformed fault token.span

namespace Lexer

/-- A lexer at the start of a formula. -/
def ofFormula (formula : String) : Lexer :=
  { length := formula.utf8ByteSize, rest := formula.toList, byte := 0, peeked := none }

/-- The lexer with the text in front of it up to its end gone. -/
def atEnd (lexer : Lexer) : Lexer :=
  { lexer with rest := [], byte := lexer.byte + Text.Utf8.size lexer.rest, peeked := none }

/-- The next item, or nothing at the end. -/
def next (lexer : Lexer) : Option Item × Lexer :=
  match lexer.peeked with
  | some item => (some item, { lexer with peeked := none })
  | none =>
    match Scan.scan lexer.byte lexer.rest with
    | none => (none, lexer.atEnd)
    | some scanned => (some scanned.item, { lexer with byte := scanned.stop, rest := scanned.rest })

/-- The item that `next` gives next; it is read now. -/
def peek (lexer : Lexer) : Option Item × Lexer :=
  match lexer.peeked with
  | some item => (some item, lexer)
  | none =>
    let (item, after) := lexer.next
    (item, { after with peeked := item })

/-- The error of the formula ending here. -/
def endError (lexer : Lexer) (expected : Expectation) : FormulaError :=
  endOfFormula lexer.length expected

/-- The next item, if it is a token of a kind. -/
def expect (lexer : Lexer) (kind : TokenKind) (expected : Expectation) :
    Except FormulaError Token × Lexer :=
  match lexer.next with
  | (some (.ok token), after) =>
    if token.kind == kind then (.ok token, after)
    else (.error (token.rejection (.missing expected)), after)
  | (some (.error error), after) => (.error error, after)
  | (none, after) => (.error (after.endError expected), after)

/-- Peeking changes no later answer. -/
theorem next_peek (lexer : Lexer) : lexer.peek.2.next.1 = lexer.next.1 := by
  unfold peek
  split
  · rfl
  · rename_i fresh
    cases found : Scan.scan lexer.byte lexer.rest with
    | none => simp [next, fresh, found, atEnd, Scan.scan]
    | some scanned => simp [next, fresh, found]

end Lexer

end ColumnCalc
