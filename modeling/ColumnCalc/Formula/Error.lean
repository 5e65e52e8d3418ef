/-
**Why a formula is rejected.**

A rejected formula has one cause and, unless it is too complex, the span of the text at fault.
Wording, help and labels are functions of the cause, so a statement about failure speaks of causes
and never of texts.
-/

namespace ColumnCalc

/-- A stretch of a text, in bytes of its UTF-8 form. -/
structure Span where
  offset : Nat
  length : Nat
  deriving DecidableEq, Repr, Inhabited

/-- The first byte behind a span. -/
def Span.stop (span : Span) : Nat := span.offset + span.length

/-- Notations that are recognised but lie outside the formula language. -/
inductive Construct where
  | stringLiteral
  | attributeAccess
  | subscript
  | setOrDictionary
  | statementSeparator
  | sliceOrTyping
  | modulo
  | floorDivision
  | assignment
  | comparison
  | boolean
  | bitwise
  | conditional
  | lambda
  | callOfNonName
  deriving DecidableEq, Repr

/-- What a notation is called. -/
def Construct.name : Construct → String
  | .stringLiteral => "a string literal"
  | .attributeAccess => "attribute access"
  | .subscript => "subscript access"
  | .setOrDictionary => "a set or dict literal"
  | .statementSeparator => "a statement separator"
  | .sliceOrTyping => "a slice or annotation"
  | .modulo => "the modulo operator"
  | .floorDivision => "floor division"
  | .assignment => "assignment"
  | .comparison => "a comparison operator"
  | .boolean => "a boolean operator"
  | .bitwise => "a bitwise operator"
  | .conditional => "a conditional expression"
  | .lambda => "a lambda expression"
  | .callOfNonName => "calling something other than a function name"

/-- What a reader was waiting for. -/
inductive Expectation where
  | operand
  | operatorOrEnd
  | closingParen
  | commaOrClosingParen
  | argumentListEnd
  /-- In the words of whoever asked. -/
  | described (text : String)
  deriving DecidableEq, Repr

def Expectation.text : Expectation → String
  | .operand => "expected an expression"
  | .operatorOrEnd => "expected an operator or end of formula"
  | .closingParen => "expected `)` to close `(`"
  | .commaOrClosingParen => "expected `,` or `)` in argument list"
  | .argumentListEnd => "expected `)` to close the argument list"
  | .described text => text

/-- Faults of spelling and grammar. -/
inductive SyntaxFault where
  | unexpectedCharacter (c : Char)
  | unterminatedString
  | malformedNumber (text : String)
  /-- Scanned as a number, but not a numeral. -/
  | unreadableNumber (text : String)
  | numberOutOfRange (text : String)
  | unexpectedToken (literal : String) (expected : Expectation)
  | missing (expected : Expectation)
  | endOfFormula (expected : Expectation)
  deriving DecidableEq, Repr

def SyntaxFault.message : SyntaxFault → String
  | .unexpectedCharacter c => "unexpected character '" ++ c.toString ++ "'"
  | .unterminatedString => "unterminated string literal"
  | .malformedNumber text => "malformed number `" ++ text ++ "`"
  | .unreadableNumber text => "malformed number `" ++ text ++ "`: invalid float literal"
  | .numberOutOfRange text => "number `" ++ text ++ "` is out of range"
  | .unexpectedToken literal expected => "unexpected `" ++ literal ++ "`: " ++ expected.text
  | .missing expected => expected.text
  | .endOfFormula expected => "unexpected end of formula: " ++ expected.text

/-- Ways to exceed the limits. -/
inductive Excess where
  | nesting (allowed : Nat)
  | size (allowed : Nat)
  /-- A finished tree of that many nodes. -/
  | tree (count allowed : Nat)
  deriving DecidableEq, Repr

def Excess.reason : Excess → String
  | .nesting allowed => "nesting deeper than " ++ toString allowed ++ " levels"
  | .size allowed => "more than " ++ toString allowed ++ " nodes"
  | .tree count allowed => toString count ++ " nodes, at most " ++ toString allowed ++ " allowed"

/-- The cause that rejects a whole formula, before any row is looked at. -/
inductive FormulaError where
  | malformed (fault : SyntaxFault) (span : Span)
  | disallowedConstruct (construct : Construct) (span : Span)
  | disallowedFunction (name : String) (span : Span)
  | tooComplex (excess : Excess)
  deriving DecidableEq, Repr

namespace FormulaError

def message : FormulaError → String
  | .malformed fault _ => fault.message
  | .disallowedConstruct construct _ => construct.name ++ " is not allowed in formulas"
  | .disallowedFunction name _ => "function `" ++ name ++ "` is not allowed in formulas"
  | .tooComplex excess => "formula is too complex: " ++ excess.reason

/-- The stretch of the formula at fault; a formula that is too complex is so as a whole. -/
def span? : FormulaError → Option Span
  | .malformed _ span => some span
  | .disallowedConstruct _ span => some span
  | .disallowedFunction _ span => some span
  | .tooComplex _ => none

def code : FormulaError → String
  | .malformed .. => "formula::parse"
  | .disallowedConstruct .. => "formula::disallowed_construct"
  | .disallowedFunction .. => "formula::disallowed_function"
  | .tooComplex .. => "formula::too_complex"

/-- Advice on how to mend the formula. -/
def help? : FormulaError → Option String
  | .malformed .. =>
    some "formulas use numbers, column names, `+ - * / **`, parentheses and ROUND/MAX/MIN"
  | .disallowedConstruct .. => some "only numeric arithmetic over column names is supported"
  | .disallowedFunction .. => some "the only callable functions are ROUND, MAX and MIN"
  | .tooComplex .. => none

/-- What is written beside the span. -/
def label? : FormulaError → Option String
  | .malformed .. => some "here"
  | .disallowedConstruct .. => some "not allowed"
  | .disallowedFunction .. => some "not a permitted function"
  | .tooComplex .. => none

end FormulaError

end ColumnCalc
