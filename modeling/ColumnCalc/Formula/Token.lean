/-
**Tokens of formulas.**

Only the first ten kinds belong to the formula language. The others are recognised so that a
rejection can say what was attempted: `TokenKind.construct?` names their notation.
-/

import ColumnCalc.Formula.Error
import ColumnCalc.Number.Shortest

namespace ColumnCalc

/-- What a token is. -/
inductive TokenKind where
  | leftParen
  | rightParen
  | comma
  | minus
  | plus
  | star
  | starStar
  | slash
  | name
  | number (value : Float)
  | string
  | dot
  | leftBracket
  | rightBracket
  | leftBrace
  | rightBrace
  | semicolon
  | colon
  | percent
  | slashSlash
  | equal
  | equalEqual
  | bangEqual
  | bang
  | greater
  | greaterEqual
  | less
  | lessEqual
  | ampersand
  | pipe
  | caret
  | tilde
  | andWord
  | orWord
  | notWord
  | ifWord
  | elseWord
  | lambdaWord
  deriving Repr, BEq

namespace TokenKind

/-- The notation that a kind outside the formula language introduces. -/
def construct? : TokenKind → Option Construct
  | .string => some .stringLiteral
  | .dot => some .attributeAccess
  | .leftBracket | .rightBracket => some .subscript
  | .leftBrace | .rightBrace => some .setOrDictionary
  | .semicolon => some .statementSeparator
  | .colon => some .sliceOrTyping
  | .percent => some .modulo
  | .slashSlash => some .floorDivision
  | .equal => some .assignment
  | .equalEqual | .bangEqual | .greater | .greaterEqual | .less | .lessEqual => some .comparison
  | .bang | .andWord | .orWord | .notWord => some .boolean
  | .ampersand | .pipe | .caret | .tilde => some .bitwise
  | .ifWord | .elseWord => some .conditional
  | .lambdaWord => some .lambda
  | .leftParen | .rightParen | .comma | .minus | .plus | .star | .starStar | .slash | .name
  | .number _ => none

/-- The word that stands in front of a token's text in a listing. -/
def title (kind : TokenKind) : String :=
  match kind with
  | .leftParen => "LEFT_PAREN"
  | .rightParen => "RIGHT_PAREN"
  | .comma => "COMMA"
  | .minus => "MINUS"
  | .plus => "PLUS"
  | .star => "STAR"
  | .starStar => "STAR_STAR"
  | .slash => "SLASH"
  | .name => "IDENTIFIER"
  | .number _ => "NUMBER"
  | _ => "DISALLOWED"

end TokenKind

/-- A token: its kind, its text, and the byte at which it starts. -/
structure Token where
  kind : TokenKind
  literal : String
  offset : Nat
  deriving Repr

namespace Token

/-- The stretch of the formula that the token covers. -/
def span (token : Token) : Span :=
  ⟨token.offset, token.literal.utf8ByteSize⟩

/-- A line of a token listing. -/
def render (token : Token) : String :=
  let head := token.kind.title ++ " " ++ token.literal
  match token.kind, token.kind.construct? with
  | .number value, _ => head ++ " " ++ renderNumber value
  | _, some construct => head ++ " (" ++ construct.name ++ ")"
  | _, none => head

end Token

end ColumnCalc
