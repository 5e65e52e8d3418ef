/-
**JSON values, read.**

The reader is a machine that takes one token at a time. It keeps the arrays and objects that are
open, the innermost first, and knows what may come next. A text is a value when the machine stands
behind a whole value at its end.
-/

import ColumnCalc.Json.Token
import ColumnCalc.Json.Value

namespace ColumnCalc.Json

/-- An array or an object that is open; what it holds already, last first. -/
inductive Frame where
  | array (items : List Json)
  /-- The value of a key is being read. -/
  | object (members : List (StringText × Json)) (key : StringText)
  deriving Repr

/-- What the reader waits for. -/
inductive Reading where
  | needValue (frames : List Frame)
  /-- The first item of an array, or the array's end. -/
  | itemOrEnd (frames : List Frame)
  /-- The first key of an object, or the object's end. -/
  | keyOrEnd (frames : List Frame)
  | needKey (members : List (StringText × Json)) (frames : List Frame)
  | needColon (members : List (StringText × Json)) (key : StringText) (frames : List Frame)
  /-- A value is read; a comma or an end may follow. -/
  | behindValue (value : Json) (frames : List Frame)
  deriving Repr

namespace Reading

/-- Takes the token that a value starts with. -/
def startValue? (frames : List Frame) : Token → Option Reading
  | .null => some (.behindValue .null frames)
  | .bool value => some (.behindValue (.bool value) frames)
  | .number literal => some (.behindValue (.number literal) frames)
  | .string text => some (.behindValue (.string text) frames)
  | .leftBracket => some (.itemOrEnd frames)
  | .leftBrace => some (.keyOrEnd frames)
  | _ => none

/-- Takes the token behind a value that stands in a frame. -/
def endValue? (value : Json) (frame : Frame) (frames : List Frame) (token : Token) :
    Option Reading :=
  match frame, token with
  | .array items, .comma => some (.needValue (.array (value :: items) :: frames))
  | .array items, .rightBracket => some (.behindValue (.array (value :: items).reverse) frames)
  | .object members key, .comma => some (.needKey ((key, value) :: members) frames)
  | .object members key, .rightBrace =>
    some (.behindValue (.object ((key, value) :: members).reverse) frames)
  | _, _ => none

/-- Takes a token. -/
def step? (reading : Reading) (token : Token) : Option Reading :=
  match reading with
  | needValue frames => startValue? frames token
  | itemOrEnd frames =>
    if token = .rightBracket then some (behindValue (.array []) frames)
    else startValue? (.array [] :: frames) token
  | keyOrEnd frames =>
    match token with
    | .rightBrace => some (behindValue (.object []) frames)
    | .string text => some (needColon [] text frames)
    | _ => none
  | needKey members frames =>
    match token with
    | .string text => some (needColon members text frames)
    | _ => none
  | needColon members key frames =>
    if token = .colon then some (needValue (.object members key :: frames)) else none
  | behindValue value frames =>
    match frames with
    | [] => none
    | frame :: frames => endValue? value frame frames token

/-- The value, if nothing is open and a whole one is read. -/
def result? : Reading → Option Json
  | behindValue value [] => some value
  | _ => none

end Reading

/-- The value of a string of tokens. -/
def ofTokens? (tokens : List Token) : Option Json :=
  tokens.foldlM Reading.step? (.needValue []) >>= Reading.result?

/-- The value that a text is. -/
def read? (text : List Char) : Option Json :=
  tokens? text >>= ofTokens?

end ColumnCalc.Json
