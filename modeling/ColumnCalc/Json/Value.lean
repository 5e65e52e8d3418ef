/-
**JSON values.**

Members of an object keep their order and may repeat a key.
-/

import ColumnCalc.Json.Text

namespace ColumnCalc

/-- A JSON value. -/
inductive Json where
  | null
  | bool (value : Bool)
  /-- A number as it is written. -/
  | number (literal : String)
  | string (text : Json.StringText)
  | array (items : List Json)
  | object (members : List (Json.StringText × Json))
  deriving Repr, Inhabited

end ColumnCalc
