/-
**Invocations.**

An invocation is one of the commands with the limits under which formulas are accepted. The options
for the limits may stand on any level; the innermost one counts.
-/

import ColumnCalc.Command.Arguments
import ColumnCalc.Files.Path
import ColumnCalc.Formula.Parser
import ColumnCalc.Number.Whole
import ColumnCalc.Text.Blank

namespace ColumnCalc

/-- What can be done. -/
inductive Command where
  /-- Prints the tokens of a formula. -/
  | tokenize (formula : String)
  /-- Checks a formula and prints its tree. -/
  | check (formula : String)
  /-- Applies a formula to a column of a table. -/
  | apply (input : Path) (column formula : String) (output : Option Path)
  /-- Suggests canonical names for the headers of a table. -/
  | headers (input : Path)
  /-- Reports the rows of a table that lack required fields. -/
  | validateRows (input : Path)
  | saveTemplate (directory : Path) (name : String) (mapping formulas : List (String × String))
  | listTemplates (directory : Path)
  | showTemplate (directory : Path) (name : String)
  /-- Writes a table of empty cells. -/
  | blank (fields : List String) (rows : Nat) (output : Option Path)
  /-- Applies a template to a table and writes it with mapped headers. -/
  | importTable (input : Path) (template : String) (directory : Path) (output : Option Path)
  deriving DecidableEq, Repr

/-- A command under limits. -/
structure Invocation where
  limits : Limits
  command : Command

namespace Command

/-- The options of every level. -/
def generalOptions : List String := ["log-level", "max-nodes", "max-depth"]

/-- The options of one level, the general ones included. -/
def usageWith (single repeatable : List String) (positional : Nat) : Usage :=
  { single := generalOptions ++ single, repeatable, positional,
    letters := if single.contains "output" then [('o', "output")] else [] }

/-- The outermost level. -/
def programUsage : Usage :=
  { single := generalOptions
    subcommands :=
      ["tokenize", "check", "apply", "headers", "validate-rows", "template", "blank", "import"]
    hasVersion := true }

/-- The level of the commands on templates. -/
def templateUsage : Usage :=
  { single := "dir" :: generalOptions, subcommands := ["save", "list", "show"] }

/-- The directory of templates unless another is given. -/
def usualDirectory : String := "templates"

/-- The number of rows of a blank table unless another is given. -/
def usualRows : Nat := 10

/-- A path; there has to be something in it. -/
def pathOf (what text : String) : Except Stop Path :=
  if text.isEmpty then .error (.misuse (.unusableValue what text)) else .ok ⟨text⟩

/-- The path of an option that may be left out. -/
def pathOption (given : Arguments) (option : String) : Except Stop (Option Path) :=
  match given.value? option with
  | some text => (pathOf option text).map some
  | none => .ok none

/-- The directory of templates. -/
def directoryOption (given : Arguments) : Except Stop Path := do
  return (← pathOption given "dir").getD ⟨usualDirectory⟩

/-- The table that is read. -/
def inputArgument (given : Arguments) : Except Stop Path := do
  pathOf "input" (← given.argument "input")

/-- A key and a value with an equals sign between them, both trimmed; the key is not blank. -/
def pairOf (option text : String) : Except Stop (String × String) :=
  let characters := text.toList
  let key := Text.trim (characters.takeWhile (· ≠ '='))
  match characters.dropWhile (· ≠ '='), key with
  | _ :: value, _ :: _ => .ok (String.ofList key, String.ofList (Text.trim value))
  | _, _ => .error (.misuse (.unusableValue option text))

/-- The pairs of an option. -/
def pairs (given : Arguments) (option : String) : Except Stop (List (String × String)) :=
  (given.values option).mapM (pairOf option)

/-- The number of rows of a blank table, from one to a hundred. -/
def rowsOption (given : Arguments) : Except Stop Nat :=
  match given.value? "rows" with
  | none => .ok usualRows
  | some text =>
    match readWhole? 101 text.toList with
    | some (rows + 1) => .ok (rows + 1)
    | _ => .error (.misuse (.unusableValue "rows" text))

/-- A limit that the levels state, outermost first. -/
def limitOption (levels : List Arguments) (option : String) (usual : Nat) : Except Stop Nat := do
  let stated ← (levels.filterMap (·.value? option)).mapM fun text =>
    match readWhole? (twoTo 64) text.toList with
    | some limit => .ok limit
    | none => .error (.misuse (.unusableValue option text))
  return stated.getLast?.getD usual

/-- The limits that the levels state. -/
def limitsOf (levels : List Arguments) : Except Stop Limits := do
  let usual : Limits := {}
  return ⟨← limitOption levels "max-nodes" usual.maxNodes,
    ← limitOption levels "max-depth" usual.maxDepth⟩

/-- A command of a level without subcommands, and the level. -/
def leaf (usage : Usage) (arguments : List String) (build : Arguments → Except Stop Command) :
    Except Stop (Command × List Arguments) := do
  let given ← usage.take {} arguments
  return (← build given, [given])

/-- The command on templates that a subcommand and its arguments make up, and the levels. -/
def ofTemplateArguments (arguments : List String) : Except Stop (Command × List Arguments) := do
  let given ← templateUsage.take {} arguments
  let directory ← directoryOption given
  let (command, levels) ← match given.subcommand with
    | some ("save", rest) =>
      leaf (usageWith [] ["map", "formula"] 1) rest fun inner => do
        return .saveTemplate directory (← inner.argument "name") (← pairs inner "map")
          (← pairs inner "formula")
    | some ("list", rest) => leaf (usageWith [] [] 0) rest fun _ => .ok (.listTemplates directory)
    | some ("show", rest) =>
      leaf (usageWith [] [] 1) rest fun inner => do
        return .showTemplate directory (← inner.argument "name")
    | _ => .error (.misuse (.missing "command"))
  return (command, given :: levels)

/-- The command that a name and its arguments make up, and the levels. -/
def ofSubcommand (name : String) (arguments : List String) :
    Except Stop (Command × List Arguments) :=
  match name with
  | "tokenize" =>
    leaf (usageWith [] [] 1) arguments fun given => do
      return .tokenize (← given.argument "formula")
  | "check" =>
    leaf (usageWith [] [] 1) arguments fun given => do return .check (← given.argument "formula")
  | "apply" =>
    leaf (usageWith ["column", "formula", "output"] [] 1) arguments fun given => do
      return .apply (← inputArgument given) (← given.required "column")
        (← given.required "formula") (← pathOption given "output")
  | "headers" =>
    leaf (usageWith [] [] 1) arguments fun given => do return .headers (← inputArgument given)
  | "validate-rows" =>
    leaf (usageWith [] [] 1) arguments fun given => do return .validateRows (← inputArgument given)
  | "template" => ofTemplateArguments arguments
  | "blank" =>
    leaf (usageWith ["rows", "output"] ["field"] 0) arguments fun given => do
      return .blank (given.values "field") (← rowsOption given) (← pathOption given "output")
  | "import" =>
    leaf (usageWith ["template", "dir", "output"] [] 1) arguments fun given => do
      return .importTable (← inputArgument given) (← given.required "template")
        (← directoryOption given) (← pathOption given "output")
  | _ => .error (.misuse (.missing "command"))

end Command

/-- The invocation that arguments make up. -/
def Invocation.ofArguments (arguments : List String) : Except Command.Stop Invocation := do
  let given ← Command.programUsage.take {} arguments
  match given.subcommand with
  | some (name, rest) =>
    let (command, levels) ← Command.ofSubcommand name rest
    return { limits := ← Command.limitsOf (given :: levels), command }
  | none => throw (.misuse (.missing "command"))

end ColumnCalc
