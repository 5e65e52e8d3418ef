/-
**Running commands.**

A run gives back a status, an output and messages. It reads and writes files through `FileAccess`
only. Whatever can fail is done before anything is written.
-/

import ColumnCalc.Command.Invocation
import ColumnCalc.Csv.Table
import ColumnCalc.Formula.Lexer
import ColumnCalc.Template.Store
import ColumnCalc.Workbook.Table

namespace ColumnCalc

/-- What a run leaves behind, files aside. -/
structure Report where
  /-- Zero if all went well, one if something is wrong with the data, two if the command line is
  misused. -/
  status : Nat := 0
  output : String := ""
  messages : String := ""
  deriving DecidableEq, Repr

/-- Why a command fails. -/
inductive Failure where
  | formula (error : FormulaError)
  | columnFormula (column : String) (error : FormulaError)
  | table (path : Path) (error : TableError)
  | template (error : TemplateError)
  | unwritable (path : Path)
  deriving DecidableEq, Repr

def Failure.message : Failure → String
  | .formula error => error.message
  | .columnFormula column error => "formula for column `" ++ column ++ "`: " ++ error.message
  | .table path error => "reading `" ++ path.text ++ "` failed: " ++ error.message
  | .template error => error.message
  | .unwritable path => "creating `" ++ path.text ++ "` failed"

namespace Command

/-- Texts, each on a line. -/
def lines (texts : List String) : String :=
  String.join (texts.map (· ++ "\n"))

/-- The report of a command that failed. -/
def failed (failure : Failure) : Report :=
  { status := 1, messages := lines [failure.message] }

/-- The tokens of a formula up to the first fault. -/
def tokenLines : List Item → List String × Option FormulaError
  | [] => (["EOF"], none)
  | .ok token :: rest =>
    let (texts, error) := tokenLines rest
    (token.render :: texts, error)
  | .error error :: _ => ([], some error)

/-- The report of a formula's tokens. -/
def tokenReport (formula : String) : Report :=
  match tokenLines (itemsOf formula) with
  | (texts, none) => { output := lines texts }
  | (texts, some error) => { failed (.formula error) with output := lines texts }

/-- What is printed of an accepted formula. -/
def treeLines (formula : Formula) : List String :=
  let names := formula.tree.reads
  formula.tree.render ::
    (if names.isEmpty then [] else ["reads: " ++ ", ".intercalate names])

/-- The report on missing fields. -/
def validationReport (missing : List MissingField) : Report :=
  if missing.isEmpty then { output := lines ["All rows passed validation."] }
  else { status := 1, output := lines (missing.map MissingField.message) }

/-- The message for a row without a value. -/
def rowMessage (row : Nat) (error : EvalError) : String :=
  "row " ++ toString row ++ ": " ++ error.message

/-- The message for a row without a value in a column. -/
def cellMessage (row : Nat) (column : String) (error : EvalError) : String :=
  "row " ++ toString row ++ ", column `" ++ column ++ "`: " ++ error.message

/-- The template that options describe. An empty target leaves a header unmapped. -/
def templateOf (name : String) (mapping formulas : List (String × String)) : Template where
  name := name
  headerMapping :=
    .ofList (mapping.map fun (source, target) =>
      (source, if target.isEmpty then none else some target))
  formulas := .ofList formulas

/-- Accepts the formulas of columns in the order in which they are given. -/
def acceptAll (limits : Limits) : List (String × String) → Except Failure Unit
  | [] => .ok ()
  | (column, text) :: rest =>
    match Formula.accept text limits with
    | .ok _ => acceptAll limits rest
    | .error error => .error (.columnFormula column error)

variable {m : Type → Type} [Monad m] [FileAccess m]

/-- A step that may fail, with the failure that it means. -/
def orFail {ε α : Type} (failure : ε → Failure) (result : Except ε α) : ExceptT Failure m α :=
  ExceptT.mk (pure (result.mapError failure))

/-- Reads the table of a file: a workbook by its name, otherwise comma-separated text. -/
def readTable (path : Path) : ExceptT Failure m Table := do
  match ← (FileAccess.contentOf path : m _) with
  | .error _ => throw (.table path (.unopened path.text))
  | .ok content =>
    orFail (.table path) (if path.isWorkbook then Table.ofXlsx content else Table.ofCsv content)

/-- Writes a table to a file, or to the output if there is none. -/
def writeTable (table : Table) (rename : Option HeaderMapping) (output : Option Path)
    (messages : List String) : ExceptT Failure m Report := do
  let text := table.toCsv rename
  match output with
  | none => return { output := text, messages := lines messages }
  | some path =>
    match ← (FileAccess.writeContent path (Text.Utf8.encode text.toList) : m _) with
    | .error _ => throw (.unwritable path)
    | .ok () => return { messages := lines messages }

/-- Applies a formula to a column. -/
def runApply (limits : Limits) (input : Path) (column text : String) (output : Option Path) :
    ExceptT Failure m Report := do
  let formula ← orFail .formula (Formula.accept text limits)
  let table ← readTable input
  let applied := formula.apply table column
  writeTable applied.table none output (applied.failures.map fun (row, error) =>
    rowMessage row error)

/-- Keeps a template whose formulas are all accepted. -/
def runSave (limits : Limits) (directory : Path) (name : String)
    (mapping formulas : List (String × String)) : ExceptT Failure m Report := do
  orFail id (acceptAll limits formulas)
  let path ← orFail .template
    (← (TemplateStore.save ⟨directory⟩ (templateOf name mapping formulas) : m _))
  return { output := lines ["saved " ++ path.text] }

/-- Applies a template and writes the table under its mapping. -/
def runImport (limits : Limits) (input : Path) (name : String) (directory : Path)
    (output : Option Path) : ExceptT Failure m Report := do
  let template ← orFail .template (← (TemplateStore.load ⟨directory⟩ name : m _))
  let table ← readTable input
  let applied ← orFail .formula (template.apply table limits)
  let mapping := template.mappingFor applied.table
  let failures := applied.failures.map fun (row, column, error) => cellMessage row column error
  let missing := (missingFields applied.table mapping).map MissingField.message
  writeTable applied.table (some mapping) output (failures ++ missing)

/-- What a command does. -/
def perform (limits : Limits) : Command → ExceptT Failure m Report
  | tokenize formula => return tokenReport formula
  | check text => do
    let formula ← orFail .formula (Formula.accept text limits)
    return { output := lines (treeLines formula) }
  | apply input column text output => runApply limits input column text output
  | headers input => do
    let table ← readTable input
    return { output := lines [String.ofList (mapHeaders table.columns).toJson.print] }
  | validateRows input => do
    let table ← readTable input
    return validationReport (missingFields table (mapHeaders table.columns))
  | saveTemplate directory name mapping formulas => runSave limits directory name mapping formulas
  | listTemplates directory => do
    let names ← orFail .template (← (TemplateStore.list ⟨directory⟩ : m _))
    return { output := lines names }
  | showTemplate directory name => do
    let template ← orFail .template (← (TemplateStore.load ⟨directory⟩ name : m _))
    return { output := lines [String.ofList template.print] }
  | blank fields rows output =>
    writeTable (.blank (if fields.isEmpty then sourceFields else fields) rows) none output []
  | importTable input template directory output =>
    runImport limits input template directory output

/-- Runs a command. -/
def run (limits : Limits) (command : Command) : m Report := do
  match ← (command.perform limits).run with
  | .ok report => return report
  | .error failure => return failed failure

end Command

/-- What the program is called by. -/
def programName : String := "row-formula"

/-- How the program is used. -/
def usageText : String :=
  "usage: " ++ programName ++ " [--max-nodes N] [--max-depth N] COMMAND"

/-- The report on a command line that is not carried out. -/
def Report.ofStop : Command.Stop → Report
  | .misuse misuse => { status := 2, messages := Command.lines [misuse.message, usageText] }
  | .helpWanted => { output := Command.lines [usageText] }
  | .versionWanted => { output := Command.lines [programName ++ " 0.1.0"] }

/-- Runs what the arguments ask for. -/
def runArguments {m : Type → Type} [Monad m] [FileAccess m] (arguments : List String) :
    m Report :=
  match Invocation.ofArguments arguments with
  | .ok invocation => invocation.command.run invocation.limits
  | .error stop => return .ofStop stop

end ColumnCalc
