/-
**The program.**

Runs the arguments on the machine's own files.
-/

import ColumnCalc.Command.Run

namespace ColumnCalc

/-- The fault that an error of the machine means. -/
def FileFault.ofError : IO.Error → FileFault
  | .noFileOrDirectory .. => .missing
  | _ => .refused

/-- Carries an action out and tells whether it failed. -/
def attempt {α : Type} (action : IO α) : IO (Except FileFault α) := do
  return (← action.toBaseIO).mapError FileFault.ofError

instance : FileAccess IO where
  contentOf path := attempt do return (← IO.FS.readBinFile path.text).toList
  writeContent path content := attempt (IO.FS.writeBinFile path.text ⟨content.toArray⟩)
  makeDirectory path := attempt do
    unless path.text.isEmpty do IO.FS.createDirAll path.text
  namesIn path := attempt do
    let entries ← ((← IO.currentDir) / path.text).readDir
    return entries.toList.map (·.fileName)

end ColumnCalc

def main (arguments : List String) : IO UInt32 := do
  let report ← ColumnCalc.runArguments arguments
  (← IO.getStdout).putStr report.output
  (← IO.getStderr).putStr report.messages
  return UInt32.ofNat report.status
