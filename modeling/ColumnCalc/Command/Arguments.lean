/-
**Arguments of a command line.**

A level of a command line takes options with values, positional arguments and at most one
subcommand, which takes the rest. An option is written `--name value`, `--name=value`, `-n value`,
`-nvalue` or `-n=value`; a value that starts with a dash has to be attached. Behind `--` everything
is positional.
-/

namespace ColumnCalc.Command

/-- What is wrong with a command line. -/
inductive Misuse where
  | unexpected (argument : String)
  | missingValue (option : String)
  | repeated (option : String)
  | missing (what : String)
  | unusableValue (what value : String)
  deriving DecidableEq, Repr

def Misuse.message : Misuse → String
  | .unexpected argument => "unexpected argument `" ++ argument ++ "`"
  | .missingValue option => "option `" ++ option ++ "` needs a value"
  | .repeated option => "option `" ++ option ++ "` is given more than once"
  | .missing what => "missing " ++ what
  | .unusableValue what value => "`" ++ value ++ "` cannot be used for " ++ what

/-- Why a command line is not carried out. -/
inductive Stop where
  | misuse (misuse : Misuse)
  | helpWanted
  | versionWanted
  deriving DecidableEq, Repr

/-- What a level of a command line takes, a call for help aside. -/
structure Usage where
  /-- Options that may be given once. -/
  single : List String := []
  /-- Options that may be repeated. -/
  repeatable : List String := []
  /-- Short names of options. -/
  letters : List (Char × String) := []
  /-- The most positional arguments. -/
  positional : Nat := 0
  subcommands : List String := []
  /-- The version may be asked for. -/
  hasVersion : Bool := false
  deriving Repr

/-- What is given on a level. -/
structure Arguments where
  /-- Options with their values, in order. -/
  options : List (String × String) := []
  positional : List String := []
  /-- A subcommand and what follows it. -/
  subcommand : Option (String × List String) := none
  deriving Repr

/-- How an argument is to be taken by its spelling. -/
inductive Spelling where
  /-- The mark behind which everything is positional. -/
  | separator
  | long (name : String) (attached : Option String)
  | short (letter : Char) (behind : List Char)
  | plain
  deriving DecidableEq, Repr

/-- The spelling of an argument. A dash alone is plain. -/
def Spelling.ofArgument (argument : String) : Spelling :=
  match argument.toList with
  | ['-', '-'] => .separator
  | '-' :: '-' :: rest =>
    let name := String.ofList (rest.takeWhile (· ≠ '='))
    match rest.dropWhile (· ≠ '=') with
    | _ :: value => .long name (some (String.ofList value))
    | [] => .long name none
  | '-' :: letter :: behind => .short letter behind
  | _ => .plain

namespace Usage

/-- Adds an option with its value. -/
def addOption (usage : Usage) (given : Arguments) (option value : String) :
    Except Stop Arguments :=
  if usage.single.contains option && (given.options.lookup option).isSome then
    .error (.misuse (.repeated option))
  else .ok { given with options := given.options ++ [(option, value)] }

/-- Adds a positional argument. -/
def addPositional (usage : Usage) (given : Arguments) (argument : String) :
    Except Stop Arguments :=
  if given.positional.length < usage.positional then
    .ok { given with positional := given.positional ++ [argument] }
  else .error (.misuse (.unexpected argument))

/-- What an argument that starts with a dash asks for: an option, and its value if that is
attached. -/
def asked (usage : Usage) (argument : String) : Spelling → Except Stop (String × Option String)
  | .long name attached =>
    if usage.single.contains name || usage.repeatable.contains name then .ok (name, attached)
    else if name = "help" ∧ attached.isNone then .error .helpWanted
    else if name = "version" ∧ attached.isNone ∧ usage.hasVersion then .error .versionWanted
    else .error (.misuse (.unexpected argument))
  | .short letter behind =>
    match usage.letters.lookup letter with
    | some name =>
      match behind with
      | [] => .ok (name, none)
      | '=' :: value => .ok (name, some (String.ofList value))
      | value => .ok (name, some (String.ofList value))
    | none =>
      if letter = 'h' then .error .helpWanted
      else if letter = 'V' ∧ usage.hasVersion then .error .versionWanted
      else .error (.misuse (.unexpected argument))
  | _ => .error (.misuse (.unexpected argument))

/-- Takes the arguments of a level, one after another. -/
def take (usage : Usage) (given : Arguments) : List String → Except Stop Arguments
  | [] => .ok given
  | argument :: rest =>
    match Spelling.ofArgument argument with
    | .separator => rest.foldlM usage.addPositional given
    | .plain =>
      if usage.subcommands.contains argument then
        .ok { given with subcommand := some (argument, rest) }
      else if argument = "help" ∧ usage.subcommands ≠ [] then .error .helpWanted
      else do usage.take (← usage.addPositional given argument) rest
    | spelling => do
      match ← usage.asked argument spelling with
      | (option, some value) => usage.take (← usage.addOption given option value) rest
      | (option, none) =>
        match rest with
        | [] => .error (.misuse (.missingValue option))
        | value :: rest =>
          if Spelling.ofArgument value = .plain then
            usage.take (← usage.addOption given option value) rest
          else .error (.misuse (.missingValue option))

end Usage

namespace Arguments

/-- The value of an option, the first one if it is repeated. -/
def value? (given : Arguments) (option : String) : Option String :=
  given.options.lookup option

/-- The values of an option, in order. -/
def values (given : Arguments) (option : String) : List String :=
  given.options.filterMap fun (name, value) => if name = option then some value else none

/-- The value of an option that has to be there. -/
def required (given : Arguments) (option : String) : Except Stop String :=
  match given.value? option with
  | some value => .ok value
  | none => .error (.misuse (.missing option))

/-- The positional argument, which has to be there. -/
def argument (given : Arguments) (what : String) : Except Stop String :=
  match given.positional with
  | value :: _ => .ok value
  | [] => .error (.misuse (.missing what))

end Arguments

end ColumnCalc.Command
