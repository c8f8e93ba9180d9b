import AsmScope.CommandLine
import AsmScope.Json.Basic
import AsmScope.Path.Basic
/-! # Compile commands

One entry of a compile-commands file, made ready to be run for another output: the compiler is read
from the entry's directory, and the flags that belong to the build's own object file are dropped, as
is the source file itself, which a run names on its own. -/

namespace AsmScope

/-- The command that compiles one file. -/
structure CompileCommand where
  /-- The working directory of the command. -/
  directory : String
  /-- The source file, as the entry spells it. -/
  file : String
  /-- The compiler and its arguments. -/
  arguments : List String
  deriving DecidableEq, Repr

namespace CompileCommand

/-- The arguments without `-c` and `-g`, and without `-o` and the argument after it. -/
def dropBuildFlags : List String → List String
  | [] => []
  | [argument] =>
    if argument = "-o" ∨ argument = "-c" ∨ argument = "-g" then [] else [argument]
  | argument :: next :: rest =>
    if argument = "-o" then dropBuildFlags rest
    else if argument = "-c" ∨ argument = "-g" then dropBuildFlags (next :: rest)
    else argument :: dropBuildFlags (next :: rest)

/-- The argument vector of an entry: a command line that is not empty wins over a list. -/
def rawArguments (command : Option String) (arguments : Option (List String)) : List String :=
  match command with
  | none => arguments.getD []
  | some line => if line.isEmpty then arguments.getD [] else CommandLine.split line

/-- The compiler, read from the entry's directory, and the arguments that matter to a run. -/
def reconstruct (command : Option String) (arguments : Option (List String)) (directory : String) :
    List String :=
  match rawArguments command arguments with
  | [] => []
  | compiler :: rest => Path.join directory compiler :: dropBuildFlags rest

/-- What is wrong with an entry. -/
inductive EntryFault
  | notObject
  | missingText
  | commandNotText
  | argumentsNotTexts
  | noArguments (file : String)
  deriving DecidableEq, Repr

/-- The text of a fault in the entry with this number. -/
def EntryFault.message (index : Int) : EntryFault → String
  | .notObject => "entry " ++ toString index ++ " is not an object"
  | .missingText => "entry " ++ toString index ++ " needs string 'directory' and 'file'"
  | .commandNotText => "entry " ++ toString index ++ ": 'command' must be a string"
  | .argumentsNotTexts => "entry " ++ toString index ++ ": 'arguments' must be a list of strings"
  | .noArguments file =>
    "entry " ++ toString index ++ " (" ++ file ++ ") has neither 'command' nor 'arguments'"

/-- A field that may be left out or empty. -/
def optionalField (fields : Table String Json) (name : String) : Option Json :=
  (fields.get? name).filter fun value => !value.isEmptyValue

/-- The command line of an entry. -/
def commandField? (fields : Table String Json) : Option (Option String) :=
  match optionalField fields "command" with
  | none => some none
  | some value => value.text?.map some

/-- The argument list of an entry. -/
def argumentsField? (fields : Table String Json) : Option (Option (List String)) :=
  match optionalField fields "arguments" with
  | none => some none
  | some value => (value.items?.bind fun items => items.mapM Json.text?).map some

/-- The command that an entry describes. -/
def ofEntry (entry : Json) : Except EntryFault CompileCommand := do
  let some fields := entry.fields? | throw .notObject
  let some directory := (fields.get? "directory").bind Json.text? | throw .missingText
  let some file := (fields.get? "file").bind Json.text? | throw .missingText
  let some command := commandField? fields | throw .commandNotText
  let some arguments := argumentsField? fields | throw .argumentsNotTexts
  match reconstruct command arguments directory with
  | [] => throw (.noArguments file)
  | compiler :: rest => return ⟨directory, file, compiler :: rest.filter (· ≠ file)⟩

end CompileCommand

end AsmScope
