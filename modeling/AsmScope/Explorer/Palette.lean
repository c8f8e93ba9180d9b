import AsmScope.CommandLine
import AsmScope.Text.Screen
/-! # The command palette

Where the user sees the command of the current file and types another one in its place. A line is
blank, which asks for the build's own command again, or a command line that begins with a compiler.
Every change of the line is checked at once; a line that is refused is not submitted. What the
palette says about a command is a text for the screen, the line itself is not changed. -/

namespace AsmScope

/-- Why a typed line is refused. -/
inductive Refusal
  /-- The line has no words. -/
  | noArguments
  /-- The line begins with a flag. -/
  | startsWithFlag (flag : String)
  deriving DecidableEq, Repr

/-- The text of a refusal. -/
def Refusal.message : Refusal → String
  | .noArguments => "The command has no arguments"
  | .startsWithFlag flag => "Start with the compiler, not the flag " ++ flag

/-- Whether a word is a flag. -/
def isFlag (word : String) : Bool := word.toList.head? == some '-'

/-- Why a line is refused, if it is. -/
def refusal? (line : String) : Option Refusal :=
  if Text.isBlankText line then none
  else
    match CommandLine.split line with
    | [] => some .noArguments
    | word :: _ => if isFlag word then some (.startsWithFlag word) else none

/-- What the palette shows and knows. -/
structure Palette where
  /-- Whether the palette is open. -/
  isOpen : Bool := false
  /-- The text about the build's own command. -/
  entry : String := ""
  /-- The text below the line. -/
  status : String := ""
  /-- Whether that text is about a refusal. -/
  invalid : Bool := false
  /-- The line. -/
  line : String := ""
  /-- Where the palette has put the cursor. -/
  cursor : Nat := 0
  /-- The arguments of the build's own command. -/
  entryArguments : List String := []
  deriving DecidableEq, Repr

namespace Palette

/-- What the keys do. -/
def hint : String :=
  "Enter: compile with this command   Empty: back to the database entry   " ++
    "Ctrl+O: edit the entry   Esc: close"

/-- Shows what the keys do, or why the line is refused. -/
def showVerdict (palette : Palette) : Option Refusal → Palette
  | some refusal => { palette with status := Text.onScreen refusal.message, invalid := true }
  | none => { palette with status := hint, invalid := false }

/-- Puts a line in the place of the present one. A line that is different is checked. -/
def setLine (palette : Palette) (line : String) : Palette :=
  if line = palette.line then palette else { palette with line }.showVerdict (refusal? line)

/-- The build's own command as one line, or that there is none. -/
def describeEntry (entryArguments : List String) : String :=
  if entryArguments.isEmpty then "no entry in compile_commands.json"
  else CommandLine.join entryArguments

/-- Opens the palette over the build's own arguments, with the override as the line. -/
def present (palette : Palette) (entryArguments override : List String) : Palette :=
  { palette with
    entryArguments
    entry := Text.onScreen ("Database: " ++ describeEntry entryArguments)
    status := hint
    invalid := false
    isOpen := true }.setLine (CommandLine.join override)

/-- Closes the palette. -/
def close (palette : Palette) : Palette := { palette with isOpen := false }

/-- Takes the build's own command as the line, if there is one, with the cursor at its end. -/
def editEntry (palette : Palette) : Palette :=
  if palette.entryArguments.isEmpty then palette
  else
    let line := CommandLine.join palette.entryArguments
    { palette.setLine line with cursor := line.length }

/-- Submits the line: the arguments that it stands for, if it is not refused. -/
def submit (palette : Palette) : Palette × Option (List String) :=
  match refusal? palette.line with
  | some refusal => (palette.showVerdict (some refusal), none)
  | none => (palette.close, some (CommandLine.split palette.line))

end Palette

end AsmScope
