import AsmScope.Text.Basic
/-! # Command lines

How a command line is cut into words, and how words are written as one line. A scanner goes through
the line once and gives every character one role: the backslash that takes the next character
literally, a quote that opens or closes, a blank that separates, or a literal. The words are the
runs of literals between separators; an empty run is no word, so a bare pair of quotes adds nothing.
Writing puts quotes around a word only where the scanner would not read it back otherwise. -/

namespace AsmScope.CommandLine

open Text

/-- Where the scanner stands: inside which quotes, and whether the last character was a backslash
that takes the next one literally. -/
structure Scanner where
  /-- The quote that is open. -/
  quote : Option Char
  /-- Whether the next character is taken literally. -/
  escaping : Bool
  deriving DecidableEq, Repr

/-- What a character does in a command line. -/
inductive Role
  /-- The backslash before a character taken literally. -/
  | escape
  /-- A character of a word. -/
  | literal
  /-- A quote that opens or closes. -/
  | delimiter
  /-- A blank between words. -/
  | separator
  deriving DecidableEq, Repr

namespace Scanner

/-- At the beginning: outside quotes, with nothing taken literally. -/
def start : Scanner := ⟨none, false⟩

/-- The role of the next character. Outside quotes either quote opens; inside, only the same
character closes, and blanks are literal. -/
def role (scanner : Scanner) (c : Char) : Role :=
  if scanner.escaping then .literal
  else if c = '\\' then .escape
  else match scanner.quote with
    | none => if c = '\'' ∨ c = '"' then .delimiter else if isBlank c then .separator else .literal
    | some quote => if c = quote then .delimiter else .literal

/-- Where the scanner stands after a character. -/
def next (scanner : Scanner) (c : Char) : Scanner :=
  match scanner.role c with
  | .escape => { scanner with escaping := true }
  | .delimiter => { scanner with quote := if scanner.quote.isNone then some c else none }
  | .literal | .separator => { scanner with escaping := false }

/-- Every character with its role. -/
def roles : Scanner → List Char → List (Role × Char)
  | _, [] => []
  | scanner, c :: rest => (scanner.role c, c) :: roles (scanner.next c) rest

/-- Where the scanner stands after a text. -/
def after (scanner : Scanner) (cs : List Char) : Scanner := cs.foldl next scanner

/-- Where nothing is left to scan there are no roles. -/
@[simp] theorem roles_nil (scanner : Scanner) : scanner.roles [] = [] := rfl

/-- A character gets its role from the scanner that meets it, which then moves on. -/
@[simp] theorem roles_cons (scanner : Scanner) (c : Char) (cs : List Char) :
    scanner.roles (c :: cs) = (scanner.role c, c) :: (scanner.next c).roles cs := rfl

/-- Scanning two texts one after the other scans the second from where the first ended. -/
theorem roles_append (scanner : Scanner) (cs ds : List Char) :
    scanner.roles (cs ++ ds) = scanner.roles cs ++ (scanner.after cs).roles ds := by
  induction cs generalizing scanner with
  | nil => simp [after]
  | cons c cs ih => simp [after, ih]

end Scanner

/-- The word collected so far, backwards, as a list of words: none if it is empty. -/
def finishWord (current : List Char) : List (List Char) :=
  if current.isEmpty then [] else [current.reverse]

/-- The runs of literals between separators; `current` holds the open run backwards. -/
def wordsOf : List Char → List (Role × Char) → List (List Char)
  | current, [] => finishWord current
  | current, (.literal, c) :: rest => wordsOf (c :: current) rest
  | current, (.separator, _) :: rest => finishWord current ++ wordsOf [] rest
  | current, (.escape, _) :: rest => wordsOf current rest
  | current, (.delimiter, _) :: rest => wordsOf current rest

/-- The words of a line of characters. -/
def splitChars (line : List Char) : List (List Char) := wordsOf [] (Scanner.start.roles line)

/-- The words of a command line. -/
def split (line : String) : List String := (splitChars line.toList).map String.ofList

/-- Whether a character cannot stand in a word without quotes. -/
def needsQuotes (c : Char) : Bool := isBlank c || c = '\'' || c = '"' || c = '\\'

/-- A character inside double quotes. -/
def quoteChar (c : Char) : List Char := if c = '\\' ∨ c = '"' then ['\\', c] else [c]

/-- A word as it is written in a line: as it is if it can be, else in double quotes. -/
def writeWord (word : List Char) : List Char :=
  if !word.isEmpty && !word.any needsQuotes then word else '"' :: word.flatMap quoteChar ++ ['"']

/-- Words as one line of characters. -/
def joinChars (words : List (List Char)) : List Char := [' '].intercalate (words.map writeWord)

/-- Words as one command line. -/
def join (words : List String) : String := String.ofList (joinChars (words.map String.toList))

end AsmScope.CommandLine
