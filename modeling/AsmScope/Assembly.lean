import AsmScope.Path.Basic
/-! # Assembly text

The lines of an assembly listing that a reader wants to see: all but those whose first character
after blanks is `#` or `;`. Lines end at a line feed, with a carriage return right before it
counting as part of the end; the kept lines are joined by single line feeds. -/

namespace AsmScope.Assembly

open Text

/-- Takes away the carriage returns that stand right before a line feed. -/
def dropCarriageReturns : List Char → List Char
  | [] => []
  | '\r' :: '\n' :: rest => '\n' :: dropCarriageReturns rest
  | c :: rest => c :: dropCarriageReturns rest

/-- The lines of a listing. -/
def linesOf (asm : List Char) : List (List Char) := cutAt '\n' (dropCarriageReturns asm)

/-- Whether a line is a directive or a comment. -/
def isDirective (line : List Char) : Bool :=
  match trimStart line with
  | c :: _ => c = '#' || c = ';'
  | [] => false

/-- The listing without directives, as characters. -/
def stripChars (asm : List Char) : List Char :=
  ['\n'].intercalate ((linesOf asm).filter fun line => !isDirective line)

/-- The listing without directives. -/
def stripDirectives (asm : String) : String := String.ofList (stripChars asm.toList)

/-- The path of the assembly view of a source file: the same name with the extension `.S`. -/
def viewPath (source : String) : String := (Path.splitExtension source).1 ++ ".S"

end AsmScope.Assembly
