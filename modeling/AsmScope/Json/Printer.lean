import AsmScope.Json.Basic
import AsmScope.Number.Decimal
import AsmScope.Text.Quoted
/-! # Writing the data format

Two forms: on one line, and with every item on a line of its own, indented by two blanks a level.
Both are ASCII only; other characters are written as escapes of their UTF-16 units. A second kind of
text, `display`, shows a value the way it appears inside a setting: texts as they are at the top and
in quotes below it. -/

namespace AsmScope.Json

/-- How a value is laid out. -/
inductive Style
  /-- On one line. -/
  | compact
  /-- Every item on its own line. -/
  | indented
  deriving DecidableEq, Repr

/-- What stands before an item at this level, and before the closing bracket above it. -/
def Style.lineBreak : Style → Nat → List Char
  | .compact, _ => []
  | .indented, level => '\n' :: List.replicate (2 * level) ' '

/-- What stands after an item that another one follows. -/
def Style.comma : Style → List Char
  | .compact => [',', ' ']
  | .indented => [',']

/-- The escape of a UTF-16 unit. -/
def unitEscape (n : Nat) : List Char := '\\' :: 'u' :: Text.hex 4 n

/-- A character inside a text. -/
def escapeChar (c : Char) : List Char :=
  if c = '"' then ['\\', '"']
  else if c = '\\' then ['\\', '\\']
  else if c = '\n' then ['\\', 'n']
  else if c = '\r' then ['\\', 'r']
  else if c = '\t' then ['\\', 't']
  else if c = '\x08' then ['\\', 'b']
  else if c = '\x0c' then ['\\', 'f']
  else if 0x20 ≤ c.toNat ∧ c.toNat < 0x7F then [c]
  else if c.toNat < 0x10000 then unitEscape c.toNat
  else
    unitEscape (0xD800 + (c.toNat - 0x10000) / 0x400) ++
      unitEscape (0xDC00 + (c.toNat - 0x10000) % 0x400)

/-- A text in quotes. -/
def writeText (s : String) : List Char := '"' :: s.toList.flatMap escapeChar ++ ['"']

/-- Numbers in a data file name infinity and the non-number by words. -/
def numberLayout : Binary64.Layout :=
  { Binary64.Layout.plain with nan := "NaN", infinity := "Infinity" }

/-- An integer in decimal digits. -/
def writeInt (n : Int) : List Char :=
  if n < 0 then '-' :: Nat.toDigits 10 n.natAbs else Nat.toDigits 10 n.natAbs

mutual

/-- A value at a level of nesting. -/
def write (style : Style) (level : Nat) : Json → List Char
  | .null => "null".toList
  | .bool true => "true".toList
  | .bool false => "false".toList
  | .int value => writeInt value
  | .float value => (numberLayout.text value).toList
  | .text value => writeText value
  | .array [] => ['[', ']']
  | .array (item :: items) =>
    '[' :: style.lineBreak (level + 1) ++ write style (level + 1) item ++
      writeItems style (level + 1) items ++ style.lineBreak level ++ [']']
  | .object [] => ['{', '}']
  | .object ((name, value) :: fields) =>
    '{' :: style.lineBreak (level + 1) ++ writeText name ++ [':', ' '] ++
      write style (level + 1) value ++ writeFields style (level + 1) fields ++
      style.lineBreak level ++ ['}']

/-- The items of an array after the first one. -/
def writeItems (style : Style) (level : Nat) : List Json → List Char
  | [] => []
  | item :: items =>
    style.comma ++ style.lineBreak level ++ write style level item ++ writeItems style level items

/-- The fields of an object after the first one. -/
def writeFields (style : Style) (level : Nat) : List (String × Json) → List Char
  | [] => []
  | (name, value) :: fields =>
    style.comma ++ style.lineBreak level ++ writeText name ++ [':', ' '] ++
      write style level value ++ writeFields style level fields

end

/-- A value on one line. -/
def compact (value : Json) : String := String.ofList (write .compact 0 value)

/-- A value with every item on a line of its own. -/
def indented (value : Json) : String := String.ofList (write .indented 0 value)

mutual

/-- A value as it appears inside an array or object that is shown as text. -/
def displayInside : Json → List Char
  | .null => "None".toList
  | .bool true => "True".toList
  | .bool false => "False".toList
  | .int value => writeInt value
  | .float value => (Binary64.Layout.plain.text value).toList
  | .text value => (Text.quoted value).toList
  | .array [] => ['[', ']']
  | .array (item :: items) => '[' :: displayInside item ++ displayItems items ++ [']']
  | .object [] => ['{', '}']
  | .object ((name, value) :: fields) =>
    '{' :: (Text.quoted name).toList ++ [':', ' '] ++ displayInside value ++
      displayFields fields ++ ['}']

/-- The items of a shown array after the first one. -/
def displayItems : List Json → List Char
  | [] => []
  | item :: items => [',', ' '] ++ displayInside item ++ displayItems items

/-- The fields of a shown object after the first one. -/
def displayFields : List (String × Json) → List Char
  | [] => []
  | (name, value) :: fields =>
    [',', ' '] ++ (Text.quoted name).toList ++ [':', ' '] ++ displayInside value ++
      displayFields fields

end

/-- The text of a value: a text is shown as it is. -/
def display : Json → String
  | .text value => value
  | value => String.ofList (displayInside value)

end AsmScope.Json
