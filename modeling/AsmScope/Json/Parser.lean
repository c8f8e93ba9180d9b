import AsmScope.Json.Basic
/-! # Reading the data format

A reader by descent over the characters. It accepts the numbers `NaN`, `Infinity` and `-Infinity`
besides the standard grammar, keeps the last value of a repeated field at the place of the first,
and refuses control characters inside texts. A refusal names its cause and how many characters were
left at it, from which line and column follow. -/

namespace AsmScope.Json

/-! ### How deep a text is nested

Arrays and objects can only be followed so deep, in reading as in writing. How many brackets are
open at a place is told by the characters before it: brackets count where they stand outside of
quotes. -/

/-- How many arrays and objects may be opened inside each other. Reading and writing go one call
deeper for each of them, and this is what a limit of a thousand nested calls leaves them; both are
given the same, whatever calls they are made from. -/
def maxNesting : Nat := 988

/-- Where a character stands: outside of quotes, between them, or right after a backslash there. -/
inductive Spot
  | outside
  | quoted
  | escaped
  deriving DecidableEq, Repr

/-- Where the next character stands. -/
def Spot.next : Spot → Char → Spot
  | .outside, c => if c = '"' then .quoted else .outside
  | .quoted, c => if c = '"' then .outside else if c = '\\' then .escaped else .quoted
  | .escaped, _ => .quoted

/-- How many brackets are open after a character. -/
def Spot.level (level : Nat) : Spot → Char → Nat
  | .outside, c =>
    if c = '[' ∨ c = '{' then level + 1 else if c = ']' ∨ c = '}' then level - 1 else level
  | _, _ => level

/-- How many brackets are open at most, if there are some before. -/
def nesting : Spot → Nat → List Char → Nat
  | _, level, [] => level
  | spot, level, c :: cs => max level (nesting (spot.next c) (spot.level level c) cs)

/-- The front of a text in which no more than `limit` brackets are open at once. -/
def frontWithin (limit : Nat) : Spot → Nat → List Char → List Char
  | _, _, [] => []
  | spot, level, c :: cs =>
    if spot.level level c ≤ limit then c :: frontWithin limit (spot.next c) (spot.level level c) cs
    else []

/-! ### Refusals -/

/-- What the reader found instead of a value. -/
inductive SyntaxCause
  | expectedValue
  | expectedComma
  | expectedColon
  | expectedFieldName
  | extraData
  | unterminatedText
  | controlCharacter
  | badEscape
  | badUnicodeEscape
  | byteOrderMark
  deriving DecidableEq, Repr

/-- The wording of a cause. -/
def SyntaxCause.message : SyntaxCause → String
  | .expectedValue => "Expecting value"
  | .expectedComma => "Expecting ',' delimiter"
  | .expectedColon => "Expecting ':' delimiter"
  | .expectedFieldName => "Expecting property name enclosed in double quotes"
  | .extraData => "Extra data"
  | .unterminatedText => "Unterminated string starting at"
  | .controlCharacter => "Invalid control character at"
  | .badEscape => "Invalid \\escape"
  | .badUnicodeEscape => "Invalid \\uXXXX escape"
  | .byteOrderMark => "Unexpected UTF-8 BOM (decode using utf-8-sig)"

/-- Why a text is not read. -/
inductive ReadError
  /-- The text breaks the grammar, with this many characters left. -/
  | malformed (cause : SyntaxCause) (left : Nat)
  /-- An integer has more digits than are converted. -/
  | integerTooLong
  /-- Arrays and objects are nested deeper than is followed. -/
  | nestedTooDeep
  deriving DecidableEq, Repr

/-- Refuses at the characters that are left. -/
def refuse {α : Type} (cause : SyntaxCause) (left : List Char) : Except ReadError (α × List Char) :=
  .error (.malformed cause left.length)

/-- The characters that may stand between the parts of a value. -/
def isGap (c : Char) : Bool := c == ' ' || c == '\t' || c == '\n' || c == '\r'

/-- Skips the characters between parts. -/
def skipGap (cs : List Char) : List Char := cs.dropWhile isGap

/-! ### Texts -/

/-- The value of a hexadecimal digit. -/
def hexValue? (c : Char) : Option Nat :=
  if '0' ≤ c ∧ c ≤ '9' then some (c.toNat - '0'.toNat)
  else if 'a' ≤ c ∧ c ≤ 'f' then some (c.toNat - 'a'.toNat + 10)
  else if 'A' ≤ c ∧ c ≤ 'F' then some (c.toNat - 'A'.toNat + 10)
  else none

/-- The number that four hexadecimal digits write. -/
def hex4? (a b c d : Char) : Option Nat := do
  let a ← hexValue? a
  let b ← hexValue? b
  let c ← hexValue? c
  let d ← hexValue? d
  return ((a * 16 + b) * 16 + c) * 16 + d

/-- The character that a one-letter escape stands for. -/
def escaped? : Char → Option Char
  | '"' => some '"'
  | '\\' => some '\\'
  | '/' => some '/'
  | 'b' => some '\x08'
  | 'f' => some '\x0c'
  | 'n' => some '\n'
  | 'r' => some '\r'
  | 't' => some '\t'
  | _ => none

/-- Whether a number is the first half of a surrogate pair. -/
def isHighSurrogate (n : Nat) : Bool := 0xD800 ≤ n && n ≤ 0xDBFF

/-- Whether a number is the second half of a surrogate pair. -/
def isLowSurrogate (n : Nat) : Bool := 0xDC00 ≤ n && n ≤ 0xDFFF

/-- A number as a character; half a surrogate pair is none and gives U+FFFD. -/
def charOfUnit (n : Nat) : Char := if n.isValidChar then Char.ofNat n else '\uFFFD'

/-- The characters of the numbers that a text's characters and escapes stand for: a pair of
surrogates is one character. -/
def charsOfUnits : List Nat → List Char
  | [] => []
  | [n] => [charOfUnit n]
  | high :: low :: rest =>
    if isHighSurrogate high && isLowSurrogate low then
      Char.ofNat (0x10000 + (high - 0xD800) * 0x400 + (low - 0xDC00)) :: charsOfUnits rest
    else charOfUnit high :: charsOfUnits (low :: rest)

/-- Reads a text up to its closing quote; `opening` is the number of characters left at the opening
one, and `units` holds backwards what has been read. -/
def readUnits (opening : Nat) : List Nat → List Char → Except ReadError (List Nat × List Char)
  | _, [] => .error (.malformed .unterminatedText opening)
  | units, '"' :: rest => .ok (units.reverse, rest)
  | _, ['\\'] => .error (.malformed .unterminatedText opening)
  | units, '\\' :: 'u' :: a :: b :: c :: d :: rest =>
    match hex4? a b c d with
    | some n =>
      if rest.isEmpty then refuse .badUnicodeEscape ('u' :: a :: b :: c :: d :: rest)
      else readUnits opening (n :: units) rest
    | none => refuse .badUnicodeEscape ('u' :: a :: b :: c :: d :: rest)
  | units, '\\' :: c :: rest =>
    if c = 'u' then refuse .badUnicodeEscape (c :: rest)
    else match escaped? c with
      | some e => readUnits opening (e.toNat :: units) rest
      | none => refuse .badEscape ('\\' :: c :: rest)
  | units, c :: rest =>
    if c.toNat < 0x20 then refuse .controlCharacter (c :: rest)
    else readUnits opening (c.toNat :: units) rest

/-- Reads a text from its opening quote, which has been taken off. -/
def readText (rest : List Char) : Except ReadError (String × List Char) := do
  let (units, rest) ← readUnits (rest.length + 1) [] rest
  return (String.ofList (charsOfUnits units), rest)

/-! ### Numbers -/

/-- Whether a character is a decimal digit. -/
def isDigit (c : Char) : Bool := '0' ≤ c && c ≤ '9'

/-- The number that decimal digits write. -/
def digitsValue (digits : List Char) : Nat :=
  digits.foldl (fun n c => n * 10 + (c.toNat - '0'.toNat)) 0

/-- The digits before a point: a zero alone, or digits that begin with no zero. -/
def wholeDigits? : List Char → Option (List Char × List Char)
  | [] => none
  | c :: rest =>
    if c = '0' then some (['0'], rest)
    else if isDigit c then some (c :: rest.takeWhile isDigit, rest.dropWhile isDigit)
    else none

/-- The digits after a point, if there is a point with a digit after it. -/
def fractionDigits : List Char → List Char × List Char
  | '.' :: rest =>
    match rest.takeWhile isDigit with
    | [] => ([], '.' :: rest)
    | digits => (digits, rest.dropWhile isDigit)
  | cs => ([], cs)

/-- The sign that may stand before the digits of an exponent. -/
def exponentSign : List Char → Bool × List Char
  | '-' :: rest => (true, rest)
  | '+' :: rest => (false, rest)
  | cs => (false, cs)

/-- The power of ten, if an exponent mark with a digit stands here. -/
def exponent? : List Char → Option (Int × List Char)
  | [] => none
  | c :: rest =>
    if c = 'e' ∨ c = 'E' then
      let (negative, rest) := exponentSign rest
      match rest.takeWhile isDigit with
      | [] => none
      | digits =>
        let value : Int := digitsValue digits
        some (if negative then -value else value, rest.dropWhile isDigit)
    else none

/-- The number of digits up to which an integer is converted. -/
def maxIntegerDigits : Nat := 4300

/-- Reads a number without its sign. -/
def readUnsigned (negative : Bool) (start cs : List Char) : Except ReadError (Json × List Char) :=
  match wholeDigits? cs with
  | none => refuse .expectedValue start
  | some (whole, rest) =>
    let (fraction, rest) := fractionDigits rest
    let float (power : Int) : Json :=
      .float (.ofDecimal negative (digitsValue (whole ++ fraction)) (power - fraction.length))
    match exponent? rest with
    | some (power, rest) => .ok (float power, rest)
    | none =>
      if !fraction.isEmpty then .ok (float 0, rest)
      else if whole.length > maxIntegerDigits then .error .integerTooLong
      else
        let value : Int := digitsValue whole
        .ok (.int (if negative then -value else value), rest)

/-- Reads a number. -/
def readNumber : List Char → Except ReadError (Json × List Char)
  | '-' :: rest => readUnsigned true ('-' :: rest) rest
  | cs => readUnsigned false cs cs

/-! ### Values -/

/-- The values that are written as words. -/
def words : List (List Char × Json) :=
  [("null".toList, .null), ("true".toList, .bool true), ("false".toList, .bool false),
    ("NaN".toList, .float .nan), ("Infinity".toList, .float (.infinity false)),
    ("-Infinity".toList, .float (.infinity true))]

/-- Reads a value that is written as a word. -/
def readWord? (cs : List Char) : Option (Json × List Char) :=
  words.findSome? fun (word, value) => (word.isPrefixOf? cs).map fun rest => (value, rest)

mutual

/-- Reads a value; `fuel` bounds the number of nested and following parts, and `depth` is how many
arrays and objects may still be opened inside each other. -/
def readValue : Nat → Nat → List Char → Except ReadError (Json × List Char)
  | 0, _, cs => refuse .expectedValue cs
  | fuel + 1, depth, cs =>
    match cs with
    | '"' :: rest => do
      let (value, rest) ← readText rest
      return (.text value, rest)
    | '[' :: rest =>
      match depth, skipGap rest with
      | 0, _ => .error .nestedTooDeep
      | _, ']' :: rest => .ok (.array [], rest)
      | depth + 1, rest => readItems fuel depth [] rest
    | '{' :: rest =>
      match depth, skipGap rest with
      | 0, _ => .error .nestedTooDeep
      | _, '}' :: rest => .ok (.object [], rest)
      | depth + 1, rest => readFields fuel depth [] rest
    | cs =>
      match readWord? cs with
      | some reading => .ok reading
      | none => readNumber cs

/-- Reads the items of an array from the first one on; `items` holds backwards those before. -/
def readItems : Nat → Nat → List Json → List Char → Except ReadError (Json × List Char)
  | 0, _, _, cs => refuse .expectedValue cs
  | fuel + 1, depth, items, cs => do
    let (item, rest) ← readValue fuel depth cs
    match skipGap rest with
    | ']' :: rest => return (.array (item :: items).reverse, rest)
    | ',' :: rest => readItems fuel depth (item :: items) (skipGap rest)
    | rest => refuse .expectedComma rest

/-- Reads the fields of an object from the name of the first one on. -/
def readFields : Nat → Nat → Table String Json → List Char →
    Except ReadError (Json × List Char)
  | 0, _, _, cs => refuse .expectedValue cs
  | fuel + 1, depth, fields, cs =>
    match cs with
    | '"' :: rest => do
      let (name, rest) ← readText rest
      match skipGap rest with
      | ':' :: rest =>
        let (value, rest) ← readValue fuel depth (skipGap rest)
        let fields := fields.put name value
        match skipGap rest with
        | '}' :: rest => return (.object fields, rest)
        | ',' :: rest => readFields fuel depth fields (skipGap rest)
        | rest => refuse .expectedComma rest
      | rest => refuse .expectedColon rest
    | cs => refuse .expectedFieldName cs

end

/-- Reads a whole text as one value. Every part takes a character, so twice the length bounds the
parts. -/
def parseChars (cs : List Char) : Except ReadError Json :=
  if cs.head? = some '\uFEFF' then .error (.malformed .byteOrderMark cs.length)
  else do
    let (value, rest) ← readValue (2 * cs.length + 2) maxNesting (skipGap cs)
    match skipGap rest with
    | [] => return value
    | rest => .error (.malformed .extraData rest.length)

/-- Reads a whole text as one value. -/
def parse (s : String) : Except ReadError Json := parseChars s.toList

/-- The place of a refusal: line, column and the number of characters before it. -/
structure Place where
  /-- Counted from one. -/
  line : Nat
  /-- Counted from one, from the last line feed on. -/
  column : Nat
  /-- The number of characters before. -/
  offset : Nat
  deriving DecidableEq, Repr

/-- The place in a text at which this many characters are left. -/
def placeOf (cs : List Char) (left : Nat) : Place :=
  let before := cs.take (cs.length - left)
  { line := before.count '\n' + 1
    column := (before.reverse.takeWhile (· ≠ '\n')).length + 1
    offset := before.length }

/-- The text of a refusal. -/
def syntaxMessage (s : String) (cause : SyntaxCause) (left : Nat) : String :=
  let place := placeOf s.toList left
  cause.message ++ ": line " ++ toString place.line ++ " column " ++ toString place.column ++
    " (char " ++ toString place.offset ++ ")"

end AsmScope.Json
