import AsmScope.Text.Basic
/-! # Paths as text

Operations on paths that look at the text alone and never at a disk: joining, normal form, the parts
of a path, and the absolute form against a working directory. A slash separates names. The leaves
are functions on characters; the functions on `String` wrap them.

A path that begins with exactly two slashes keeps both in its normal form; any other number of
leading slashes counts as one. -/

namespace AsmScope.Path

open Text

/-- Names between slashes, as characters. -/
abbrev Name : Type := List Char

namespace Chars

/-- Whether a path begins at the root. -/
def isAbsolute (p : List Char) : Bool := p.head? == some '/'

/-- A path below another one; an absolute path stays as it is. -/
def join (base p : List Char) : List Char :=
  if isAbsolute p then p
  else if base.isEmpty || base.getLast? == some '/' then base ++ p
  else base ++ '/' :: p

/-- The number of leading slashes that count. -/
def rootSlashes : List Char → Nat
  | '/' :: '/' :: '/' :: _ => 1
  | '/' :: '/' :: _ => 2
  | '/' :: _ => 1
  | _ => 0

/-- Adds a name to the names of a normal form, which are held last first: empty names and `.` add
nothing, `..` takes the last name away where there is one to take, and at the root adds nothing. -/
def addName (rooted : Bool) (names : List Name) (name : Name) : List Name :=
  if name = [] ∨ name = ['.'] then names
  else if name = ['.', '.'] then
    match names with
    | [] => if rooted then [] else [name]
    | last :: rest => if last = ['.', '.'] then name :: names else rest
  else name :: names

/-- The names of the normal form. -/
def normalNames (p : List Char) : List Name :=
  ((cutAt '/' p).foldl (addName (0 < rootSlashes p)) []).reverse

/-- The path with these leading slashes and names; `.` if there is nothing to write. -/
def ofNames (slashes : Nat) (names : List Name) : List Char :=
  match List.replicate slashes '/' ++ ['/'].intercalate names with
  | [] => ['.']
  | p => p

/-- The normal form of a path. -/
def normalize (p : List Char) : List Char := ofNames (rootSlashes p) (normalNames p)

/-- The normal form of a path read from a working directory. -/
def absolute (directory p : List Char) : List Char :=
  normalize (join directory p)

/-- The characters up to and with the last slash, and those after it. -/
def cutAtLastSlash (p : List Char) : List Char × List Char :=
  let tail := (p.reverse.takeWhile (· ≠ '/')).reverse
  (p.take (p.length - tail.length), tail)

/-- The directory part of a path and its last name. Slashes at the end of the directory part are
dropped unless it holds nothing else. -/
def split (p : List Char) : List Char × List Char :=
  let (head, tail) := cutAtLastSlash p
  if head.all (· == '/') then (head, tail)
  else ((head.reverse.dropWhile (· == '/')).reverse, tail)

/-- The stem and the extension of a last name: the extension begins at the last dot, if some
character before it in the name is no dot. -/
def splitNameExtension (name : List Char) : List Char × List Char :=
  let suffix := (name.reverse.takeWhile (· ≠ '.')).reverse
  let stem := name.take (name.length - suffix.length - 1)
  if suffix.length < name.length ∧ stem.any (· ≠ '.') then (stem, '.' :: suffix) else (name, [])

/-- The path without its extension, and the extension. -/
def splitExtension (p : List Char) : List Char × List Char :=
  let (head, tail) := cutAtLastSlash p
  let (stem, extension) := splitNameExtension tail
  (head ++ stem, extension)

/-- The names of a path without the empty ones. -/
def plainNames (p : List Char) : List Name := (cutAt '/' p).filter fun name => !name.isEmpty

/-- The beginning that two lists share. -/
def sharedNames : List Name → List Name → List Name
  | a :: as, b :: bs => if a = b then a :: sharedNames as bs else []
  | _, _ => []

/-- The absolute path `p` as seen from the absolute directory `start`. -/
def relative (start p : List Char) : List Char :=
  let here := plainNames start
  let there := plainNames p
  let shared := (sharedNames here there).length
  match List.replicate (here.length - shared) ['.', '.'] ++ there.drop shared with
  | [] => ['.']
  | name :: names => names.foldl join name

/-- The longest directory that two absolute paths share. -/
def common (p q : List Char) : List Char :=
  let names (r : List Char) := (plainNames r).filter (· ≠ ['.'])
  '/' :: ['/'].intercalate (sharedNames (names p) (names q))

/-- The path with single slashes and without `.` names, its `..` names kept. -/
def tidy (p : List Char) : List Char :=
  ofNames (rootSlashes p) ((plainNames p).filter (· ≠ ['.']))

/-- The absolute normal form with one leading slash. -/
def resolve (directory p : List Char) : List Char :=
  '/' :: (absolute directory p).dropWhile (· == '/')

end Chars

/-- Whether a path begins at the root. -/
def isAbsolute (p : String) : Bool := Chars.isAbsolute p.toList

/-- A path below another one; an absolute path stays as it is. -/
def join (base p : String) : String := String.ofList (Chars.join base.toList p.toList)

/-- The normal form of a path. -/
def normalize (p : String) : String := String.ofList (Chars.normalize p.toList)

/-- The normal form of a path read from a working directory. -/
def absolute (directory p : String) : String :=
  String.ofList (Chars.absolute directory.toList p.toList)

/-- The directory part of a path. -/
def directoryOf (p : String) : String := String.ofList (Chars.split p.toList).1

/-- The last name of a path. -/
def nameOf (p : String) : String := String.ofList (Chars.split p.toList).2

/-- The path without its extension, and the extension. -/
def splitExtension (p : String) : String × String :=
  let (stem, extension) := Chars.splitExtension p.toList
  (String.ofList stem, String.ofList extension)

/-- The absolute path `p` as seen from the absolute directory `start`. -/
def relative (start p : String) : String := String.ofList (Chars.relative start.toList p.toList)

/-- The longest directory that two absolute paths share. -/
def common (p q : String) : String := String.ofList (Chars.common p.toList q.toList)

/-- The path with single slashes and without `.` names, its `..` names kept. -/
def tidy (p : String) : String := String.ofList (Chars.tidy p.toList)

/-- The absolute normal form with one leading slash. -/
def resolve (directory p : String) : String :=
  String.ofList (Chars.resolve directory.toList p.toList)

end AsmScope.Path
