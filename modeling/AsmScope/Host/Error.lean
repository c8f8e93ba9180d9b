import AsmScope.Text.Quoted
/-! # Errors of the system

The failures that opening, listing, creating and starting can have, with their numbers and wordings.
A failure about a path names it in quotes. -/

namespace AsmScope

/-- The reasons for which the system refuses a request. -/
inductive Errno
  | noEntry
  | ioError
  | argumentsTooLong
  | execFormat
  | outOfMemory
  | accessDenied
  | exists
  | notDirectory
  | isDirectory
  | brokenPipe
  deriving DecidableEq, Repr

/-- The number of a reason. -/
def Errno.number : Errno → Nat
  | .noEntry => 2
  | .ioError => 5
  | .argumentsTooLong => 7
  | .execFormat => 8
  | .outOfMemory => 12
  | .accessDenied => 13
  | .exists => 17
  | .notDirectory => 20
  | .isDirectory => 21
  | .brokenPipe => 32

/-- The wording of a reason. -/
def Errno.message : Errno → String
  | .noEntry => "No such file or directory"
  | .ioError => "Input/output error"
  | .argumentsTooLong => "Argument list too long"
  | .execFormat => "Exec format error"
  | .outOfMemory => "Cannot allocate memory"
  | .accessDenied => "Permission denied"
  | .exists => "File exists"
  | .notDirectory => "Not a directory"
  | .isDirectory => "Is a directory"
  | .brokenPipe => "Broken pipe"

/-- A refused request, with the path that it was about. -/
structure SystemError where
  /-- The reason. -/
  reason : Errno
  /-- The path, if the request had one. -/
  path : Option String
  deriving DecidableEq, Repr

/-- The text of a refused request. -/
def SystemError.message (e : SystemError) : String :=
  "[Errno " ++ toString e.reason.number ++ "] " ++ e.reason.message ++
    match e.path with
    | some path => ": " ++ Text.quoted path
    | none => ""

end AsmScope
