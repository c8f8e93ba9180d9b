import AsmScope.Host.Basic
/-! # Watching a file

A handler listens for the events of a directory and picks those about one file. Writing and creating
the file, and moving another file onto it, are changes; deleting it and moving it away are
deletions. A change that comes too soon after the last reported one is dropped. Deletions and events
about other files do not count for that distance. The distance of two clock readings is exact for
integers and rounded otherwise; it cannot be told if an integer is beyond the binary format. A path
may be given as bytes, and a handler that has to read bytes that are no text fails. -/

namespace AsmScope

/-- A path in an event: a text, or bytes as the system hands them out. A file name may be any bytes,
so these need not be the UTF-8 form of a text. -/
inductive EventPath
  | text (path : String)
  | bytes (path : Bytes)
  deriving DecidableEq, Repr

/-- The text of a path; bytes that are no UTF-8 have none, and such a path cannot be read. -/
def EventPath.text? : EventPath → Option String
  | .text path => some path
  | .bytes path => Utf8.decode? path

/-- What happened to a file. -/
inductive EventKind
  | modified
  | created
  | deleted
  /-- The file was moved to this path. -/
  | moved (destination : EventPath)
  deriving DecidableEq, Repr

/-- Something that happened in a watched directory. -/
structure FileEvent where
  /-- What happened. -/
  kind : EventKind
  /-- The path to which it happened. -/
  path : EventPath
  /-- Whether the path is a directory. -/
  isDirectory : Bool
  deriving DecidableEq, Repr

/-- What a handler reports about its file. -/
inductive Signal
  | changed
  | deleted
  deriving DecidableEq, Repr

/-- Why a handler fails on an event. -/
inductive EventError
  /-- A path of the event is no text. -/
  | undecodable
  /-- The distance of two clock readings is beyond the binary format. -/
  | beyondFormat
  deriving DecidableEq, Repr

/-- Listens for the events of one file. -/
structure Handler where
  /-- The watched file, in canonical form. -/
  target : String
  /-- Whether deletions are reported. -/
  reportsDeletion : Bool := true
  /-- The least distance of two reported changes, in seconds. -/
  debounce : Number := .binary (.zero false)
  /-- The clock at the last reported change. -/
  lastTriggered : Number := .binary (.zero false)
  deriving DecidableEq, Repr

namespace Handler

/-- Whether a path leads to the watched file. The path is read for this. -/
def isTarget (handler : Handler) (host : Host) (path : EventPath) : Except EventError Bool :=
  match path.text? with
  | some path => .ok (host.canonical path == handler.target)
  | none => .error .undecodable

/-- The time since the last reported change. -/
def elapsed? (handler : Handler) (now : Number) : Option Number := now.sub? handler.lastTriggered

/-- A change at this clock reading. -/
def change (handler : Handler) (now : Number) : Except EventError (Handler × Option Signal) :=
  match handler.elapsed? now with
  | none => .error .beyondFormat
  | some elapsed =>
    if handler.debounce.le elapsed then
      .ok ({ handler with lastTriggered := now }, some .changed)
    else .ok (handler, none)

/-- A deletion. -/
def deletion (handler : Handler) : Option Signal :=
  if handler.reportsDeletion then some .deleted else none

/-- What a handler makes of an event. Of a move the destination is read first, and the path only if
the destination is another file; nothing is read of an event about a directory. -/
def react (handler : Handler) (host : Host) (event : FileEvent) :
    Except EventError (Handler × Option Signal) :=
  if event.isDirectory then .ok (handler, none)
  else
    match event.kind with
    | .modified | .created => do
      if ← handler.isTarget host event.path then handler.change host.now
      else return (handler, none)
    | .deleted => do
      if ← handler.isTarget host event.path then return (handler, handler.deletion)
      else return (handler, none)
    | .moved destination => do
      if ← handler.isTarget host destination then handler.change host.now
      else if ← handler.isTarget host event.path then return (handler, handler.deletion)
      else return (handler, none)

/-- A handler for a file. -/
def forFile (host : Host) (path : String) (reportsDeletion : Bool) (debounce : Number) : Handler :=
  { target := host.canonical path, reportsDeletion, debounce }

end Handler

/-- The running handlers, each under the name of its listener, in the order in which they were
started. -/
abbrev Observers (κ : Type) : Type := Table κ Handler

namespace Observers

/-- Starts watching a file that is there; a listener has one handler at most. -/
def start? {κ : Type} [DecidableEq κ] (observers : Observers κ) (host : Host) (listener : κ)
    (path : String) (reportsDeletion : Bool) (debounce : Number) : Option (Observers κ) :=
  if host.pathExists (host.canonical path) then
    some (observers.put listener (Handler.forFile host path reportsDeletion debounce))
  else none

end Observers

end AsmScope
