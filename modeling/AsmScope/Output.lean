import AsmScope.Host.Basic
/-! # Output lines

Where the progress of a run and the diagnostics of its programs go. A line buffer keeps the last
lines for a reader that takes them away in one go, and remembers whether it was asked to be shown;
the journal sink writes every line to the log of the host instead. -/

namespace AsmScope

/-- Lines waiting to be taken, and whether they should be shown. -/
structure LineBuffer where
  /-- How many lines are kept; none means all. -/
  capacity : Option Nat := some 5000
  /-- The lines, oldest first. -/
  lines : List String := []
  /-- Whether the lines were asked to be shown. -/
  showRequested : Bool := false
  deriving DecidableEq, Repr

namespace LineBuffer

/-- The last `capacity` lines. -/
def lastLines (capacity : Option Nat) (lines : List String) : List String :=
  match capacity with
  | none => lines
  | some n => lines.drop (lines.length - n)

/-- Adds a line without the line feeds at its end; the oldest lines give way. -/
def append (buffer : LineBuffer) (line : String) : LineBuffer :=
  { buffer with
    lines := lastLines buffer.capacity (buffer.lines ++ [Text.withoutFinalLineFeeds line]) }

/-- Asks for the lines to be shown. -/
def requestShow (buffer : LineBuffer) : LineBuffer := { buffer with showRequested := true }

/-- Takes the lines away. -/
def drain (buffer : LineBuffer) : List String × LineBuffer :=
  (buffer.lines, { buffer with lines := [] })

/-- Takes the request to be shown away. -/
def takeShowRequest (buffer : LineBuffer) : Bool × LineBuffer :=
  (buffer.showRequested, { buffer with showRequested := false })

/-- Asking for the log to be shown adds no line. -/
@[simp] theorem lines_requestShow (buffer : LineBuffer) :
    buffer.requestShow.lines = buffer.lines := rfl

/-- A line asks for nothing to be shown. -/
@[simp] theorem showRequested_append (buffer : LineBuffer) (line : String) :
    (buffer.append line).showRequested = buffer.showRequested := rfl

/-- A request to show the log outlives the lines that are taken. -/
@[simp] theorem showRequested_drain (buffer : LineBuffer) :
    buffer.drain.2.showRequested = buffer.showRequested := rfl

end LineBuffer

/-- Where output lines go. -/
inductive Sink
  /-- Into a line buffer. -/
  | buffer (lines : LineBuffer)
  /-- Into the journal of the host; `shown` says whether showing was asked for. -/
  | journal (shown : Bool)
  deriving Repr

namespace Sink

/-- Writes a line, which may change the host's journal. -/
def append (sink : Sink) (line : String) (host : Host) : Sink × Host :=
  match sink with
  | .buffer lines => (.buffer (lines.append line), host)
  | .journal shown =>
    (.journal shown, host.log .info "output" (Text.withoutFinalLineFeeds line))

/-- Asks for the lines to be shown. -/
def requestShow : Sink → Sink
  | .buffer lines => .buffer lines.requestShow
  | .journal _ => .journal true

end Sink

end AsmScope
