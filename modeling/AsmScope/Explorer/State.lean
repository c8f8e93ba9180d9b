import AsmScope.Explorer.Palette
import AsmScope.Scenario.LocateSteps
import AsmScope.Scenario.Interference
/-! # The explorer

The screen over one source file: the assembly or the error of its last run, an indicator while runs
are outstanding, a log of output lines and the command palette. Compiling is done by workers that
are queued and run one at a time, and everything that a worker or the palette has to say comes as a
message, which is handled when the present step is over. -/

namespace AsmScope

/-- What is reported to the explorer. -/
inductive Message
  /-- A run gave this assembly. -/
  | finished (asm : String)
  /-- A run failed with this text. -/
  | failed (error : String) (cancelled : Bool)
  /-- The palette wants other arguments; none for the build's own. -/
  | commandChanged (arguments : List String)
  deriving DecidableEq, Repr

/-- Something that a user, a worker or the world does to the explorer. -/
inductive ExplorerStep
  | host (step : HostStep)
  | mount
  | unmount
  /-- The oldest queued worker runs. -/
  | work
  | refresh
  | cancel
  | toggleLog
  | toggleCommand
  /-- Output lines go to the log. -/
  | flush
  | type (line : String)
  | submit
  | editEntry
  | escape
  | message (message : Message)
  deriving Repr

/-- A text that may be hidden. -/
structure TextView where
  /-- Whether the text is shown. -/
  visible : Bool
  /-- The text. -/
  text : String := ""
  deriving DecidableEq, Repr

/-- What the explorer shows and knows. -/
structure Explorer where
  /-- The source file, in absolute form. -/
  source : String
  /-- The arguments in the place of the build's own; none if empty. -/
  override : List String := []
  /-- The number of started runs whose outcome was not handled. -/
  running : Nat := 0
  /-- Whether the user has cancelled a run whose outcome was not handled. -/
  cancelRequested : Bool := false
  /-- Whether the indicator is shown. -/
  busy : Bool := false
  /-- The assembly of the last run. -/
  asm : TextView := { visible := true }
  /-- The error of the last run. -/
  error : TextView := { visible := false }
  /-- Whether the log is shown. -/
  logVisible : Bool := false
  /-- The lines written to the log. -/
  logLines : List String := []
  /-- What the user was told in passing. -/
  notes : List String := []
  /-- The command palette. -/
  palette : Palette := {}
  /-- The overrides of the queued workers, oldest first. -/
  queue : List (List String) := []
  /-- The messages that wait to be handled, oldest first. -/
  inbox : List Message := []
  /-- The scripts of what other threads still do during runs. -/
  scripts : List (Script ExplorerStep) := []

namespace Explorer

/-- The explorer with this many outstanding runs. -/
def setRunning (explorer : Explorer) (running : Nat) : Explorer :=
  { explorer with running, busy := 0 < running }

/-- One more run is outstanding. -/
def addRun (explorer : Explorer) : Explorer := explorer.setRunning (explorer.running + 1)

/-- The outcome of one run is handled. -/
def dropRun (explorer : Explorer) : Explorer := explorer.setRunning (explorer.running - 1)

/-- Tells the user something in passing. -/
def notify (explorer : Explorer) (note : String) : Explorer :=
  { explorer with notes := explorer.notes ++ [note] }

/-- Leaves a message to be handled when the step is over. -/
def post (explorer : Explorer) (message : Message) : Explorer :=
  { explorer with inbox := explorer.inbox ++ [message] }

/-- Queues a worker that compiles with the present override. -/
def refresh (explorer : Explorer) : Explorer :=
  { explorer.addRun with queue := explorer.queue ++ [explorer.override] }

/-- Shows the assembly of a run. -/
def showAssembly (explorer : Explorer) (asm : String) : Explorer :=
  { explorer with
    cancelRequested := false
    asm := { visible := true, text := asm }
    error := { explorer.error with visible := false } }

/-- Shows the error of a run. -/
def showError (explorer : Explorer) (error : String) : Explorer :=
  { explorer with
    asm := { explorer.asm with visible := false }
    error := { visible := true, text := error } }

/-- Handles a cancelled run. Runs that a newer one replaced end like this too, so it is announced
only if the user has asked for it. -/
def acceptCancellation (explorer : Explorer) (error : String) : Explorer :=
  if explorer.cancelRequested then { explorer with cancelRequested := false }.notify error
  else explorer

/-- Takes other arguments and compiles with them. -/
def changeCommand (explorer : Explorer) (arguments : List String) : Explorer :=
  let explorer := { explorer with override := arguments }
  if arguments.isEmpty then (explorer.notify "Using the compile_commands.json entry").refresh
  else explorer.refresh

/-- Handles a message. -/
def handle (explorer : Explorer) : Message → Explorer
  | .finished asm => explorer.dropRun.showAssembly asm
  | .failed error true => explorer.dropRun.acceptCancellation error
  | .failed error false => explorer.dropRun.showError error
  | .commandChanged arguments => explorer.changeCommand arguments

/-- Handles the waiting messages in order. -/
def handleAll (explorer : Explorer) : Explorer :=
  explorer.inbox.foldl handle { explorer with inbox := [] }

/-- Shows or hides the log. -/
def toggleLog (explorer : Explorer) : Explorer :=
  { explorer with logVisible := !explorer.logVisible }

/-- Writes output lines to the log, each cut at its own line ends. -/
def writeLog (explorer : Explorer) (lines : List String) : Explorer :=
  let pieces (line : String) : List String :=
    match Text.lines line with
    | [] => [""]
    | pieces => pieces
  { explorer with logLines := explorer.logLines ++ lines.flatMap pieces }

/-- Submits the line of the palette. -/
def submit (explorer : Explorer) : Explorer :=
  match explorer.palette.submit with
  | (palette, none) => { explorer with palette }
  | (palette, some arguments) => { explorer with palette }.post (.commandChanged arguments)

end Explorer

end AsmScope
