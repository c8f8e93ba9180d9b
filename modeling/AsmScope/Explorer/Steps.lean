import AsmScope.Engine.Requests
import AsmScope.Explorer.State
/-! # What the explorer does

The steps of the explorer over its engine. A step that fails keeps its messages for the next one
that does not. Steps can be taken from inside a run, by scripts, and handle their own messages
then. -/

namespace AsmScope

/-- The explorer over its engine. -/
abbrev ExplorerStage : Type := Engine Explorer

namespace ExplorerStage

/-- Changes the explorer. -/
def modifyFront (f : Explorer → Explorer) (stage : ExplorerStage) : ExplorerStage :=
  { stage with front := f stage.front }

/-- What a saved source file leads to. -/
def sourceSaved (stage : ExplorerStage) : ExplorerStage := modifyFront Explorer.refresh stage

/-- Whether the settings ask for the source to be watched. -/
def watchesSource (stage : ExplorerStage) : Bool :=
  match stage.settings.get? "watch_source" with
  | some value => !value.isEmptyValue
  | none => true

/-- The least distance of two saves of the source that both lead to a run, in seconds. -/
def sourceDebounce : Number := .binary (.ofRat (1 / 2))

/-- Starts watching the source, if the settings ask for it, and compiles it. -/
def mount : Action Explorer Unit := do
  let stage ← get
  if watchesSource stage then
    match stage.observers.start? stage.host .source stage.front.source false sourceDebounce with
    | some observers => set { stage with observers }
    | none => throw (.unwatchable stage.front.source)
  modify (modifyFront Explorer.refresh)

/-- Stops watching the source and closes the engine. -/
def unmount (stage : ExplorerStage) : ExplorerStage :=
  { stage with observers := stage.observers.erase .source }.closeAll

/-- The message about the outcome of a run. -/
def outcomeMessage : Except Failure String → Option Message
  | .ok asm => some (.finished asm)
  | .error .cancelled => some (.failed "Compilation cancelled" true)
  | .error failure => if failure.isExpected then some (.failed failure.message false) else none

/-- Runs the oldest queued worker. -/
def work (fire : Interference Explorer) : Action Explorer Unit := do
  let stage ← get
  match stage.front.queue with
  | [] => return
  | override :: queue =>
    set (modifyFront (fun explorer => { explorer with queue }) stage)
    let outcome ← Engine.observe
      (Engine.compile fire stage.front.source (if override.isEmpty then none else some override))
    match outcomeMessage outcome, outcome with
    | some message, _ => modify (modifyFront fun explorer => explorer.post message)
    | none, .error failure => throw failure
    | none, .ok _ => return

/-- Cancels the run in progress, or says that there is none. -/
def cancel : Action Explorer Unit := do
  if ← Engine.cancel (← get).front.source then
    modify (modifyFront fun explorer => { explorer with cancelRequested := true })
  else modify (modifyFront fun explorer => explorer.notify "Nothing to cancel")

/-- The arguments of the build's own command for the source; none if it has no command. -/
def entryArguments : Action Explorer (List String) := do
  let source := (← get).front.source
  match ← Engine.observe (Engine.databaseFor source) with
  | .ok id =>
    return (((← get).lookup id source).map fun command => command.arguments).getD []
  | .error failure => if failure.isExpected then return [] else throw failure

/-- Opens the palette. -/
def toggleCommand : Action Explorer Unit := do
  let arguments ← entryArguments
  modify (modifyFront fun explorer =>
    { explorer with palette := explorer.palette.present arguments explorer.override })

/-- Takes the output lines to the log, which is shown if they ask for it. -/
def flush (stage : ExplorerStage) : ExplorerStage :=
  match stage.sink with
  | .journal _ => stage
  | .buffer lines =>
    let (taken, lines) := lines.drain
    let (requested, lines) := lines.takeShowRequest
    modifyFront
      (fun explorer =>
        { explorer.writeLog taken with logVisible := explorer.logVisible || requested })
      { stage with sink := .buffer lines }

/-- Changes the palette. -/
def modifyPalette (f : Palette → Palette) (stage : ExplorerStage) : ExplorerStage :=
  modifyFront (fun explorer => { explorer with palette := f explorer.palette }) stage

/-- Performs a step without handling messages; `fire` is what other threads do during its runs. -/
def perform (fire : Interference Explorer) : ExplorerStep → Action Explorer Unit
  | .host step => step.perform sourceSaved
  | .mount => mount
  | .unmount => modify unmount
  | .work => work fire
  | .refresh => modify (modifyFront Explorer.refresh)
  | .cancel => cancel
  | .toggleLog => modify (modifyFront Explorer.toggleLog)
  | .toggleCommand => toggleCommand
  | .flush => modify flush
  | .type line => modify (modifyPalette fun palette => palette.setLine line)
  | .submit => modify (modifyFront Explorer.submit)
  | .editEntry => modify (modifyPalette Palette.editEntry)
  | .escape => modify (modifyPalette Palette.close)
  | .message message => modify (modifyFront fun explorer => explorer.post message)

/-- Performs a step and, if it does not fail, handles the messages. -/
def take (fire : Interference Explorer) (step : ExplorerStep) : Action Explorer Unit := do
  perform fire step
  modify (modifyFront Explorer.handleAll)

/-- The first script for a moment, marked as played. -/
def takeScript (executable : String) (moment : Moment) (explorer : Explorer) :
    Option (List ExplorerStep × Explorer) :=
  (Script.take? executable moment explorer.scripts).map fun (steps, scripts) =>
    (steps, { explorer with scripts })

/-- Takes the steps of a script; one that fails does not keep the next ones from being taken. -/
def playScript (fire : Interference Explorer) (steps : List ExplorerStep) (stage : ExplorerStage) :
    ExplorerStage :=
  steps.foldl (fun stage step => ((take fire step).run.run stage).2) stage

/-- What other threads do during the runs of an explorer. -/
def interference (depth : Nat) : Interference Explorer :=
  Script.interference takeScript playScript depth

/-- An explorer for a source, with a workspace or else the directory of the source. -/
def create (host : Host) (source : String) (workspace : Option String) (override : List String)
    (scripts : List (Script ExplorerStep)) : Except SettingsError ExplorerStage × Host :=
  let source := host.absolute source
  let workspace := (workspace.filter fun folder => !folder.isEmpty).getD (Path.directoryOf source)
  Engine.create host workspace (.buffer {}) true { source, override, scripts }

/-- The title over the explorer of a source: the name of its assembly view. -/
def title (source : String) : String := Path.nameOf (Assembly.viewPath source)

end ExplorerStage

end AsmScope
