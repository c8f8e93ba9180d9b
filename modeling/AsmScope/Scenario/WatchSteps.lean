import AsmScope.Scenario.LocateSteps
/-! # Scenarios of file watching

Handlers on observers that run already, watchers that are made, started and stopped under a name,
and the events that they are shown. Every observer has a number, in the order of making. A name
means the watcher that was made last under it, even if that one could not be started. -/

namespace AsmScope.Scenario

/-- A step with watchers. -/
inductive WatchStep
  | host (step : HostStep)
  /-- A handler on a running observer. -/
  | handler (target : String) (reportsDeletion : Bool) (debounce : Number)
  /-- A watcher under a name, which is started. -/
  | watch (name target : String) (reportsDeletion : Bool) (debounce : Number)
  /-- Stops the watcher under a name. -/
  | stop (name : String)
  deriving Repr

/-- The observers, and the names of those that were started as watchers. -/
structure WatchBoard where
  /-- The machine. -/
  host : Host
  /-- The running observers. -/
  observers : Observers Nat := []
  /-- How many observers were made. -/
  count : Nat := 0
  /-- The number of the observer that has a name now. -/
  names : Table String Nat := []

/-- A report of a handler about its file. -/
structure WatchCall where
  /-- What is reported. -/
  signal : Signal
  /-- The watched file. -/
  target : String
  deriving DecidableEq, Repr

namespace WatchBoard

/-- Shows an event to observers in turn, up to one that cannot tell the time since its last report:
the outcome, what they report, and the observers afterwards. An observer that fails on a path that
is no text stays as it is and reports nothing. -/
def deliver (host : Host) (event : FileEvent) :
    Observers Nat → Except Failure Unit × List WatchCall × Observers Nat
  | [] => (.ok (), [], [])
  | (number, handler) :: rest =>
    match handler.react host event with
    | .error .undecodable =>
      let (outcome, calls, rest) := deliver host event rest
      (outcome, calls, (number, handler) :: rest)
    | .error .beyondFormat => (.error .beyondFormat, [], (number, handler) :: rest)
    | .ok (handler, signal) =>
      let (outcome, calls, rest) := deliver host event rest
      let call : List WatchCall := signal.toList.map fun signal => ⟨signal, handler.target⟩
      (outcome, call ++ calls, (number, handler) :: rest)

/-- Performs a step: its outcome, what was reported, and the observers afterwards. -/
def perform (board : WatchBoard) : WatchStep → Except Failure Unit × List WatchCall × WatchBoard
  | .host (.event happened) =>
    let (outcome, calls, observers) := deliver board.host happened board.observers
    (outcome, calls, { board with observers })
  | .host step => (.ok (), [], { board with host := step.apply board.host })
  | .handler target reportsDeletion debounce =>
    let handler := Handler.forFile board.host target reportsDeletion debounce
    (.ok (), [],
      { board with
        observers := board.observers.put board.count handler
        count := board.count + 1 })
  | .watch name target reportsDeletion debounce =>
    let number := board.count
    let named := { board with count := number + 1, names := board.names.put name number }
    match board.observers.start? board.host number target reportsDeletion debounce with
    | none => (.error (.unwatchable target), [], named)
    | some observers => (.ok (), [], { named with observers })
  | .stop name =>
    match board.names.get? name with
    | none => (.ok (), [], board)
    | some number => (.ok (), [], { board with observers := board.observers.erase number })

end WatchBoard

/-- Performs steps one after the other: for each, its outcome and what was reported. -/
def takeWatchSteps : List WatchStep → WatchBoard → List (Except Failure Unit × List WatchCall)
  | [], _ => []
  | step :: rest, board =>
    let (outcome, calls, board) := board.perform step
    (outcome, calls) :: takeWatchSteps rest board

end AsmScope.Scenario
