import AsmScope.Engine.Requests
import AsmScope.Scenario.LocateSteps
import AsmScope.Scenario.Interference
/-! # Scenarios of the engine

A sequence of requests to one engine, with scripts for what other threads do during its runs.
Databases are numbered for the reader in the order in which a step first hands one out, and tokens
are kept under names. Every step is reported with what it left behind: output lines, log lines, the
processes that it started, the results of the scripts that it played, and the state of every
numbered database. -/

namespace AsmScope.Scenario

/-- A request to the engine. `db` is the number under which a database was handed out; a negative
number counts from the last one. -/
inductive EngineStep
  | host (step : HostStep)
  | buildDirectory (source : String)
  | database (source : String)
  | compile (source : String) (override : Option (List String))
  | cancel (source : String)
  | shutdown
  | configure (key : String) (value : Json)
  | openDatabase (location : String)
  | registered (location : String)
  | contains (location : String)
  | locate (compiler : String)
  | bare (location : String) (load : Bool)
  | token (name : String)
  | lookup (db : Int) (path : String)
  | keys (db : Int)
  | run (db : Int) (source : String) (override : Option (List String))
  | reload (db : Int)
  | retire (db : Int)
  | changed (db : Int)
  | deleted (db : Int)
  | dispose (db : Int)
  | beginRun (db : Int) (name : String)
  | endRun (db : Int) (name : String)
  | cancelRun (db : Int)

/-- What a request answers. -/
inductive Answer
  | done
  | text (value : String)
  | flag (value : Bool)
  | number (value : Option Nat)
  | containment (registered : Bool) (count : Nat)
  | command (command : Option CompileCommand)
  | keys (keys : List String)
  | value (value : Json)

/-- What a scenario keeps beside the engine. -/
structure Ledger where
  /-- The scripts that have not been played. -/
  scripts : List (Script EngineStep) := []
  /-- The databases that were handed out, in order. -/
  numbered : List DatabaseId := []
  /-- The tokens that were kept under names. -/
  tokens : Table String TokenId := []
  /-- What script steps have answered since the last report. -/
  results : List (Except Failure Answer) := []
  /-- How many log lines were reported. -/
  logged : Nat := 0

/-- The engine of a scenario. -/
abbrev Stage : Type := Engine Ledger

/-- Hands a database out: its number for the reader. -/
def number (id : DatabaseId) : Action Ledger Nat := do
  let stage ← get
  match stage.front.numbered.idxOf? id with
  | some n => return n
  | none =>
    set { stage with front.numbered := stage.front.numbered ++ [id] }
    return stage.front.numbered.length

/-- Numbers the registered databases that were not handed out. -/
def numberRegistered (stage : Stage) : Stage :=
  let known := stage.registered.foldl
    (fun known entry => if entry.2 ∈ known then known else known ++ [entry.2])
    stage.front.numbered
  { stage with front.numbered := known }

/-- The position in a list of this length that a number means: a negative one counts from the
end. -/
def position (length : Nat) (number : Int) : Option Nat :=
  let index := if number < 0 then number + length else number
  if 0 ≤ index ∧ index < length then some index.toNat else none

/-- The database with this number, with what is known of it. -/
def numbered (db : Int) : Action Ledger (DatabaseId × Database) := do
  let stage ← get
  let ids := stage.front.numbered
  let some id := (position ids.length db).bind fun i => ids[i]? | throw (.unnumbered db)
  let some database := stage.database? id | throw (.unnumbered db)
  return (id, database)

/-- The token that was kept under a name. -/
def namedToken (name : String) : Action Ledger TokenId := do
  let some token := (← get).front.tokens.get? name | throw (.unknown name)
  return token

/-- Performs a request; `fire` is what other threads do during its runs. -/
def perform (fire : Interference Ledger) : EngineStep → Action Ledger Answer
  | .host step => do
    step.perform id
    return .done
  | .buildDirectory source => do
    let directory ← (← get).buildDirectory source
    return .text directory
  | .database source => do
    let id ← Engine.databaseFor source
    return .number (some (← number id))
  | .compile source override => do
    let asm ← Engine.compile fire source override
    return .text asm
  | .cancel source => do
    let found ← Engine.cancel source
    return .flag found
  | .shutdown => do
    modify Engine.closeAll
    return .done
  | .configure key value => do
    Engine.configure key value
    return .done
  | .openDatabase location => do
    let id ← Engine.openOrGet location
    return .number (some (← number id))
  | .registered location => do
    match (← get).registered? location with
    | some id => return .number (some (← number id))
    | none => return .number none
  | .contains location => do
    let stage ← get
    return .containment (stage.registered? location).isSome stage.registered.length
  | .locate compiler => do
    let name ← Engine.locateDemangler compiler
    return .value name
  | .bare location load => do
    let commands ← if load then Engine.loadIndex location else pure []
    let (id, stage) := (← get).addBare location commands
    set stage
    return .number (some (← number id))
  | .token name => do
    let token ← namedToken name
    return .flag ((← get).isCancelled token)
  | .lookup db path => do
    let (id, _) ← numbered db
    return .command ((← get).lookup id path)
  | .keys db => do
    let (_, database) ← numbered db
    return .keys database.commands.keys
  | .run db source override => do
    let (id, _) ← numbered db
    let asm ← Engine.compileWith fire id source override
    return .text asm
  | .reload db => do
    let (id, _) ← numbered db
    Engine.reload id
    return .done
  | .retire db => do
    let (id, _) ← numbered db
    modify fun stage => stage.retire id
    return .done
  | .changed db => do
    let (id, database) ← numbered db
    Engine.databaseChanged id database.location
    return .done
  | .deleted db => do
    let (id, database) ← numbered db
    modify fun stage => stage.databaseDeleted id database.location
    return .done
  | .dispose db => do
    let (id, _) ← numbered db
    modify fun stage => stage.disposeDatabase id
    return .done
  | .beginRun db name => do
    let (id, _) ← numbered db
    let (token, stage) := (← get).beginCompilation id
    set { stage with front.tokens := stage.front.tokens.put name token }
    return .done
  | .endRun db name => do
    let (id, _) ← numbered db
    let token ← namedToken name
    modify fun stage => stage.endCompilation id token
    return .done
  | .cancelRun db => do
    let (id, _) ← numbered db
    let (found, stage) := (← get).cancelCompilation id
    set stage
    return .flag found

/-- The first script for a moment, marked as played. -/
def takeScript (executable : String) (moment : Moment) (ledger : Ledger) :
    Option (List EngineStep × Ledger) :=
  (Script.take? executable moment ledger.scripts).map fun (steps, scripts) =>
    (steps, { ledger with scripts })

/-- Takes the steps of a script. A step that fails does not keep the next ones from being taken; the
answers are added to the results when all are done. -/
def playScript (fire : Interference Ledger) (steps : List EngineStep) (stage : Stage) : Stage :=
  let (results, stage) := (steps.mapM fun step => (perform fire step).run).run stage
  { stage with front.results := stage.front.results ++ results }

/-- What other threads do during the runs of a scenario. -/
def interference (depth : Nat) : Interference Ledger :=
  Script.interference takeScript playScript depth

/-- What is known of a numbered database. -/
structure DatabaseReport where
  /-- Where its file is. -/
  location : String
  /-- Whether it is the registered database of its location. -/
  registered : Bool
  /-- Whether a run is in progress. -/
  compiling : Bool
  /-- Whether its file is watched. -/
  watching : Bool
  /-- The number of its commands. -/
  entries : Nat

/-- What a step answered and left behind. -/
structure StepReport where
  /-- The answer. -/
  outcome : Except Failure Answer
  /-- The answers of the script steps played meanwhile. -/
  results : List (Except Failure Answer)
  /-- The output lines. -/
  lines : List String
  /-- Whether the output was asked to be shown. -/
  shown : Bool
  /-- The processes started meanwhile. -/
  processes : List Process
  /-- The log lines. -/
  log : List LogLine
  /-- The numbered databases. -/
  databases : List DatabaseReport

/-- What is known of the database with this number. -/
def reportDatabase (stage : Stage) (id : DatabaseId) : Option DatabaseReport :=
  (stage.database? id).map fun database =>
    { location := database.location
      registered := stage.registered.get? database.location = some id
      compiling := database.active.isSome
      watching := database.watched
      entries := database.commands.length }

/-- The lines of a sink, and whether they were asked to be shown. -/
def sinkContent : Sink → List String × Bool
  | .buffer lines => (lines.lines, lines.showRequested)
  | .journal shown => ([], shown)

/-- A sink from which everything was taken. -/
def emptiedSink : Sink → Sink
  | .buffer lines => .buffer lines.drain.2.takeShowRequest.2
  | .journal shown => .journal shown

/-- Takes one step and reports it. -/
def takeStep (step : EngineStep) (stage : Stage) : StepReport × Stage :=
  let processes := stage.host.processes.length
  let (outcome, stage) := (perform (interference stage.front.scripts.length) step).run.run stage
  let stage := numberRegistered stage
  let (lines, shown) := sinkContent stage.sink
  ({ outcome
     results := stage.front.results
     lines
     shown
     processes := stage.host.processes.drop processes
     log := stage.host.journal.drop stage.front.logged
     databases := stage.front.numbered.filterMap (reportDatabase stage) },
    { stage with
      sink := emptiedSink stage.sink
      front.results := []
      front.logged := stage.host.journal.length })

/-- Takes steps one after the other and reports each. -/
def takeSteps : List EngineStep → Stage → List StepReport
  | [], _ => []
  | step :: rest, stage =>
    let (report, stage) := takeStep step stage
    report :: takeSteps rest stage

/-- A whole scenario on a fresh engine, or why there is none. -/
def playEngine (host : Host) (workspace : String) (watching : Bool)
    (scripts : List (Script EngineStep)) (steps : List EngineStep) :
    Except SettingsError (List StepReport) :=
  (Engine.create host workspace (.buffer {}) watching { scripts }).1.map (takeSteps steps)

end AsmScope.Scenario
