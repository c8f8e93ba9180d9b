import AsmScope.Cancellation
import AsmScope.Demangler
import AsmScope.Failure
import AsmScope.Output
import AsmScope.Watch
/-! # The state of the engine

All that requests read and change: the host, the databases and which of them are registered, the
cancellation tokens, the running observers, the output sink and the settings. Databases and tokens
are numbered in the order in which they are made and never go away, so a number always means the
same one; what changes is whether a database is registered and watched.

The field `front` belongs to whatever stands before the engine. The engine never looks at it. -/

namespace AsmScope

/-- The number of a database. -/
abbrev DatabaseId : Type := Nat

/-- The number of a cancellation token. -/
abbrev TokenId : Type := Nat

/-- What cancelling a run has to end: its compiler and its demangler. -/
structure RunProcesses where
  /-- The compiler. -/
  compiler : ProcessId
  /-- The demangler. -/
  demangler : ProcessId
  deriving DecidableEq, Repr

/-- The commands of one compile-commands file, and the run that is in progress for it. -/
structure Database where
  /-- Where the file is. -/
  location : String
  /-- The commands. -/
  commands : CommandIndex
  /-- Whether the database can run commands and belongs to the registry's care. -/
  attached : Bool
  /-- Whether the file is watched. -/
  watched : Bool := false
  /-- The token of the run in progress. -/
  active : Option TokenId := none
  deriving DecidableEq, Repr

/-- The directory of the file, against which entries are recorded. -/
def Database.buildDirectory (database : Database) : String := Path.directoryOf database.location

/-- Who listens for the events of a file. -/
inductive Listener
  /-- A database, for its own file. -/
  | database (id : DatabaseId)
  /-- The front, for the source file. -/
  | source
  deriving DecidableEq, Repr

/-- The engine, its host and what stands before it. -/
structure Engine (α : Type) where
  /-- The machine. -/
  host : Host
  /-- The workspace folder, in absolute form. -/
  workspace : String
  /-- The settings. -/
  settings : Settings
  /-- Where output lines go. -/
  sink : Sink
  /-- Finds demanglers. -/
  locator : Demangler.Locator
  /-- The environment of compilers besides the host's own, as the settings had it at the start. -/
  environment : Table String String
  /-- The rewrites of arguments, as the settings had them at the start. -/
  rewrites : Rewrites
  /-- Whether databases are watched. -/
  watching : Bool
  /-- Every database that was ever opened. -/
  databases : List Database := []
  /-- The registered databases by location, in order of opening. -/
  registered : Table String DatabaseId := []
  /-- Every token that was ever made. -/
  tokens : List (CancellationToken RunProcesses) := []
  /-- The running observers. -/
  observers : Observers Listener := []
  /-- What stands before the engine. -/
  front : α

/-- A request to the engine, which may fail; what it did until then stays done. -/
abbrev Action (α β : Type) : Type := ExceptT Failure (StateM (Engine α)) β

/-- The points of a run at which the rest of the program may act. -/
inductive Moment
  /-- The process has just been started. -/
  | spawned
  /-- The chunk with this number is about to be read. -/
  | beforeChunk (index : Nat)
  /-- The end of the output is about to be read. -/
  | beforeEnd
  /-- The chunk with this number is about to be written. -/
  | beforeWrite (index : Nat)
  /-- The input is about to be closed. -/
  | beforeClose
  /-- The process has ended and is being waited for. -/
  | waiting
  deriving DecidableEq, Repr

/-- What the rest of the program does at a point of a run of the executable with this name. -/
abbrev Interference (α : Type) : Type := String → Moment → Engine α → Engine α

namespace Engine

variable {α : Type}

/-- The outcome of an action as a value. -/
def observe {β : Type} (action : Action α β) : Action α (Except Failure β) :=
  ExceptT.mk do return .ok (← action.run)

/-- Runs an action and then, whatever its outcome, another change of state. -/
def ensuring {β : Type} (action : Action α β) (cleanup : StateM (Engine α) Unit) : Action α β :=
  ExceptT.mk do
    let result ← action.run
    cleanup
    return result

/-- The database with this number. -/
def database? (engine : Engine α) (id : DatabaseId) : Option Database := engine.databases[id]?

/-- Changes the database with this number. -/
def modifyDatabase (engine : Engine α) (id : DatabaseId) (f : Database → Database) : Engine α :=
  { engine with databases := engine.databases.modify id f }

/-- Whether the token with this number was cancelled. -/
def isCancelled (engine : Engine α) (id : TokenId) : Bool :=
  (engine.tokens[id]?).any fun token => token.cancelled

/-- The engine with one more log line. -/
def log (engine : Engine α) (level : LogLevel) (topic message : String) : Engine α :=
  { engine with host := engine.host.log level topic message }

/-- Writes a line to the sink. -/
def appendLine (engine : Engine α) (line : String) : Engine α :=
  let (sink, host) := engine.sink.append line engine.host
  { engine with sink, host }

/-- Asks for the output lines to be shown. -/
def showOutput (engine : Engine α) : Engine α := { engine with sink := engine.sink.requestShow }

/-- Ends both processes of a run. -/
def killRun (host : Host) (run : RunProcesses) : Host := (host.kill run.compiler).kill run.demangler

/-! ### Tokens -/

/-- Cancels a token, which ends the processes that are registered with it. -/
def cancelToken (engine : Engine α) (id : TokenId) : Engine α :=
  match engine.tokens[id]? with
  | none => engine
  | some token =>
    let (token, runs) := token.cancel
    { engine with tokens := engine.tokens.set id token, host := runs.foldl killRun engine.host }

/-- Registers the processes of a run with a token; if it is cancelled already they are ended. -/
def registerRun (engine : Engine α) (id : TokenId) (run : RunProcesses) : Engine α :=
  match engine.tokens[id]? with
  | none => engine
  | some token =>
    let (token, now) := token.register run
    { engine with
      tokens := engine.tokens.set id token
      host := if now then killRun engine.host run else engine.host }

/-- Takes the registration of a run back. -/
def unregisterRun (engine : Engine α) (id : TokenId) (run : RunProcesses) : Engine α :=
  { engine with tokens := engine.tokens.modify id fun token => token.unregister run }

/-- Makes a token the one of the run in progress; the run before it is cancelled. -/
def beginCompilation (engine : Engine α) (id : DatabaseId) : TokenId × Engine α :=
  let token := engine.tokens.length
  let previous := (engine.database? id).bind fun database => database.active
  let engine := { engine with tokens := engine.tokens ++ [CancellationToken.fresh] }
  let engine := engine.modifyDatabase id fun database => { database with active := some token }
  match previous with
  | some previous => (token, engine.cancelToken previous)
  | none => (token, engine)

/-- Ends the run with this token; a newer run that is in progress stays. -/
def endCompilation (engine : Engine α) (id : DatabaseId) (token : TokenId) : Engine α :=
  let engine := engine.modifyDatabase id fun database =>
    if database.active = some token then { database with active := none } else database
  { engine with tokens := engine.tokens.modify token CancellationToken.dispose }

/-- Cancels the run in progress; says whether there was one. -/
def cancelCompilation (engine : Engine α) (id : DatabaseId) : Bool × Engine α :=
  match (engine.database? id).bind fun database => database.active with
  | some token => (true, engine.cancelToken token)
  | none => (false, engine)

end Engine

end AsmScope
