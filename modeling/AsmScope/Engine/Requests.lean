import AsmScope.Engine.Registry
import AsmScope.Engine.Run
import AsmScope.Settings.Variables
/-! # Requests about a source file

What a front asks the engine for. The settings say in which directory the compile-commands file of a
source is; its database is opened on first use, and the request goes to it. -/

namespace AsmScope.Engine

variable {α : Type}

/-- The name of a compile-commands file. -/
def indexName : String := "compile_commands.json"

/-- An engine for a workspace with the settings of the user, if they can be used. -/
def create (host : Host) (workspace : String) (sink : Sink) (watching : Bool) (front : α) :
    Except SettingsError (Engine α) × Host :=
  match Settings.load host none with
  | (.error error, host) => (.error error, host)
  | (.ok settings, host) =>
    match settings.environment, settings.rewrites with
    | .error error, _ => (.error error, host)
    | _, .error error => (.error error, host)
    | .ok environment, .ok rewrites =>
      (.ok
        { host
          workspace := host.absolute workspace
          settings
          sink
          locator := { name := (settings.get? "demangler").getD (.text "c++filt") }
          environment
          rewrites := Table.ofEntries rewrites
          watching
          front }, host)

/-- The directory of the compile-commands file of a source. -/
def buildDirectory (engine : Engine α) (source : String) : Except Failure String :=
  let expand (template : String) : String :=
    Variables.resolvePath engine.host template source engine.workspace
  match engine.settings.get? "compilation_directory" with
  | none => .ok (expand "$\x7bworkspaceFolder\x7d")
  | some (.text template) => .ok (expand template)
  | some _ => .error .settingNotText

/-- Where the compile-commands file of a source is. -/
def indexLocation (engine : Engine α) (source : String) : Except Failure String :=
  (engine.buildDirectory source).map fun directory => Path.join directory indexName

/-- The database of a source. -/
def databaseFor (source : String) : Action α DatabaseId := do
  openOrGet (← (← get).indexLocation source)

/-- Runs the command of a database, if the database can run commands. -/
def compileWith (fire : Interference α) (id : DatabaseId) (source : String)
    (override : Option (List String)) : Action α String := do
  if ((← get).database? id).any fun database => database.attached then run fire id source override
  else throw .unattached

/-- Compiles a source: its assembly text. -/
def compile (fire : Interference α) (source : String) (override : Option (List String)) :
    Action α String := do
  let id ← databaseFor source
  modify fun engine => engine.log .info "engine" ("Compiling " ++ source)
  compileWith fire id source override

/-- Cancels the run in progress for the database of a source; says whether there was one. -/
def cancel (source : String) : Action α Bool := do
  let location ← (← get).indexLocation source
  match (← get).registered? location with
  | none => return false
  | some id =>
    let (found, engine) := (← get).cancelCompilation id
    set engine
    return found

/-- Changes a setting and writes the settings file. What was taken from the settings at the start
stays as it was. -/
def configure (key : String) (value : Json) : Action α Unit := do
  let engine ← get
  let (result, settings, host) := engine.settings.set engine.host key value
  set { engine with settings, host }
  match result with
  | .ok () => return
  | .error error => throw (.settings error)

end AsmScope.Engine
