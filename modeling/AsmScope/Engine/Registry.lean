import AsmScope.Engine.State
/-! # The registry

At most one database is registered for a location. It is opened on first use, reloaded when its file
changes, and retired when the file is deleted; what cannot be loaded is not registered. A database
that has left the registry is no longer watched, its run is cancelled, and it never comes back: the
next use of the location opens a new one. -/

namespace AsmScope.Engine

variable {α : Type}

/-- The registered database of a location. -/
def registered? (engine : Engine α) (location : String) : Option DatabaseId :=
  engine.registered.get? (engine.host.absolute location)

/-- Cancels the run of a database and stops watching its file. -/
def disposeDatabase (engine : Engine α) (id : DatabaseId) : Engine α :=
  let engine := (engine.cancelCompilation id).2
  let engine := { engine with observers := engine.observers.erase (.database id) }
  engine.modifyDatabase id fun database => { database with watched := false }

/-- Takes a database out of the registry, if it is the registered one, and disposes of it. -/
def retire (engine : Engine α) (id : DatabaseId) : Engine α :=
  match engine.database? id with
  | none => engine
  | some database =>
    let engine :=
      if engine.registered.get? database.location = some id then
        { engine with registered := engine.registered.erase database.location }
      else engine
    engine.disposeDatabase id

/-- Empties the registry and disposes of every database that was in it. -/
def closeAll (engine : Engine α) : Engine α :=
  let ids := engine.registered.map Prod.snd
  ids.foldl disposeDatabase { engine with registered := [] }

/-- Loads the index of the file at a location. -/
def loadIndex (location : String) : Action α CommandIndex := do
  let engine ← get
  let (result, host) := CommandIndex.load engine.host location
  set { engine with host }
  match result with
  | .ok commands => return commands
  | .error error => throw (.load location error)

/-- The engine with one more database, whose number is the count of those before it. -/
def addDatabase (engine : Engine α) (database : Database) : Engine α :=
  { engine with databases := engine.databases ++ [database] }

/-- Adds a database outside the registry that cannot run anything. -/
def addBare (engine : Engine α) (location : String) (commands : CommandIndex) :
    DatabaseId × Engine α :=
  (engine.databases.length, engine.addDatabase { location, commands, attached := false })

/-- Starts watching the file of a database. -/
def watchDatabase (id : DatabaseId) (location : String) : Action α Unit := do
  let engine ← get
  match engine.observers.start? engine.host (.database id) location true (.binary (.zero false)) with
  | some observers =>
    set ({ engine with observers }.modifyDatabase id fun database =>
      { database with watched := true })
  | none => throw (.unwatchable location)

/-- The registered database of a location, opened if there is none. -/
def openOrGet (location : String) : Action α DatabaseId := do
  let engine ← get
  let location := engine.host.absolute location
  match engine.registered.get? location with
  | some id => return id
  | none =>
    modify fun engine => engine.appendLine ("Loading Compilation Database from: " ++ location)
    let commands ← loadIndex location
    let engine ← get
    let id := engine.databases.length
    set (engine.addDatabase { location, commands, attached := true })
    if engine.watching then watchDatabase id location
    modify fun engine => { engine with registered := engine.registered.put location id }
    return id

/-- Loads the commands of a database again. Where the file is missing or ill-formed, the commands
stay as they are and a warning says why. -/
def reload (id : DatabaseId) : Action α Unit := do
  let engine ← get
  match engine.database? id with
  | none => return
  | some database =>
    match ← observe (loadIndex database.location) with
    | .ok commands =>
      modify fun engine => engine.modifyDatabase id fun database => { database with commands }
    | .error failure =>
      if failure.isExpected then
        modify fun engine => engine.log .warning "database"
          ("Keeping previous compile commands, reload failed: " ++ failure.message)
      else throw failure

/-- A change of the file of a database. -/
def databaseChanged (id : DatabaseId) (path : String) : Action α Unit := do
  modify fun engine => engine.log .info "database" ("Compilation database changed: " ++ path)
  reload id

/-- A deletion of the file of a database. -/
def databaseDeleted (engine : Engine α) (id : DatabaseId) (path : String) : Engine α :=
  let engine := engine.log .info "database" ("Compilation database deleted: " ++ path)
  if (engine.database? id).any fun database => database.attached then engine.retire id
  else engine.disposeDatabase id

/-- What a signal to a listener does; `onSource` is what the front does about its source file. -/
def dispatch (onSource : Engine α → Engine α) (path : String) :
    Listener → Signal → Action α Unit
  | .database id, .changed => databaseChanged id path
  | .database id, .deleted => modify fun engine => engine.databaseDeleted id path
  | .source, .changed => modify onSource
  | .source, .deleted => return

/-- Shows an event to one observer, if it still runs. Observers run on their own: one that cannot
read a path of the event does nothing, and the others are shown it all the same. One that cannot
tell the time since its last report ends the delivery. -/
def notify (onSource : Engine α → Engine α) (event : FileEvent) (listener : Listener) :
    Action α Unit := do
  let engine ← get
  match engine.observers.get? listener with
  | none => return
  | some handler =>
    match handler.react engine.host event with
    | .error .undecodable => return
    | .error .beyondFormat => throw .beyondFormat
    | .ok (handler, signal) =>
      set { engine with observers := engine.observers.put listener handler }
      match signal with
      | some signal => dispatch onSource handler.target listener signal
      | none => return

/-- Shows an event to every running observer, in the order in which they were started. -/
def deliver (onSource : Engine α → Engine α) (event : FileEvent) : Action α Unit := do
  let engine ← get
  engine.observers.keys.forM (notify onSource event)

end AsmScope.Engine
