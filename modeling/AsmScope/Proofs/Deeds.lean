import AsmScope.Engine.Requests
import AsmScope.Proofs.Actions
import AsmScope.Proofs.Handlers
import AsmScope.Proofs.Paths
/-! # Requests as chains of deeds

Apart from the runs that it starts, a request does only a few kinds of things. `Deed` lists them,
each with what is known when it is done: a database enters the registry under a free location with
the commands that its file holds, the commands of a database are read from its file again, an
observer remembers a change, a database is cancelled, retired or disposed of, or the registry is
emptied. Everything else is output (`Aside`), or changes the machine (`Outside`).

A reflexive and transitive relation that contains the deeds is respected by every request, and the
deeds that follow from a signal to a database are about this database only. -/

namespace AsmScope

namespace Engine

variable {α β : Type}

/-- The same but for what was written and logged, the locator and the settings. -/
structure Aside (before after : Engine α) : Prop where
  tree : after.host.tree = before.host.tree
  directory : after.host.directory = before.host.directory
  now : after.host.now = before.host.now
  programs : after.host.programs = before.host.programs
  processes : after.host.processes = before.host.processes
  tokens : after.tokens = before.tokens
  databases : after.databases = before.databases
  registered : after.registered = before.registered
  observers : after.observers = before.observers
  watching : after.watching = before.watching
  front : after.front = before.front

instance : IsPreorder (Engine α) Aside where
  refl _ := ⟨rfl, rfl, rfl, rfl, rfl, rfl, rfl, rfl, rfl, rfl, rfl⟩
  trans _ _ _ hab hbc :=
    ⟨hbc.tree.trans hab.tree, hbc.directory.trans hab.directory, hbc.now.trans hab.now,
      hbc.programs.trans hab.programs, hbc.processes.trans hab.processes,
      hbc.tokens.trans hab.tokens, hbc.databases.trans hab.databases,
      hbc.registered.trans hab.registered, hbc.observers.trans hab.observers,
      hbc.watching.trans hab.watching, hbc.front.trans hab.front⟩

/-- The same but for files, the clock and the working directory, which stays absolute, and for
settings. -/
structure Outside (before after : Engine α) : Prop where
  rooted : Path.isAbsolute before.host.directory → Path.isAbsolute after.host.directory
  programs : after.host.programs = before.host.programs
  processes : after.host.processes = before.host.processes
  tokens : after.tokens = before.tokens
  databases : after.databases = before.databases
  registered : after.registered = before.registered
  observers : after.observers = before.observers
  watching : after.watching = before.watching
  front : after.front = before.front

/-- The engine with a database for a path in the registry, which watches its file if databases are
watched. -/
def enter (engine : Engine α) (path : String) (commands : CommandIndex) : Engine α :=
  { engine with
    databases := engine.databases ++
      [{ location := path, commands, attached := true, watched := engine.watching }]
    observers :=
      if engine.watching then
        engine.observers.put (.database engine.databases.length)
          (Handler.forFile engine.host path true (.binary (.zero false)))
      else engine.observers
    registered := engine.registered.put path engine.databases.length }

/-- What a request does to an engine, one thing at a time; `who` says to which databases. -/
inductive Deed (who : DatabaseId → Prop) : Engine α → Engine α → Prop
  /-- Something is written or logged. -/
  | aside {before after : Engine α} (same : before.Aside after) : Deed who before after
  /-- A database is made that nobody registers. -/
  | added {engine : Engine α} (location : String) (commands : CommandIndex) (attached : Bool) :
      Deed who engine (engine.addDatabase { location, commands, attached })
  /-- A database enters the registry. -/
  | entered {engine : Engine α} (location : String) (commands : CommandIndex)
      (new : engine.registered.get? (engine.host.absolute location) = none)
      (loaded : CommandIndex.ofFile engine.host (engine.host.absolute location) = .ok commands) :
      Deed who engine (engine.enter (engine.host.absolute location) commands)
  /-- The commands of a database are read from its file. -/
  | reloaded {engine : Engine α} {id : DatabaseId} {database : Database} (mine : who id)
      (commands : CommandIndex) (found : engine.database? id = some database)
      (loaded : CommandIndex.ofFile engine.host database.location = .ok commands) :
      Deed who engine (engine.modifyDatabase id fun database => { database with commands })
  /-- An observer remembers when it has reported a change. -/
  | noted {engine : Engine α} {listener : Listener} {handler : Handler}
      (mine : ∀ id, listener = .database id → who id)
      (found : engine.observers.get? listener = some handler) :
      Deed who engine { engine with
        observers := engine.observers.put listener
          { handler with lastTriggered := engine.host.now } }
  /-- The run in progress of a database is cancelled. -/
  | cancelled {engine : Engine α} {id : DatabaseId} (mine : who id) :
      Deed who engine (engine.cancelCompilation id).2
  /-- A database is retired. -/
  | retired {engine : Engine α} {id : DatabaseId} (mine : who id) :
      Deed who engine (engine.retire id)
  /-- A database that is not in the registry's care is disposed of. -/
  | disposed {engine : Engine α} {id : DatabaseId} (mine : who id)
      (bare : ((engine.database? id).any fun database => database.attached) = false) :
      Deed who engine (engine.disposeDatabase id)
  /-- The registry is emptied. -/
  | closed {engine : Engine α} (all : ∀ id, who id) : Deed who engine engine.closeAll

/-! ### Output -/

/-- Doing nothing is done aside. -/
theorem aside_refl (engine : Engine α) : Aside engine engine := Std.Refl.refl engine

/-- Writing a log line is done aside. -/
theorem aside_log (engine : Engine α) (level : LogLevel) (topic message : String) :
    Aside engine (engine.log level topic message) :=
  ⟨rfl, rfl, rfl, rfl, rfl, rfl, rfl, rfl, rfl, rfl, rfl⟩

/-- Writing a line of output is done aside. -/
theorem aside_appendLine (engine : Engine α) (line : String) :
    Aside engine (engine.appendLine line) := by
  unfold appendLine
  cases engine.sink <;> exact ⟨rfl, rfl, rfl, rfl, rfl, rfl, rfl, rfl, rfl, rfl, rfl⟩

/-- Asking for the output to be shown is done aside. -/
theorem aside_showOutput (engine : Engine α) : Aside engine engine.showOutput :=
  ⟨rfl, rfl, rfl, rfl, rfl, rfl, rfl, rfl, rfl, rfl, rfl⟩

/-- Looking for a demangler is done aside. -/
theorem aside_locateDemangler (compiler : String) :
    Respects Aside (locateDemangler compiler : Action α Json) := by
  intro engine
  simp only [locateDemangler, after_get_bind, after_set_bind]
  split <;> exact ⟨rfl, rfl, rfl, rfl, rfl, rfl, rfl, rfl, rfl, rfl, rfl⟩

/-- What a file holds is the same before and after some output. -/
theorem Aside.ofFile_eq {before after : Engine α} (same : Aside before after) (location : String) :
    CommandIndex.ofFile after.host location = CommandIndex.ofFile before.host location := by
  simp only [CommandIndex.ofFile, same.tree, same.directory]

/-- What is done aside does not change what a path means. -/
theorem Aside.absolute_eq {before after : Engine α} (same : Aside before after) (path : String) :
    after.host.absolute path = before.host.absolute path := by
  simp only [Host.absolute, same.directory]

/-! ### Loading an index -/

/-- Loading an index is done aside. -/
theorem aside_loadIndex (location : String) :
    Respects Aside (loadIndex location : Action α CommandIndex) := by
  intro engine
  simp only [loadIndex, after_get_bind, after_set_bind, CommandIndex.load]
  split <;> exact ⟨rfl, rfl, rfl, rfl, rfl, rfl, rfl, rfl, rfl, rfl, rfl⟩

/-- Log lines have no influence on what is loaded. -/
theorem load_fst (host : Host) (location : String) :
    (CommandIndex.load host location).1 = CommandIndex.ofFile host location := by
  simp only [CommandIndex.load]
  split
  · next error failed => exact failed.symm
  · next commands loaded => exact loaded.symm

/-- Loading gives what the file holds. -/
theorem result_loadIndex (engine : Engine α) (location : String) :
    engine.result (loadIndex location) =
      match CommandIndex.ofFile engine.host location with
      | .ok commands => .ok commands
      | .error error => .error (.load location error) := by
  simp only [loadIndex, result_get_bind, result_set_bind, load_fst]
  cases CommandIndex.ofFile engine.host location <;> rfl

/-! ### Leaving the registry -/

section Leaving

variable {R : Engine α → Engine α → Prop} [IsPreorder (Engine α) R]

/-- Databases are disposed of one after the other. -/
theorem relates_foldl_dispose (disposes : ∀ engine id, R engine (engine.disposeDatabase id))
    (ids : List DatabaseId) (engine : Engine α) : R engine (ids.foldl disposeDatabase engine) := by
  induction ids generalizing engine with
  | nil => exact Std.Refl.refl engine
  | cons id ids ih => exact IsTrans.trans _ _ _ (disposes engine id) (ih _)

variable (unregisters : ∀ (engine : Engine α) (registered : Table String DatabaseId),
  R engine { engine with registered })
include unregisters

/-- A database is taken out of the registry, if it is there, and then disposed of. -/
theorem relates_retire {id : DatabaseId} (disposes : ∀ engine, R engine (engine.disposeDatabase id))
    (engine : Engine α) : R engine (engine.retire id) := by
  unfold retire
  cases engine.database? id with
  | none => exact Std.Refl.refl engine
  | some database =>
    dsimp only
    split
    · exact IsTrans.trans _ _ _ (unregisters engine _) (disposes _)
    · exact disposes engine

/-- The registry is emptied, and then its databases are disposed of. -/
theorem relates_closeAll (disposes : ∀ engine id, R engine (engine.disposeDatabase id))
    (engine : Engine α) : R engine engine.closeAll :=
  IsTrans.trans _ _ _ (unregisters engine []) (relates_foldl_dispose disposes _ _)

end Leaving

/-! ### Opening a database -/

/-- Changing a database that was just added is adding it in its changed form. -/
theorem modify_concat (databases : List Database) (database : Database) (f : Database → Database) :
    (databases ++ [database]).modify databases.length f = databases ++ [f database] := by
  induction databases with
  | nil => rfl
  | cons first databases ih => simp [ih]

/-- What an opening of a path answers and leaves behind. -/
inductive Opening (engine : Engine α) (path : String) :
    Except Failure DatabaseId → Engine α → Prop
  /-- The path is registered. -/
  | found {id : DatabaseId} (here : engine.registered.get? path = some id) :
      Opening engine path (.ok id) engine
  /-- The file cannot be loaded. -/
  | notLoaded {later : Engine α} {error : LoadError} (same : Aside engine later)
      (failed : CommandIndex.ofFile engine.host path = .error error) :
      Opening engine path (.error (.load path error)) later
  /-- The file cannot be watched. -/
  | notWatched {later : Engine α} {commands : CommandIndex} (same : Aside engine later)
      (loaded : CommandIndex.ofFile engine.host path = .ok commands) :
      Opening engine path (.error (.unwatchable path))
        (later.addDatabase { location := path, commands, attached := true })
  /-- The database is entered. -/
  | entered {later : Engine α} {commands : CommandIndex} (same : Aside engine later)
      (new : engine.registered.get? path = none)
      (loaded : CommandIndex.ofFile engine.host path = .ok commands) :
      Opening engine path (.ok engine.databases.length) (later.enter path commands)

/-- Opening a path answers and leaves behind what belongs to one of the ways in which it can go. -/
theorem opening_openOrGet (engine : Engine α) (location : String) :
    Opening engine (engine.host.absolute location) (engine.result (openOrGet location))
      (engine.after (openOrGet location)) := by
  simp only [openOrGet, result_get_bind, after_get_bind]
  generalize engine.host.absolute location = path
  cases hfound : engine.registered.get? path with
  | some id => exact .found hfound
  | none =>
    simp only [result_modify_bind, after_modify_bind]
    have hline := aside_appendLine engine ("Loading Compilation Database from: " ++ path)
    generalize engine.appendLine ("Loading Compilation Database from: " ++ path) = announced
      at hline ⊢
    -- the file is read as the engine found it
    have hresult := result_loadIndex announced path
    have hloaded := aside_loadIndex path announced
    rw [hline.ofFile_eq] at hresult
    rw [result_bind, after_bind]
    generalize announced.after (loadIndex path) = later at hloaded ⊢
    have hsame : Aside engine later := IsTrans.trans _ _ _ hline hloaded
    cases hfile : CommandIndex.ofFile engine.host path with
    | error error =>
      rw [hfile] at hresult
      rw [hresult]
      exact .notLoaded hsame hfile
    | ok commands =>
      rw [hfile] at hresult
      rw [hresult]
      simp only [result_get_bind, after_get_bind, result_set_bind, after_set_bind]
      have hid : later.databases.length = engine.databases.length := by rw [hsame.databases]
      cases hwatching : later.watching with
      | false =>
        have hentered : later.enter path commands =
            { later.addDatabase { location := path, commands, attached := true } with
              registered := later.registered.put path later.databases.length } := by
          simp [enter, addDatabase, hwatching]
        have h := Opening.entered hsame hfound hfile
        rw [hentered, ← hid] at h
        exact h
      | true =>
        simp only [if_true, watchDatabase, bind_assoc, result_get_bind, after_get_bind]
        cases hexists : later.host.pathExists (later.host.canonical path) with
        | false =>
          simp only [Observers.start?, addDatabase, hexists]
          exact .notWatched hsame hfile
        | true =>
          have hentered : later.enter path commands =
              { ({ later.addDatabase { location := path, commands, attached := true } with
                observers := later.observers.put (.database later.databases.length)
                  (Handler.forFile later.host path true (.binary (.zero false))) }).modifyDatabase
                    later.databases.length fun database => { database with watched := true } with
                registered := later.registered.put path later.databases.length } := by
            simp [enter, addDatabase, modifyDatabase, modify_concat, hwatching]
          have h := Opening.entered hsame hfound hfile
          rw [hentered, ← hid] at h
          simp only [Observers.start?, addDatabase, hexists]
          exact h

/-! ### Loading the commands again -/

/-- What loading the commands of a database again answers and leaves behind. -/
inductive Reloading (engine : Engine α) (id : DatabaseId) : Except Failure Unit → Engine α → Prop
  /-- There is no such database. -/
  | absent (missing : engine.database? id = none) : Reloading engine id (.ok ()) engine
  /-- The commands are replaced. -/
  | loaded {later : Engine α} {database : Database} {commands : CommandIndex}
      (found : engine.database? id = some database) (same : Aside engine later)
      (loaded : CommandIndex.ofFile engine.host database.location = .ok commands) :
      Reloading engine id (.ok ())
        (later.modifyDatabase id fun database => { database with commands })
  /-- The commands stay. -/
  | kept {later : Engine α} {database : Database} {error : LoadError}
      {outcome : Except Failure Unit} (found : engine.database? id = some database)
      (same : Aside engine later)
      (failed : CommandIndex.ofFile engine.host database.location = .error error) :
      Reloading engine id outcome later

/-- Loading the commands of a database again answers and leaves behind what belongs to one of the
ways in which it can go. -/
theorem reloading_reload (engine : Engine α) (id : DatabaseId) :
    Reloading engine id (engine.result (reload id)) (engine.after (reload id)) := by
  simp only [reload, result_get_bind, after_get_bind]
  cases hfound : engine.database? id with
  | none => exact .absent hfound
  | some database =>
    have hresult := result_loadIndex engine database.location
    have hloaded := aside_loadIndex database.location engine
    dsimp only
    rw [result_bind, after_bind, result_observe, after_observe]
    dsimp only
    generalize engine.after (loadIndex database.location) = later at hloaded ⊢
    cases hfile : CommandIndex.ofFile engine.host database.location with
    | ok commands =>
      rw [hfile] at hresult
      rw [hresult]
      exact .loaded hfound hloaded hfile
    | error error =>
      rw [hfile] at hresult
      rw [hresult]
      dsimp only
      -- a warning is logged, or the failure goes on
      split
      · exact .kept hfound (IsTrans.trans _ _ _ hloaded (aside_log _ _ _ _)) hfile
      · exact .kept hfound hloaded hfile

/-! ### Requests -/

section Respects

variable {R : Engine α → Engine α → Prop} [IsPreorder (Engine α) R] {who : DatabaseId → Prop}
variable (deeds : ∀ before after : Engine α, Deed who before after → R before after)
include deeds

/-- Output may come before anything else. -/
theorem respects_of_aside {first second third : Engine α} (same : first.Aside second)
    (rest : R second third) : R first third :=
  IsTrans.trans _ _ _ (deeds _ _ (.aside same)) rest

omit [IsPreorder (Engine α) R] in
/-- Looking for a demangler respects every relation that holds of deeds. -/
theorem respects_locateDemangler (compiler : String) :
    Respects R (locateDemangler compiler : Action α Json) :=
  fun engine => deeds _ _ (.aside (aside_locateDemangler compiler engine))

omit [IsPreorder (Engine α) R] in
/-- Loading an index respects every relation that holds of deeds. -/
theorem respects_loadIndex (location : String) :
    Respects R (loadIndex location : Action α CommandIndex) :=
  fun engine => deeds _ _ (.aside (aside_loadIndex location engine))

/-- Opening a path respects a relation of deeds: it is output with at most one deed, which adds a
database. -/
theorem respects_openOrGet (location : String) :
    Respects R (openOrGet location : Action α DatabaseId) := by
  intro engine
  have hopening := opening_openOrGet engine location
  generalize engine.result (openOrGet location) = result at hopening
  generalize engine.after (openOrGet location) = later at hopening ⊢
  cases hopening with
  | found => exact Std.Refl.refl _
  | notLoaded same => exact deeds _ _ (.aside same)
  | notWatched same => exact respects_of_aside deeds same (deeds _ _ (.added _ _ _))
  | entered same new loaded =>
    -- what was read before the output is what the file still holds
    refine respects_of_aside deeds same (deeds _ _ ?_)
    rw [← same.absolute_eq] at new loaded ⊢
    rw [← same.ofFile_eq] at loaded
    rw [← same.registered] at new
    exact .entered location _ new loaded

/-- Loading the commands of a database again is output with at most one deed, which is about this
database. -/
theorem respects_reload {id : DatabaseId} (mine : who id) :
    Respects R (reload id : Action α Unit) := by
  intro engine
  have hreloading := reloading_reload engine id
  generalize engine.result (reload id) = result at hreloading
  generalize engine.after (reload id) = later at hreloading ⊢
  cases hreloading with
  | absent => exact Std.Refl.refl _
  | loaded found same loaded =>
    rw [← same.ofFile_eq] at loaded
    rw [database?, ← same.databases] at found
    exact respects_of_aside deeds same (deeds _ _ (.reloaded mine _ found loaded))
  | kept found same failed => exact deeds _ _ (.aside same)

/-- What follows from a change of the file of a database is output with at most one deed about
it. -/
theorem respects_databaseChanged {id : DatabaseId} (mine : who id) (path : String) :
    Respects R (databaseChanged id path : Action α Unit) :=
  .bind (.modify_of fun engine => deeds _ _ (.aside (aside_log engine _ _ _))) fun _ =>
    respects_reload deeds mine

/-- What follows from the deletion of its file is a deed about this database as well. -/
theorem respects_databaseDeleted (engine : Engine α) {id : DatabaseId} (mine : who id)
    (path : String) : R engine (engine.databaseDeleted id path) := by
  have hlog := aside_log engine .info "database" ("Compilation database deleted: " ++ path)
  simp only [databaseDeleted]
  refine respects_of_aside deeds hlog ?_
  split
  · exact deeds _ _ (.retired mine)
  · next hbare => exact deeds _ _ (.disposed mine (Bool.eq_false_iff.2 hbare))

/-- What a signal to a listener leads to is about its database, or about the source. -/
theorem respects_dispatch {onSource : Engine α → Engine α}
    (hsource : ∀ engine, R engine (onSource engine)) (path : String) {listener : Listener}
    (mine : ∀ id, listener = .database id → who id) (signal : Signal) :
    Respects R (dispatch onSource path listener signal) := by
  cases listener with
  | database id =>
    cases signal with
    | changed => exact respects_databaseChanged deeds (mine id rfl) path
    | deleted =>
      exact .modify_of fun engine => respects_databaseDeleted deeds engine (mine id rfl) path
  | source =>
    cases signal with
    | changed => exact .modify_of hsource
    | deleted => exact .pure_of _

/-- **What follows from an event that one observer is shown** is about its database. -/
theorem respects_notify {onSource : Engine α → Engine α}
    (hsource : ∀ engine, R engine (onSource engine)) (event : FileEvent) {listener : Listener}
    (mine : ∀ id, listener = .database id → who id) :
    Respects R (notify onSource event listener) := by
  intro engine
  simp only [notify, after_get_bind]
  cases hhandler : engine.observers.get? listener with
  | none => exact Std.Refl.refl _
  | some handler =>
    dsimp only
    cases hreact : handler.react engine.host event with
    | error error => cases error <;> exact Std.Refl.refl _
    | ok answer =>
      obtain ⟨next, signal⟩ := answer
      simp only [after_set_bind]
      -- the handler at most remembers a time, which is the deed of noting it
      have hnoted : R engine { engine with observers := engine.observers.put listener next } := by
        rcases Handler.react_cases hreact with ⟨rfl, -⟩ | ⟨rfl, -⟩
        · rw [Table.put_of_get? hhandler]
          exact Std.Refl.refl _
        · exact deeds _ _ (.noted mine hhandler)
      cases signal with
      | none => exact hnoted
      | some signal => exact IsTrans.trans _ _ _ hnoted (respects_dispatch deeds hsource _ mine _ _)

section All

variable (all : ∀ id, who id)
include all

/-- An event that all observers are shown respects a relation of deeds. -/
theorem respects_deliver {onSource : Engine α → Engine α}
    (hsource : ∀ engine, R engine (onSource engine)) (event : FileEvent) :
    Respects R (deliver onSource event) := by
  intro engine
  simp only [deliver, after_get_bind]
  exact Respects.forM_of (fun _ _ => respects_notify deeds hsource event fun id _ => all id) engine

/-- Cancelling the run of a source is one deed at most. -/
theorem respects_cancel (source : String) : Respects R (cancel source : Action α Bool) := by
  intro engine
  simp only [cancel, after_get_bind]
  refine Respects.bind (.of_after_eq fun e => ?_) (fun location => ?_) engine
  · cases engine.indexLocation source <;> rfl
  · intro found
    simp only [after_get_bind]
    split
    · exact Std.Refl.refl _
    · exact deeds _ _ (.cancelled (all _))

end All

/-- Finding the database of a source is opening a path. -/
theorem respects_databaseFor (source : String) :
    Respects R (databaseFor source : Action α DatabaseId) := by
  intro engine
  simp only [databaseFor, after_get_bind]
  refine Respects.bind (.of_after_eq fun e => ?_) (respects_openOrGet deeds) engine
  cases engine.indexLocation source <;> rfl

omit deeds in
/-- A compile request respects a relation if its run does. -/
theorem respects_compileWith {fire : Interference α} {id : DatabaseId} {source : String}
    {override : Option (List String)} (runs : Respects R (run fire id source override)) :
    Respects R (compileWith fire id source override) := by
  intro engine
  simp only [compileWith, after_get_bind]
  split
  · exact runs engine
  · exact Std.Refl.refl _

/-- Compiling a source respects a relation of deeds that runs respect. -/
theorem respects_compile {fire : Interference α} {source : String}
    {override : Option (List String)} (runs : ∀ id, Respects R (run fire id source override)) :
    Respects R (compile fire source override) :=
  .bind (respects_databaseFor deeds source) fun id =>
    .bind (.modify_of fun engine => deeds _ _ (.aside (aside_log engine _ _ _))) fun _ =>
      respects_compileWith (runs id)

end Respects

/-! ### Changes of the machine -/

/-- Setting a value leaves the directory, the programs and the processes of the machine. -/
theorem set_host (settings : Settings) (host : Host) (key : String) (value : Json) :
    (settings.set host key value).2.2.directory = host.directory ∧
      (settings.set host key value).2.2.programs = host.programs ∧
      (settings.set host key value).2.2.processes = host.processes := by
  delta Settings.set Settings.save Settings.makeFolder
  dsimp only [Settings.put]
  cases host.tree.makeDirectory host.directory settings.folder with
  | error reason => exact ⟨rfl, rfl, rfl⟩
  | ok tree => dsimp only; split <;> exact ⟨rfl, rfl, rfl⟩

/-- Changing a setting is something that happens outside. -/
theorem outside_configure (key : String) (value : Json) :
    Respects Outside (configure key value : Action α Unit) := by
  intro engine
  have hhost := set_host engine.settings engine.host key value
  simp only [configure, after_get_bind]
  cases hset : engine.settings.set engine.host key value with
  | mk result rest =>
    obtain ⟨hdirectory, hprograms, hprocesses⟩ := hset ▸ hhost
    cases result <;>
      exact ⟨fun rooted => hdirectory ▸ rooted, hprograms, hprocesses, rfl, rfl, rfl, rfl, rfl, rfl⟩

end Engine

end AsmScope
