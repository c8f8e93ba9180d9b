import AsmScope.Proofs.Lifecycle
/-! # What the observers watch

No request changes a file, the working directory or the clock (`Deed.sameFiles`). The observer of a
database is started for the database's file and never listens for another one, and as it compares
paths in canonical form it takes exactly the events of this file, from whatever directory they are
told (`Tracked`). Whatever happens in a session keeps this. -/

namespace AsmScope

namespace Engine

variable {α : Type}

/-! ### What requests do to the files -/

/-- The same files, seen from the same directory at the same time. -/
structure SameFiles (before after : Engine α) : Prop where
  tree : after.host.tree = before.host.tree
  directory : after.host.directory = before.host.directory
  now : after.host.now = before.host.now

instance : IsPreorder (Engine α) SameFiles where
  refl _ := ⟨rfl, rfl, rfl⟩
  trans _ _ _ hab hbc :=
    ⟨hbc.tree.trans hab.tree, hbc.directory.trans hab.directory, hbc.now.trans hab.now⟩

namespace SameFiles

/-- Killing the processes of runs touches no file, nor the directory or the clock. -/
theorem killRuns (host : Host) (runs : List RunProcesses) :
    (runs.foldl killRun host).tree = host.tree ∧
      (runs.foldl killRun host).directory = host.directory ∧
      (runs.foldl killRun host).now = host.now := by
  induction runs generalizing host with
  | nil => exact ⟨rfl, rfl, rfl⟩
  | cons run runs ih => exact ih (killRun host run)

/-- Cancelling a token leaves the files. -/
theorem cancelToken (engine : Engine α) (token : TokenId) :
    SameFiles engine (engine.cancelToken token) := by
  unfold Engine.cancelToken
  split
  · exact ⟨rfl, rfl, rfl⟩
  · obtain ⟨htree, hdirectory, hnow⟩ := killRuns engine.host _
    exact ⟨htree, hdirectory, hnow⟩

/-- Cancelling the run of a database leaves the files. -/
theorem cancel (engine : Engine α) (id : DatabaseId) :
    SameFiles engine (engine.cancelCompilation id).2 := by
  unfold cancelCompilation
  split
  · exact cancelToken engine _
  · exact Std.Refl.refl engine

/-- Beginning a compilation leaves the files. -/
theorem begin (engine : Engine α) (id : DatabaseId) :
    SameFiles engine (engine.beginCompilation id).2 := by
  simp only [beginCompilation]
  split
  · exact ⟨(cancelToken _ _).tree, (cancelToken _ _).directory, (cancelToken _ _).now⟩
  · exact ⟨rfl, rfl, rfl⟩

/-- Disposing of a database leaves the files. -/
theorem dispose (engine : Engine α) (id : DatabaseId) :
    SameFiles engine (engine.disposeDatabase id) := by
  have hcancelled := cancel engine id
  exact ⟨hcancelled.tree, hcancelled.directory, hcancelled.now⟩

/-- A path leads to the same file. -/
theorem canonical_eq {before after : Engine α} (same : SameFiles before after) (path : String) :
    after.host.canonical path = before.host.canonical path := by
  simp only [Host.canonical, same.directory]

/-- Where the files are the same, each has the same index. -/
theorem ofFile_eq {before after : Engine α} (same : SameFiles before after) (location : String) :
    CommandIndex.ofFile after.host location = CommandIndex.ofFile before.host location := by
  simp only [CommandIndex.ofFile, same.tree, same.directory]

end SameFiles

/-- No deed changes a file, the working directory or the clock. -/
theorem Deed.sameFiles {who : DatabaseId → Prop} {before after : Engine α}
    (deed : Deed who before after) : SameFiles before after := by
  have hregistry : ∀ (engine : Engine α) (registered : Table String DatabaseId),
      SameFiles engine { engine with registered } := fun _ _ => ⟨rfl, rfl, rfl⟩
  -- what is cancelled leads to kills, and these leave files alone
  cases deed with
  | aside same => exact ⟨same.tree, same.directory, same.now⟩
  | cancelled => exact .cancel _ _
  | retired => exact relates_retire hregistry (fun engine => .dispose engine _) _
  | disposed => exact .dispose _ _
  | closed => exact relates_closeAll hregistry .dispose _
  | added | entered | reloaded | noted => exact ⟨rfl, rfl, rfl⟩

/-! ### What the observers watch -/

/-- Every running observer of a database listens for its file, by an absolute path. -/
structure Tracked (engine : Engine α) : Prop where
  rooted : Path.isAbsolute engine.host.directory
  handlers : ∀ id handler, engine.observers.get? (.database id) = some handler →
    ∃ database, engine.database? id = some database ∧ Path.Normal database.location ∧
      handler.target = engine.host.canonical database.location ∧
      handler.debounce = .binary (.zero false) ∧ handler.reportsDeletion = true

/-- No observer is new, none listens for another file, and no database is elsewhere. -/
structure KeepsWatch (before after : Engine α) : Prop where
  rooted : Path.isAbsolute before.host.directory → Path.isAbsolute after.host.directory
  handlers : ∀ id handler, after.observers.get? (.database id) = some handler →
    ∃ old, before.observers.get? (.database id) = some old ∧
      handler = { old with lastTriggered := handler.lastTriggered }
  locations : ∀ id database, before.database? id = some database →
    ∃ found, after.database? id = some found ∧ found.location = database.location

instance : IsPreorder (Engine α) KeepsWatch where
  refl _ :=
    ⟨fun h => h, fun _ handler h => ⟨handler, h, rfl⟩, fun _ database h => ⟨database, h, rfl⟩⟩
  trans first second third hfirst hsecond := by
    refine ⟨fun h => hsecond.rooted (hfirst.rooted h), ?_, ?_⟩
    · intro id handler hhandler
      obtain ⟨between, hbetween, heq⟩ := hsecond.handlers id handler hhandler
      obtain ⟨old, hold, heq'⟩ := hfirst.handlers id between hbetween
      refine ⟨old, hold, ?_⟩
      rw [heq, heq']
    · intro id database hdatabase
      obtain ⟨between, hbetween, hlocation⟩ := hfirst.locations id database hdatabase
      obtain ⟨found, hfound, hlocation'⟩ := hsecond.locations id between hbetween
      exact ⟨found, hfound, hlocation'.trans hlocation⟩

/-- If the watch is kept, observers that listen for the files of their databases still do. -/
theorem Tracked.keep {before after : Engine α} (keeps : KeepsWatch before after)
    (h : Tracked before) : Tracked after := by
  refine ⟨keeps.rooted h.rooted, ?_⟩
  intro id handler hhandler
  obtain ⟨old, hold, heq⟩ := keeps.handlers id handler hhandler
  obtain ⟨database, hdatabase, hnormal, htarget, hdebounce, hreports⟩ := h.handlers id old hold
  obtain ⟨found, hfound, hlocation⟩ := keeps.locations id database hdatabase
  refine ⟨found, hfound, ?_, ?_, ?_, ?_⟩
  · rw [hlocation]
    exact hnormal
  · -- the canonical form of an absolute path is the same in every directory
    have hsame : after.host.canonical database.location = before.host.canonical database.location :=
      Path.resolve_eq_of_isAbsolute hnormal.isAbsolute _ _
    rw [heq, hlocation, hsame]
    exact htarget
  · rw [heq]
    exact hdebounce
  · rw [heq]
    exact hreports

namespace KeepsWatch

variable {before after engine : Engine α}

/-- The watch is kept where the locations and the observers are the same. -/
theorem of_same (rooted : Path.isAbsolute before.host.directory →
      Path.isAbsolute after.host.directory)
    (databases : after.databases.map Database.entry = before.databases.map Database.entry)
    (observers : after.observers = before.observers) : KeepsWatch before after := by
  refine ⟨rooted, ?_, ?_⟩
  · intro id handler hhandler
    rw [observers] at hhandler
    exact ⟨handler, hhandler, rfl⟩
  · intro id database hdatabase
    obtain ⟨found, hfound, hentry⟩ := exists_of_entries databases.symm hdatabase
    simp only [Database.entry, Prod.mk.injEq] at hentry
    exact ⟨found, hfound, hentry.1⟩

/-- The watch is kept when a database is disposed of. -/
theorem dispose (engine : Engine α) (id : DatabaseId) :
    KeepsWatch engine (engine.disposeDatabase id) := by
  refine ⟨?_, ?_, ?_⟩
  · rw [(SameFiles.dispose engine id).directory]
    exact fun h => h
  · intro other handler hhandler
    rw [observers_disposeDatabase, Table.get?_erase] at hhandler
    split at hhandler
    · cases hhandler
    · exact ⟨handler, hhandler, rfl⟩
  · intro other database hdatabase
    rw [database?_disposeDatabase, hdatabase]
    split <;> exact ⟨_, rfl, rfl⟩

/-- The watch is kept whatever becomes of the registry. -/
theorem unregister (engine : Engine α) (registered : Table String DatabaseId) :
    KeepsWatch engine { engine with registered } :=
  of_same (fun h => h) rfl rfl

/-- The watch is kept when a database is added. -/
theorem append (engine : Engine α) (database : Database) :
    KeepsWatch engine (engine.addDatabase database) :=
  ⟨fun h => h, fun _ handler h => ⟨handler, h, rfl⟩,
    fun _ old h => ⟨old, Orderly.found_of_append h, rfl⟩⟩

/-- The watch is kept when an observer remembers a time. -/
theorem note {listener : Listener} {handler : Handler}
    (found : engine.observers.get? listener = some handler) (now : Number) :
    KeepsWatch engine { engine with
      observers := engine.observers.put listener { handler with lastTriggered := now } } := by
  refine ⟨fun h => h, ?_, fun _ database h => ⟨database, h, rfl⟩⟩
  intro id noted hnoted
  rw [Table.get?_put] at hnoted
  split at hnoted
  · next hlistener =>
    rw [← Option.some.inj hnoted]
    exact ⟨handler, hlistener ▸ found, rfl⟩
  · exact ⟨noted, hnoted, rfl⟩

/-- The watch is kept when a compilation ends. -/
theorem endCompilation (engine : Engine α) (id : DatabaseId) (token : TokenId) :
    KeepsWatch engine (engine.endCompilation id token) := by
  refine of_same (fun h => h) (entries_modifyDatabase engine id _ fun database => ?_) rfl
  split <;> rfl

end KeepsWatch

namespace Tracked

variable {before after : Engine α}

/-- A database that is entered gets an observer that listens for its file. -/
theorem entered (h : Tracked before) (location : String) (commands : CommandIndex) :
    Tracked (before.enter (before.host.absolute location) commands) := by
  have hnormal : Path.Normal (before.host.absolute location) :=
    Path.normal_absolute h.rooted location
  refine ⟨h.rooted, ?_⟩
  intro id handler hhandler
  -- the databases that were there keep their numbers
  have hold : ∀ handler, before.observers.get? (.database id) = some handler →
      ∃ database, (before.enter (before.host.absolute location) commands).database? id =
          some database ∧ Path.Normal database.location ∧
        handler.target = before.host.canonical database.location ∧
        handler.debounce = .binary (.zero false) ∧ handler.reportsDeletion = true := by
    intro handler hhandler
    obtain ⟨database, hdatabase, hrest⟩ := h.handlers id handler hhandler
    exact ⟨database, Orderly.found_of_append hdatabase, hrest⟩
  simp only [enter] at hhandler
  split at hhandler
  · rw [Table.get?_put] at hhandler
    split at hhandler
    · next hid =>
      -- the new observer is started for the path under which the database is registered
      obtain rfl : before.databases.length = id := Listener.database.inj hid
      have htarget : (Handler.forFile before.host (before.host.absolute location) true
          (.binary (.zero false))).target =
            before.host.canonical (before.host.absolute location) := rfl
      rw [← Option.some.inj hhandler]
      exact ⟨_, List.getElem?_concat_length, hnormal, htarget, rfl, rfl⟩
    · exact hold handler hhandler
  · exact hold handler hhandler

/-- Every deed leaves observers with the files of their databases. -/
theorem deed {who : DatabaseId → Prop} (deed : Deed who before after) (h : Tracked before) :
    Tracked after := by
  cases deed with
  | aside same =>
    exact h.keep (.of_same (fun h => same.directory ▸ h) (by rw [same.databases]) same.observers)
  | added location commands attached =>
    exact h.keep (.append before { location, commands, attached })
  | entered location commands => exact h.entered location commands
  -- the commands of a database are not what is tracked
  | @reloaded id database mine commands =>
    have hkept : KeepsWatch before
        (before.modifyDatabase id fun database => { database with commands }) :=
      .of_same (fun h => h) (entries_modifyDatabase _ _ _ fun _ => rfl) rfl
    exact h.keep hkept
  | noted mine found => exact h.keep (.note found before.host.now)
  | @cancelled id mine =>
    obtain ⟨hdatabases, -, hobservers, -⟩ := cancelCompilation_books before id
    refine h.keep (.of_same ?_ (by rw [hdatabases]) hobservers)
    rw [(SameFiles.cancel before id).directory]
    exact fun h => h
  | retired => exact h.keep (relates_retire .unregister (fun engine => .dispose engine _) before)
  | disposed => exact h.keep (.dispose before _)
  | closed => exact h.keep (relates_closeAll .unregister .dispose before)

/-- **Whatever happens in a session, the observers watch the files of their databases.** -/
theorem move {scene next : Scene α} (move : Move scene next) (h : Tracked scene.engine) :
    Tracked next.engine := by
  cases move with
  | deed deed => exact h.deed deed
  | elsewhere same => exact h.keep (.of_same same.rooted (by rw [same.databases]) same.observers)
  | @begun engine flights id there =>
    refine h.keep (.of_same ?_ ?_ (beginCompilation_books engine id).2.1)
    · rw [(SameFiles.begin engine id).directory]
      exact fun h => h
    · rw [databases_beginCompilation]
      exact entries_modifyDatabase engine id _ fun _ => rfl
  | ended => exact h.keep (.endCompilation _ _ _)

/-- At every moment of a session observers listen for the files of their databases. -/
theorem moves {scene next : Scene α} (moves : Moves scene next) (h : Tracked scene.engine) :
    Tracked next.engine :=
  moves.invariant (fun _ _ move h => Tracked.move move h) h

/-- At first there are none. -/
theorem of_fresh {watching : Bool} {engine : Engine α} (h : Fresh watching engine)
    (rooted : Path.isAbsolute engine.host.directory) : Tracked engine := by
  refine ⟨rooted, ?_⟩
  intro id handler hhandler
  rw [h.observers] at hhandler
  cases hhandler

end Tracked

end Engine

end AsmScope
