import AsmScope.Proofs.Directories
import AsmScope.Proofs.Lockstep
import AsmScope.Proofs.Undisturbed
/-! # Requests of engines in step

Every part of a request goes together with itself, as long as the rest of the program does nothing
at its moments (`Quiet`), up to the compile request (`Tied.compile`). Two things could have made a
difference. A database that is opened by an engine that watches files could turn out not to be
watchable: but its file was read just before, so it is there. And an override may be left out or be
empty: but what counts are the arguments to which it leads. -/

namespace AsmScope

/-! ### What does not depend on the journal -/

/-- Starting a program does not look at the journal. -/
theorem Host.start_withJournal (host : Host) (journal : List LogLine)
    (executable : String) (arguments : List String) (directory : Option String)
    (environment : Option (Table String String)) (piped : Bool) :
    Host.start { host with journal } executable arguments directory environment piped =
      (host.start executable arguments directory environment piped).map fun started =>
        (started.1, { started.2 with journal }) := by
  unfold Host.start
  dsimp only
  cases host.programs.get? executable with
  | none => rfl
  | some program =>
    dsimp only
    cases program.spawnError <;> rfl

/-- Loading an index does not look at the journal, to which it only adds lines. -/
theorem Host.load_withJournal (host : Host) (journal : List LogLine) (location : String) :
    ∃ journal', CommandIndex.load { host with journal } location =
      (CommandIndex.ofFile host location, { host with journal := journal' }) := by
  have hlogged : CommandIndex.ofFile
      (Host.log { host with journal } .info "database"
        ("Loading compilation database from " ++ location)) location =
    CommandIndex.ofFile host location := rfl
  simp only [CommandIndex.load, hlogged]
  cases CommandIndex.ofFile host location <;> exact ⟨_, rfl⟩

/-- What holds an index is there. -/
theorem Host.pathExists_of_ofFile {host : Host} {location : String} {commands : CommandIndex}
    (loaded : CommandIndex.ofFile host location = .ok commands) : host.pathExists location := by
  unfold CommandIndex.ofFile FileTree.read at loaded
  rw [pathExists, FileTree.at?]
  cases hresolve : host.tree.resolve host.directory location with
  | error reason =>
    rw [hresolve] at loaded
    cases loaded
  | ok place =>
    rw [hresolve] at loaded
    dsimp only at loaded ⊢
    cases hnode : host.tree.node? place with
    | none =>
      rw [hnode] at loaded
      cases loaded
    | some node => rfl

namespace Engine

variable {α β : Type} {front : α} {plain : Engine Unit} {rich : Engine α}

/-! ### Parts during which nobody else acts -/

namespace Together

/-- Reporting what a process wrote keeps engines in step. -/
theorem reportDiagnostics (id : ProcessId) :
    Together front (Engine.reportDiagnostics id) (Engine.reportDiagnostics id : Action α Unit) := by
  refine get_bind fun engine journal sink inStep => ?_
  refine .ite (fun _ => ?_) fun _ => .pure_of inStep _
  exact on (modify_of fun inStep => (inStep.appendLine _).showOutput) inStep

/-- The check of a token keeps engines in step. -/
theorem checkToken (token : TokenId) :
    Together front (Engine.checkToken token) (Engine.checkToken token : Action α Unit) := by
  refine get_bind fun engine journal sink inStep => ?_
  exact .ite (fun _ => .throw_of inStep _) fun _ => .pure_of inStep _

/-- A write that the process refuses keeps engines in step. -/
theorem refuseInput (token : TokenId) :
    Together front (Engine.refuseInput token : Action Unit β) (Engine.refuseInput token) :=
  bind (checkToken token) fun _ => throw_of front _

/-- The end of the compiler's output keeps engines in step. -/
theorem endOutput (token : TokenId) (run : RunProcesses) :
    Together front (Engine.endOutput token run) (Engine.endOutput token run : Action α Unit) :=
  bind (modify_of fun inStep => inStep.changeHost (Host.finish · run.compiler) fun _ _ => rfl)
    fun _ => checkToken token

/-- Looking for a demangler keeps engines in step: both locators know the same. -/
theorem locateDemangler (compiler : String) :
    Together front (Engine.locateDemangler compiler)
      (Engine.locateDemangler compiler : Action α Json) := by
  refine get_bind fun engine journal sink inStep => ?_
  have hlocate : (engine.plainly journal sink).locator.locate (engine.plainly journal sink).host
      compiler = engine.locator.locate engine.host compiler := rfl
  simp only [hlocate]
  obtain ⟨located, locator⟩ := engine.locator.locate engine.host compiler
  have hlater : InStep front { engine.plainly journal sink with locator } { engine with locator } :=
    ⟨inStep.front, journal, sink, rfl⟩
  refine .set_bind ?_
  cases located with
  | ok name => exact .pure_of hlater name
  | error error => exact .throw_of hlater _

/-- Both stopwatches read the same. -/
theorem readStopwatch :
    Together front Engine.readStopwatch (Engine.readStopwatch : Action α Binary64) := by
  refine get_bind fun engine journal sink inStep => ?_
  have hseconds : (engine.plainly journal sink).host.seconds? = engine.host.seconds? := rfl
  rw [hseconds]
  cases engine.host.seconds? with
  | none => exact .throw_of inStep _
  | some seconds => exact .pure_of inStep _

/-- Timing actions that keep engines in step does so too. -/
theorem timed {first : Action Unit β} {second : Action α β}
    (together : Together front first second) :
    Together front (Engine.timed first) (Engine.timed second) :=
  bind readStopwatch fun _ => bind together fun _ => bind readStopwatch fun _ => pure_of front _

/-- Loading an index keeps engines in step: both read the same file. -/
theorem loadIndex (location : String) :
    Together front (Engine.loadIndex location)
      (Engine.loadIndex location : Action α CommandIndex) := by
  refine get_bind fun engine journal sink inStep => ?_
  -- each logs into its own journal that it loads, and both find the same in the file
  obtain ⟨journal', hplain⟩ := engine.host.load_withJournal journal location
  obtain ⟨journal'', hrich⟩ := engine.host.load_withJournal engine.host.journal location
  simp only [plainly_host, hplain, hrich]
  have hlater : InStep front
      { engine.plainly journal sink with host := { engine.host with journal := journal' } }
      { engine with host := { engine.host with journal := journal'' } } :=
    ⟨inStep.front, journal', sink, rfl⟩
  refine .set_bind ?_
  cases CommandIndex.ofFile engine.host location with
  | ok commands => exact .pure_of hlater commands
  | error error => exact .throw_of hlater _

end Together

/-! ### Runs -/

namespace Together

variable {fire : Interference α} (quiet : Quiet fire front)
include quiet

/-- At a moment of a process nothing happens to either engine. -/
theorem interfere (id : ProcessId) (moment : Moment) :
    Together front (Engine.interfere idle id moment) (Engine.interfere fire id moment) := by
  refine modify_of fun {plain rich} inStep => ?_
  -- `idle` does nothing at all, and `fire` nothing to an engine with this front
  have hplain : plain.after (Engine.interfere idle id moment) = plain :=
    after_interfere_idle plain id moment
  have hrich : rich.after (Engine.interfere fire id moment) = rich := by
    rw [Engine.interfere, after_modify]
    split
    · exact quiet _ _ _ inStep.front
    · rfl
  rw [Engine.interfere, after_modify] at hplain hrich
  rw [hplain, hrich]
  exact inStep

/-- A moment that is reached only while a process runs keeps engines in step, if the rest of the
program leaves the one alone. -/
theorem interfereWhileRunning (id : ProcessId) (moment : Moment) :
    Together front (Engine.interfereWhileRunning idle id moment)
      (Engine.interfereWhileRunning fire id moment) := by
  refine get_bind fun engine journal sink inStep => ?_
  exact .ite (fun _ => (interfere quiet id moment).on inStep) fun _ => .pure_of inStep _

/-- Waiting for a process to end keeps engines in step, if the rest of the program leaves the one
alone. -/
theorem awaitExit (id : ProcessId) :
    Together front (Engine.awaitExit idle id) (Engine.awaitExit fire id) := by
  refine get_bind fun engine journal sink inStep => ?_
  refine on (when_bind (interfere quiet id .waiting) ?_) inStep
  exact get_bind fun _ _ _ inStep => .pure_of inStep _

/-- Stopping a process keeps engines in step. -/
theorem cleanUp (id : ProcessId) (inStep : InStep front plain rich) :
    InStep front ((Engine.cleanUp idle id).run plain).2 ((Engine.cleanUp fire id).run rich).2 :=
  ((awaitExit quiet id).on (inStep.changeHost (Host.kill · id) fun _ _ => rfl)).after

/-- Writing a chunk to the demangler keeps engines in step. -/
theorem writeChunk (demangler : ProcessId) (index : Nat) (chunk : Bytes) :
    Together front (Engine.writeChunk idle demangler index chunk)
      (Engine.writeChunk fire demangler index chunk) := by
  refine bind (interfere quiet demangler _) fun _ => get_bind fun engine journal sink inStep => ?_
  simp only [plainly_process?]
  cases engine.host.process? demangler with
  | none => exact .pure_of inStep false
  | some process =>
    refine .ite (fun _ => .pure_of inStep false) fun _ => .set_bind (.pure_of ?_ true)
    exact inStep.changeHost (Host.modifyProcess · demangler fun p => p.receive chunk) fun _ _ => rfl

/-- Passing on all chunks of the compiler keeps engines in step. -/
theorem relay (token : TokenId) (run : RunProcesses) (index : Nat) (chunks : List Bytes) :
    Together front (Engine.relay idle token run index chunks)
      (Engine.relay fire token run index chunks) := by
  -- induction on the chunks that are left to pass on
  induction chunks generalizing index with
  | nil =>
    exact bind (interfereWhileRunning quiet run.compiler .beforeEnd) fun _ => endOutput token run
  | cons chunk rest ih =>
    refine bind (interfereWhileRunning quiet run.compiler (.beforeChunk index)) fun _ => ?_
    refine get_bind fun engine journal sink inStep => ?_
    refine .ite (fun _ => (endOutput token run).on inStep) fun _ => ?_
    refine on (bind (checkToken token) fun _ =>
      bind (writeChunk quiet run.demangler index chunk) fun taken => ?_) inStep
    exact ite (ih (index + 1)) (refuseInput token)

/-- Closing the input of the demangler keeps engines in step. -/
theorem closeInput (id : ProcessId) :
    Together front (Engine.closeInput idle id) (Engine.closeInput fire id) := by
  refine bind (interfereWhileRunning quiet id .beforeClose) fun _ =>
    get_bind fun engine journal sink inStep => ?_
  simp only [plainly_process?]
  cases engine.host.process? id with
  | none => exact .pure_of inStep false
  | some process =>
    refine .ite (fun _ => .pure_of inStep false) fun _ => .set_bind (.pure_of ?_ true)
    exact inStep.changeHost (Host.endInput · id) fun _ _ => rfl

/-- The translation as a whole keeps engines in step. -/
theorem translate (token : TokenId) (run : RunProcesses) (compiler demangler : String) :
    Together front (Engine.translate idle token run compiler demangler)
      (Engine.translate fire token run compiler demangler) := by
  refine get_bind fun engine journal sink inStep => ?_
  refine on (bind (relay quiet token run 0 _) fun _ =>
    bind (awaitExit quiet run.compiler) fun code =>
    bind (reportDiagnostics run.compiler) fun _ => bind (checkToken token) fun _ => ?_) inStep
  refine when_bind (throw_of front _) ?_
  refine bind (closeInput quiet run.demangler) fun closed => when_bind (refuseInput token) ?_
  refine bind (awaitExit quiet run.demangler) fun code =>
    bind (reportDiagnostics run.demangler) fun _ => bind (checkToken token) fun _ => ?_
  refine when_bind (throw_of front _) ?_
  exact get_bind fun _ _ _ inStep => .pure_of inStep _

/-- The translation with the registration around it keeps engines in step. -/
theorem translateRegistered (token : TokenId) (run : RunProcesses) (compiler demangler : String) :
    Together front (Engine.translateRegistered idle token run compiler demangler)
      (Engine.translateRegistered fire token run compiler demangler) :=
  bind (modify_of fun inStep => inStep.registerRun token run) fun _ =>
    ensuring (translate quiet token run compiler demangler) fun inStep =>
      inStep.unregisterRun token run

/-- Starting a program keeps engines in step, and so does the moment that follows. -/
theorem startProgram (role : Role) (executable : String) (arguments : List String)
    (directory : Option String) (environment : Option (Table String String)) :
    Together front (Engine.startProgram idle role executable arguments directory environment)
      (Engine.startProgram fire role executable arguments directory environment) := by
  refine get_bind fun engine journal sink inStep => ?_
  have hstart : (engine.plainly journal sink).host.start executable arguments directory environment
      (role = .demangler) = _ :=
    engine.host.start_withJournal journal executable arguments directory environment _
  rw [hstart]
  cases engine.host.start executable arguments directory environment (role = .demangler) with
  | error error => exact .throw_of inStep _
  | ok started =>
    have hlater : InStep front
        { engine.plainly journal sink with host := { started.2 with journal } }
        { engine with host := started.2 } := ⟨inStep.front, journal, sink, rfl⟩
    exact .set_bind (on (bind (interfere quiet started.1 .spawned) fun _ => pure_of front _) hlater)

/-- Of the override only the arguments matter to which it leads. -/
theorem compileCommand (token : TokenId) (command : CompileCommand) (source : String)
    {override override' : Option (List String)}
    (same : Invocation.effectiveArguments command override =
      Invocation.effectiveArguments command override') :
    Together front (Engine.compileCommand idle token command source override)
      (Engine.compileCommand fire token command source override') := by
  refine get_bind fun engine journal sink inStep => ?_
  have hbuild : Invocation.build? command ((engine.plainly journal sink).host.absolute source)
        override (engine.plainly journal sink).rewrites =
      Invocation.build? command (engine.host.absolute source) override' engine.rewrites := by
    simp only [Invocation.build?, same]
    rfl
  rw [hbuild]
  cases Invocation.build? command (engine.host.absolute source) override' engine.rewrites with
  | none => exact .throw_of inStep _
  | some invocation =>
    refine on (bind (locateDemangler _) fun demangler =>
      bind (modify_of fun inStep => inStep.appendLine _) fun _ =>
      bind (modify_of fun inStep => inStep.appendLine _) fun _ => ?_) inStep
    refine get_bind fun engine journal sink inStep => ?_
    -- the compiler is started in the same directory and the same environment
    have hdirectory : (engine.plainly journal sink).compilerDirectory command =
      engine.compilerDirectory command := rfl
    have henvironment : (engine.plainly journal sink).compilerEnvironment =
      engine.compilerEnvironment := rfl
    rw [hdirectory, henvironment]
    refine on (bind (startProgram quiet _ _ _ _ _) fun compilerId =>
      bind (ensuring ?_ (cleanUp quiet compilerId)) fun output => pure_of front _) inStep
    cases demangler.text? with
    | none => exact throw_of front _
    | some name =>
      exact bind (startProgram quiet _ _ _ _ _) fun demanglerId =>
        ensuring (translateRegistered quiet token _ _ _) (cleanUp quiet demanglerId)

/-- A whole run of a source keeps engines in step, with overrides that come to the same
arguments. -/
theorem run (id : DatabaseId) (source : String) {override override' : Option (List String)}
    (same : ∀ command, Invocation.effectiveArguments command override =
      Invocation.effectiveArguments command override') :
    Together front (Engine.run idle id source override) (Engine.run fire id source override') := by
  refine get_bind fun engine journal sink inStep => ?_
  rw [inStep.lookup_eq]
  cases engine.lookup id source with
  | none => exact .throw_of inStep _
  | some command =>
    refine .get_bind ?_
    -- both compile under the same token, and end that compilation whatever comes of it
    obtain ⟨htoken, hbegun⟩ := inStep.beginCompilation id
    dsimp only
    rw [htoken]
    refine .set_bind (on ?_ hbegun)
    refine bind (observe (timed (compileCommand quiet _ command source (same command))))
      fun outcome => bind (modify_of fun inStep => inStep.reportOutcome source outcome) fun _ =>
      bind (modify_of fun inStep => inStep.endCompilation id _) fun _ => ?_
    cases outcome with
    | ok timing => exact pure_of front _
    | error failure => exact throw_of front _

end Together

/-! ### Requests -/

section Requests

/-- Only an engine that is not plain watches the file of a database that is opened. -/
theorem InStep.watch (inStep : InStep front plain rich) (observers : Observers Listener)
    (id : DatabaseId) :
    InStep front plain ({ rich with observers }.modifyDatabase id fun database =>
      { database with watched := true }) := by
  obtain ⟨hfront, journal, sink, rfl⟩ := inStep
  refine ⟨hfront, journal, sink, ?_⟩
  simp only [Engine.plainly, Engine.modifyDatabase]
  have hhidden (database : Database) :
      Database.unwatched { database with watched := true } = database.unwatched := rfl
  rw [map_unwatched_modify hhidden]

/-- A file that was read can be watched. -/
theorem exists_watchDatabase {path : String} (normal : Path.Normal path) {commands : CommandIndex}
    (loaded : CommandIndex.ofFile rich.host path = .ok commands) (id : DatabaseId) :
    ∃ observers, rich.result (Engine.watchDatabase id path) = .ok () ∧
      rich.after (Engine.watchDatabase id path) = { rich with observers }.modifyDatabase id
        fun database => { database with watched := true } := by
  have hthere : rich.host.pathExists (rich.host.canonical path) := by
    rw [Host.pathExists_canonical normal]
    exact Host.pathExists_of_ofFile loaded
  obtain ⟨observers, hobservers⟩ : ∃ observers, rich.observers.start? rich.host (.database id) path
      true (.binary (.zero false)) = some observers := ⟨_, if_pos hthere⟩
  refine ⟨observers, ?_, ?_⟩
  · simp only [Engine.watchDatabase, result_get_bind, hobservers]
    rfl
  · simp only [Engine.watchDatabase, after_get_bind, hobservers]
    rfl

/-- The last part of opening a database, after which it is watched by the one engine only. -/
theorem Tied.register (inStep : InStep front plain rich) {path : String}
    (normal : Path.Normal path) {commands : CommandIndex}
    (loaded : CommandIndex.ofFile rich.host path = .ok commands) (watching : Bool)
    (id : DatabaseId) :
    Tied front plain rich
      (do
        modify fun engine => { engine with registered := engine.registered.put path id }
        return id)
      (do
        if watching then Engine.watchDatabase id path
        modify fun engine => { engine with registered := engine.registered.put path id }
        return id) := by
  -- without the observer both sides do the same
  have hregister : Together front
      (do
        modify fun engine => { engine with registered := engine.registered.put path id }
        return id : Action Unit DatabaseId)
      (do
        modify fun engine => { engine with registered := engine.registered.put path id }
        return id : Action α DatabaseId) := by
    refine .bind (.modify_of ?_) fun _ => .pure_of front id
    rintro plain rich ⟨hfront, journal, sink, rfl⟩
    exact ⟨hfront, journal, sink, rfl⟩
  cases watching with
  | false => exact hregister.on inStep
  | true =>
    -- the observer is set on one side, and it cannot fail there
    obtain ⟨observers, hresult, hafter⟩ := exists_watchDatabase normal loaded id
    refine .bind_right hresult (hregister.on ?_)
    rw [hafter]
    exact inStep.watch observers id

/-- A database that is opened can be watched, as its file was read before. -/
theorem Tied.openOrGet (inStep : InStep front plain rich)
    (rooted : Path.isAbsolute rich.host.directory) (location : String) :
    Tied front plain rich (Engine.openOrGet location) (Engine.openOrGet location) := by
  have hnormal : Path.Normal (rich.host.absolute location) := Path.normal_absolute rooted location
  have hpath : plain.host.absolute location = rich.host.absolute location := by
    obtain ⟨-, journal, sink, rfl⟩ := inStep
    rfl
  have hregistered : plain.registered = rich.registered := by
    obtain ⟨-, journal, sink, rfl⟩ := inStep
    rfl
  refine .get_bind ?_
  rw [hpath, hregistered]
  generalize rich.host.absolute location = path at hnormal
  dsimp only
  cases rich.registered.get? path with
  | some id => exact .pure_of inStep id
  | none =>
    dsimp only
    have hannounced := inStep.appendLine ("Loading Compilation Database from: " ++ path)
    refine .modify_bind (.bind ((Together.loadIndex path).on hannounced) ?_)
    intro commands hloaded
    have hlater := ((Together.loadIndex path).on hannounced).after
    -- loading leaves the file as it is, so it can still be read when it is to be watched
    have hkept := aside_loadIndex path
      (rich.appendLine ("Loading Compilation Database from: " ++ path))
    rw [result_loadIndex, ← hkept.ofFile_eq] at hloaded
    generalize (rich.appendLine _).after _ = rich at hlater hloaded ⊢
    generalize (plain.appendLine _).after _ = plain at hlater ⊢
    obtain ⟨hfront, journal, sink, rfl⟩ := hlater
    refine .get_bind (.set_bind ?_)
    -- both engines give the new database the same number
    have hcount : (rich.plainly journal sink).databases.length = rich.databases.length :=
      List.length_map _
    have hadded : InStep front
        ((rich.plainly journal sink).addDatabase { location := path, commands, attached := true })
        (rich.addDatabase { location := path, commands, attached := true }) :=
      ⟨hfront, journal, sink, by simp [addDatabase, plainly, Database.unwatched]⟩
    rw [hcount]
    cases hfile : CommandIndex.ofFile rich.host path with
    | error error =>
      rw [hfile] at hloaded
      cases hloaded
    | ok commands' =>
      exact .register hadded hnormal hfile rich.watching rich.databases.length

/-- Finding the database of a source keeps engines in step, though only one of them may watch it. -/
theorem Tied.databaseFor (inStep : InStep front plain rich)
    (rooted : Path.isAbsolute rich.host.directory) (source : String) :
    Tied front plain rich (Engine.databaseFor source) (Engine.databaseFor source) := by
  have hlocation : plain.indexLocation source = rich.indexLocation source := by
    obtain ⟨-, journal, sink, rfl⟩ := inStep
    rfl
  refine .get_bind ?_
  rw [hlocation]
  cases rich.indexLocation source with
  | error failure => exact .throw_of inStep failure
  | ok location => exact .openOrGet inStep rooted location

variable {fire : Interference α}

/-- Compiling a source in a database keeps engines in step. -/
theorem Together.compileWith (quiet : Quiet fire front) (id : DatabaseId) (source : String)
    {override override' : Option (List String)}
    (same : ∀ command, Invocation.effectiveArguments command override =
      Invocation.effectiveArguments command override') :
    Together front (Engine.compileWith idle id source override)
      (Engine.compileWith fire id source override') := by
  refine get_bind fun engine journal sink inStep => ?_
  have hattached : ((engine.plainly journal sink).database? id).any (fun d => d.attached) =
      (engine.database? id).any fun d => d.attached := by
    rw [inStep.database?_eq, Option.any_map]
    rfl
  rw [hattached]
  exact .ite (fun _ => (run quiet id source same).on inStep) fun _ => .throw_of inStep _

/-- **A compile request answers the same** whether or not somebody stands before the engine, its
files are watched and the override is left out where it is empty. -/
theorem Tied.compile (inStep : InStep front plain rich)
    (rooted : Path.isAbsolute rich.host.directory) (quiet : Quiet fire front) (source : String)
    {override override' : Option (List String)}
    (same : ∀ command, Invocation.effectiveArguments command override =
      Invocation.effectiveArguments command override') :
    Tied front plain rich (Engine.compile idle source override)
      (Engine.compile fire source override') := by
  refine .bind (.databaseFor inStep rooted source) fun id _ => ?_
  have hopened := (Tied.databaseFor inStep rooted source).after
  exact .modify_bind ((Together.compileWith quiet id source same).on (hopened.log _ _ _))

end Requests

end Engine

end AsmScope
