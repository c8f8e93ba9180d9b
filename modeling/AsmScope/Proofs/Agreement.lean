import AsmScope.Proofs.ExplorerRequests
import AsmScope.Proofs.LockstepRuns
import AsmScope.Proofs.Saving
import AsmScope.Proofs.Tidiness
import AsmScope.Proofs.UndisturbedRuns
import AsmScope.Proofs.Vectors
import AsmScope.Terminal.Program
/-! # The terminal and the explorer agree

Printing the assembly of a source and opening the explorer on it ask the same of two engines that
are in step: the one of the program that prints is the plain form of the other (`create_plainly`).
So the first worker of the explorer answers what the program compiles, and shows it
(`displays_of_first_worker`). An undisturbed request is not cancelled
(`result_compile_idle_ne_cancelled`), so each of them either gives an assembly or fails in a way
that both front ends report (`print_agrees_with_explorer`). -/

namespace AsmScope

/-! ### The two engines -/

namespace Engine

variable {α : Type}

/-- Making an engine only adds to the host: what was started and logged before is still there. -/
theorem grown_create {host : Host} {workspace : String} {sink : Sink} {watching : Bool} {front : α}
    {engine : Engine α} (created : (create host workspace sink watching front).1 = .ok engine) :
    host.Grown engine.host := by
  have hgrown := Settings.grown_load host none
  unfold create at created
  split at created
  · cases created
  · next hload =>
    rw [hload] at hgrown
    split at created
    · cases created
    · cases created
    · cases created
      exact hgrown

/-- The engine of the terminal is the plain form of the engine of the explorer. -/
theorem create_plainly (host : Host) (workspace : String) (sink sink' : Sink) (watching : Bool)
    (front : α) :
    (create host workspace sink' false ()).1 =
      (create host workspace sink watching front).1.map fun engine =>
        engine.plainly engine.host.journal sink' := by
  unfold create
  split
  · rfl
  · split <;> rfl

/-! ### Undisturbed requests -/

section Undisturbed

variable {engine : Engine α} {source : String} {override : Option (List String)}

/-- Opening a database is not cancelled. -/
theorem result_databaseFor_ne_cancelled :
    engine.result (databaseFor source) ≠ .error .cancelled := by
  rw [databaseFor, result_get_bind]
  cases hlocation : engine.indexLocation source with
  | error failure =>
    intro hcancelled
    have hfailure : failure = .cancelled := Except.error.inj hcancelled
    unfold indexLocation buildDirectory at hlocation
    split at hlocation <;> cases hlocation
    cases hfailure
  | ok location =>
    have hopening := opening_openOrGet engine location
    change engine.result (openOrGet location) ≠ _
    generalize engine.result (openOrGet location) = answer at hopening ⊢
    generalize engine.after (openOrGet location) = later at hopening
    intro hcancelled
    rw [hcancelled] at hopening
    cases hopening

/-- A run during which no one else does anything does not end as cancelled. -/
theorem result_run_idle_ne_cancelled (reachable : Reachable engine) (id : DatabaseId) :
    engine.result (run idle id source override) ≠ .error .cancelled := by
  intro hcancelled
  cases hcommand : engine.lookup id source with
  | none =>
    rw [result_run_of_none hcommand] at hcancelled
    cases hcancelled
  | some command =>
    -- what goes wrong in an undisturbed run was to be foreseen, and no forecast is a cancellation
    rw [result_run_idle reachable hcommand] at hcancelled
    cases isRunFailure_of_forecast (of_timedBy_error hcancelled nofun) nofun

/-- Nobody cancels an undisturbed request. -/
theorem result_compile_idle_ne_cancelled (reachable : Reachable engine) :
    engine.result (compile idle source override) ≠ .error .cancelled := by
  -- finding the index leads to an engine that a session reaches as well
  have hdeeds : ∀ before after : Engine α, Deed (fun _ => True) before after →
      Leads before after :=
    respects_deed fun _ _ calm earlier => earlier.change calm.change
  have hopened : Reachable (engine.after (databaseFor source)) :=
    respects_databaseFor hdeeds source engine reachable
  rw [compile, result_bind]
  cases hid : engine.result (databaseFor source) with
  | error failure =>
    intro hcancelled
    have hfailure : failure = .cancelled := Except.error.inj hcancelled
    exact result_databaseFor_ne_cancelled (hfailure ▸ hid)
  | ok id =>
    simp only [result_modify_bind, compileWith, result_get_bind]
    split
    -- nobody else acts in an idle run, so nobody cancels its token
    · refine result_run_idle_ne_cancelled (hopened.change ?_) id
      exact .elsewhere (aside_log _ _ _ _).sameRuns
    · intro hcancelled
      cases hcancelled

end Undisturbed

/-! ### Closing -/

/-- A plain engine observes nothing, and still does not after a request and its closing. -/
theorem observers_closeAll_compile (engine : Engine α)
    (rooted : Path.isAbsolute engine.host.directory) (journal : List LogLine) (sink : Sink)
    (source : String) (override : Option (List String)) :
    ((engine.plainly journal sink).after (compile idle source override)).closeAll.observers =
      [] := by
  have hinStep : InStep engine.front (engine.plainly journal sink) engine :=
    ⟨rfl, journal, sink, rfl⟩
  have hquiet : Quiet idle engine.front := fun _ _ _ _ => rfl
  have hsame (command : CompileCommand) : Invocation.effectiveArguments command override =
    Invocation.effectiveArguments command override := rfl
  obtain ⟨journal', sink', hlater⟩ :=
    (Tied.compile hinStep rooted hquiet source hsame).after.plainly
  -- the engine is still the plain form of one, and such a form has no observers
  rw [hlater]
  refine relates_closeAll (R := Maintains fun engine => engine.observers = []) (fun _ _ h => h) ?_
    _ rfl
  intro engine id hnone
  rw [observers_disposeDatabase, hnone]
  rfl

/-- After an undisturbed request and the closing of the engine, nothing runs that did not run
before. -/
theorem tidy_closeAll_compile (engine : Engine α) (source : String)
    (override : Option (List String)) :
    Tidy engine (engine.after (compile idle source override)).closeAll := by
  have hdeeds : ∀ before after : Engine α, Deed (fun _ => True) before after →
      Tidy before after :=
    respects_deed fun before after calm => tidy_of_change before after calm.change
  have hcompile : Respects Tidy (compile idle source override : Action α String) :=
    respects_compile hdeeds fun id =>
      tidy_run (fun _ _ engine => Std.Refl.refl engine) id source override
  exact IsTrans.trans _ _ _ (hcompile engine) (hdeeds _ _ (.closed fun _ => trivial))

end Engine

/-! ### The first worker of an explorer -/

/-- Only one content is displayed at a time. -/
theorem Explorer.Displays.eq {explorer : Explorer} {content other : Except String String}
    (h : explorer.Displays content) (h' : explorer.Displays other) : content = other := by
  cases content with
  | ok asm =>
    cases other with
    | ok asm' => rw [(TextView.mk.inj (h.1.symm.trans h'.1)).2]
    | error error =>
      have hhidden := h'.2
      rw [h.1] at hhidden
      cases hhidden
  | error error =>
    cases other with
    | ok asm =>
      have hhidden := h.2
      rw [h'.1] at hhidden
      cases hhidden
    | error error' => rw [(TextView.mk.inj (h.1.symm.trans h'.1)).2]

namespace ExplorerStage

open Engine

variable {stage : ExplorerStage} {fire : Interference Explorer}

/-- Without scripts nothing happens during runs. -/
theorem quiet_interference {front : Explorer} (unscripted : front.scripts = []) (depth : Nat) :
    Quiet (interference depth) front := by
  rintro executable moment stage rfl
  cases depth with
  | zero => rfl
  | succ depth =>
    simp only [interference, Script.interference, takeScript, unscripted, Script.take?]
    rfl

/-- Mounting queues the first worker, and starts to watch the source if that is wanted. -/
theorem exists_take_mount (fire : Interference Explorer)
    (there : stage.host.pathExists (stage.host.canonical stage.front.source))
    (quiet : stage.front.inbox = []) :
    ∃ observers, stage.result (take fire .mount) = .ok () ∧
      stage.after (take fire .mount) =
        { stage with observers, front := stage.front.refresh } := by
  -- no message has arrived yet that the end of the step would handle
  have hhandled : stage.front.refresh.handleAll = stage.front.refresh :=
    Explorer.handleAll_of_inbox quiet
  obtain ⟨observers, hobservers⟩ : ∃ observers, stage.observers.start? stage.host .source
      stage.front.source false sourceDebounce = some observers := ⟨_, if_pos there⟩
  have hmount : ∃ observers, stage.result mount = .ok () ∧
      stage.after mount = { stage with observers, front := stage.front.refresh } := by
    rw [mount, result_get_bind, after_get_bind]
    cases watchesSource stage with
    | true =>
      rw [if_pos rfl, hobservers]
      exact ⟨observers, rfl, rfl⟩
    | false => exact ⟨stage.observers, rfl, rfl⟩
  obtain ⟨observers, hresult, hafter⟩ := hmount
  have htake : take fire .mount = mount >>= fun _ => modify (modifyFront Explorer.handleAll) := rfl
  refine ⟨observers, ?_, ?_⟩
  · rw [htake, result_bind, hresult]
    rfl
  · rw [htake, after_bind, hresult, hafter]
    simp only [after_modify, modifyFront, hhandled]

/-- The message about an outcome that is expected and no cancellation has it displayed. -/
theorem exists_outcomeMessage {outcome : Except Failure String}
    (expected : ∀ failure, outcome = .error failure → failure.isExpected)
    (uncancelled : outcome ≠ .error .cancelled) :
    ∃ message, outcomeMessage outcome = some message ∧ ∀ explorer : Explorer,
      (explorer.handle message).running = explorer.running - 1 ∧
        (explorer.handle message).Displays (outcome.mapError Failure.message) := by
  cases outcome with
  | ok asm => exact ⟨.finished asm, rfl, fun explorer => ⟨rfl, rfl, rfl⟩⟩
  | error failure =>
    refine ⟨.failed failure.message false, ?_, fun explorer => ⟨rfl, rfl, rfl⟩⟩
    unfold outcomeMessage
    split
    · next heq => cases heq
    · next heq => exact absurd heq uncancelled
    · next other _ heq =>
      cases heq
      rw [if_pos (expected _ rfl)]

/-- A worker whose outcome has a message has it handled. -/
theorem take_work_of_message {override : List String} {queue : List (List String)}
    (next : stage.front.queue = override :: queue) {outcome : Except Failure String}
    {later : Explorer} {message : Message} :
    let asking := modifyFront (fun explorer => { explorer with queue }) stage
    let request := Engine.compile fire stage.front.source
      (if override.isEmpty then none else some override)
    asking.result request = outcome → (asking.after request).front = later →
      outcomeMessage outcome = some message → later.inbox = [] →
        stage.result (take fire .work) = .ok () ∧
          (stage.after (take fire .work)).front = later.handle message := by
  rintro asking request rfl rfl hmessage hquiet
  have hreport : report (asking.result request) =
      modify (modifyFront fun explorer => explorer.post message) := by
    unfold report
    rw [hmessage]
  rw [result_take_of_queue next, after_take_of_queue next, hreport]
  exact ⟨rfl, Explorer.handleAll_post hquiet message⟩

/-- Whether an override is left out where it is empty does not matter. -/
theorem effectiveArguments_eq (command : CompileCommand) (override : Option (List String)) :
    Invocation.effectiveArguments command override =
      Invocation.effectiveArguments command
        (if (override.getD []).isEmpty then none else some (override.getD [])) := by
  cases override with
  | none => rfl
  | some arguments => cases arguments <;> rfl

/-- **What the first worker shows** of an explorer without scripts is what the plain engine answers,
and then no run is outstanding. -/
theorem displays_of_first_worker {source : String} {override : Option (List String)}
    (front : stage.front = { source, override := override.getD [] })
    (rooted : Path.isAbsolute stage.host.directory) (normal : Path.Normal source)
    (there : stage.host.pathExists source) (depth : Nat) {journal : List LogLine} {sink : Sink}
    {outcome : Except Failure String}
    (answered : (stage.plainly journal sink).result (compile idle source override) = outcome)
    (expected : ∀ failure, outcome = .error failure → failure.isExpected)
    (uncancelled : outcome ≠ .error .cancelled) :
    let fire := interference depth
    let mounted := stage.after (take fire .mount)
    let shown := (mounted.after (take fire .work)).front
    stage.result (take fire .mount) = .ok () ∧ mounted.result (take fire .work) = .ok () ∧
      shown.running = 0 ∧ shown.Displays (outcome.mapError Failure.message) := by
  intro fire mounted shown
  have hsource : stage.front.source = source := by rw [front]
  have hquiet : stage.front.inbox = [] := by rw [front]
  have hcanonical : stage.host.pathExists (stage.host.canonical stage.front.source) := by
    rw [hsource, Host.pathExists_canonical normal]
    exact there
  obtain ⟨observers, hresult, hmounted⟩ := exists_take_mount fire hcanonical hquiet
  have hqueue : mounted.front.queue = override.getD [] :: [] := by
    simp only [mounted, hmounted, front]
    rfl
  -- the worker asks an engine of which the one that answered is the plain form
  have hinStep : InStep { stage.front.refresh with queue := [] } (stage.plainly journal sink)
      (modifyFront (fun explorer => { explorer with queue := [] }) mounted) := by
    simp only [mounted, hmounted]
    exact ⟨rfl, journal, sink, rfl⟩
  have hunscripted : ({ stage.front.refresh with queue := [] } : Explorer).scripts = [] := by
    rw [front]
    rfl
  have hrooted : Path.isAbsolute
      (modifyFront (fun explorer => { explorer with queue := [] }) mounted).host.directory := by
    simp only [mounted, hmounted]
    exact rooted
  have htied := Tied.compile hinStep hrooted (quiet_interference hunscripted depth) source
    fun command => effectiveArguments_eq command override
  obtain ⟨message, hmessage, hshown⟩ := exists_outcomeMessage expected uncancelled
  have hmountedSource : mounted.front.source = source := by
    simp only [mounted, hmounted]
    exact hsource
  rw [← hmountedSource] at htied answered
  obtain ⟨hworked, hfront⟩ := take_work_of_message hqueue (htied.result.symm.trans answered)
    htied.after.front hmessage hquiet
  replace hfront : shown = _ := hfront
  have hrunning : ({ stage.front.refresh with queue := [] } : Explorer).running = 1 := by
    rw [front]
    rfl
  refine ⟨hresult, hworked, ?_, ?_⟩
  · rw [hfront, (hshown _).1, hrunning]
  · rw [hfront]
    exact (hshown _).2

end ExplorerStage

/-! ### Printing -/

namespace Terminal

open Engine ExplorerStage

/-- The explorer that is opened, when nobody interferes with its runs. -/
def Opening.explorer (opening : Opening) (host : Host) : Except SettingsError ExplorerStage :=
  (ExplorerStage.create host opening.source (some opening.workspace) (opening.override.getD [])
    []).1

variable {host : Host} {request : Options.Request} {ending : ExplorerEnd} {exit : Exit}

/-- What a request for this source file opens the explorer on. -/
def openingOf (host : Host) (request : Options.Request) (file : String) : Opening where
  source := host.absolute file
  workspace := host.absolute ((request.workspace.bind Options.Value.content?).getD host.directory)
  override := (request.command.bind Options.Value.content?).map CommandLine.split

/-- The program prints the assembly of what it would open the explorer on. -/
theorem perform_eq {file : String} (named : request.file = some file) (nonempty : file ≠ "")
    (there : host.pathExists (host.absolute file)) (ending : ExplorerEnd) :
    let opening := openingOf host request file
    ∃ logTarget logTarget',
      perform host { request with print := true } ending =
        printAssembly host logTarget opening.source opening.workspace opening.override ∧
      perform host { request with print := false } ending =
        .ok (openExplorer host logTarget' opening ending) := by
  have hfile : (request.file.filter fun file => !file.isEmpty) = some file := by
    rw [named, Option.filter_some, if_pos]
    simpa using nonempty
  refine ⟨⟨request.verbose, request.logFile⟩, ⟨request.verbose,
    if request.logFile.isNone then some (.text defaultLogFile) else request.logFile⟩, ?_, ?_⟩
  · simp only [perform, hfile, there]
    simp [openingOf]
  · simp only [perform, hfile, there]
    simp [openingOf]

/-- The program compiles undisturbed, and then closes its engine. -/
theorem compileOnce_of_create {workspace : String} {engine : Engine Unit} (source : String)
    (override : Option (List String))
    (created : (Engine.create host workspace (.journal false) false ()).1 = .ok engine) :
    compileOnce host source workspace override =
      (engine.result (compile idle source override),
        (engine.after (compile idle source override)).closeAll.host) := by
  unfold compileOnce
  split
  · next heq =>
    rw [heq] at created
    cases created
  · next heq =>
    rw [heq] at created
    cases created
    rfl

/-- What is printed was compiled: the settings could be used. -/
theorem exists_engine {logTarget : LogTarget} {source workspace : String}
    {override : Option (List String)}
    (printed : printAssembly host logTarget source workspace override = .ok exit) :
    ∃ engine, (Engine.create host workspace (.journal false) false ()).1 = .ok engine := by
  cases hcreate : Engine.create host workspace (.journal false) false () with
  | mk created later =>
    cases created with
    | ok engine => exact ⟨engine, rfl⟩
    | error error =>
      have hcompiled : compileOnce host source workspace override =
          (.error (.settings error), later) := by
        rw [compileOnce, hcreate]
      rw [printAssembly, hcompiled] at printed
      cases printed

/-- What the program leaves behind after a compilation that ended like this. -/
def Exit.Prints (exit : Exit) : Except String String → Prop
  | .ok asm => exit.status = some 0 ∧ exit.output = withFinalLineFeed asm
  | .error _ => exit.status = some 1 ∧ exit.output = ""

/-- What is printed, if printing ends with an exit, is the outcome of the one run: the assembly or
the message of the failure, which is then one that was to be expected. -/
theorem prints_of_printAssembly {logTarget : LogTarget} {source workspace : String}
    {override : Option (List String)} {outcome : Except Failure String} {later : Host}
    (compiled : compileOnce host source workspace override = (outcome, later))
    (uncancelled : outcome ≠ .error .cancelled)
    (printed : printAssembly host logTarget source workspace override = .ok exit) :
    exit.host = later ∧ exit.Prints (outcome.mapError Failure.message) ∧
      ∀ failure, outcome = .error failure → failure.isExpected := by
  rw [printAssembly, compiled] at printed
  cases outcome with
  | ok asm =>
    cases printed
    exact ⟨rfl, ⟨rfl, rfl⟩, nofun⟩
  | error failure =>
    dsimp only at printed
    -- only a failure that is expected is printed; a cancelled run is excluded by the hypothesis
    split at printed
    · next heq => cases heq
    · next heq => exact absurd heq uncancelled
    · next other _ heq =>
      cases heq
      split at printed
      · next hexpected =>
        cases printed
        refine ⟨rfl, ⟨rfl, rfl⟩, ?_⟩
        rintro other ⟨⟩
        exact hexpected
      · cases printed

/-- The explorer opens where the engine that prints can be made. -/
theorem exists_explorer {file : String} (rooted : Path.isAbsolute host.directory)
    {engine : Engine Unit} :
    let opening := openingOf host request file
    (Engine.create host opening.workspace (.journal false) false ()).1 = .ok engine →
      ∃ stage, opening.explorer host = .ok stage ∧
        engine = stage.plainly stage.host.journal (.journal false) ∧
        stage.front = { source := opening.source, override := opening.override.getD [] } ∧
        host.Grown stage.host := by
  intro opening created
  -- the source of the opening is absolute already, and the workspace is not left open
  have hsource : host.absolute opening.source = opening.source :=
    Path.absolute_absolute rooted file
  have hnonempty : opening.workspace.isEmpty = false :=
    (Path.normal_absolute rooted _).isEmpty_eq
  let front : Explorer := { source := opening.source, override := opening.override.getD [] }
  have hexplorer : opening.explorer host =
      (Engine.create host opening.workspace (.buffer {}) true front).1 := by
    simp only [Opening.explorer, ExplorerStage.create, hsource, Option.filter_some, hnonempty]
    rfl
  rw [hexplorer]
  -- the two engines are created alike, but for the journal in place of the buffer
  rw [create_plainly host opening.workspace (.buffer {}) _ true front] at created
  cases hstage : (Engine.create host opening.workspace (.buffer {}) true front).1 with
  | error error =>
    rw [hstage] at created
    cases created
  | ok stage =>
    rw [hstage] at created
    cases created
    exact ⟨stage, rfl, rfl, front_of_create hstage, grown_create hstage⟩

section Outcome

variable {explorer : Explorer} {outcome : Except Failure String}
  (prints : exit.Prints (outcome.mapError Failure.message))
  (displays : explorer.Displays (outcome.mapError Failure.message))
include prints displays

/-- A text is printed exactly if the assembly that it is made from is displayed. -/
theorem printed_iff (text : String) :
    exit.status = some 0 ∧ exit.output = text ↔
      ∃ asm, explorer.Displays (.ok asm) ∧ text = withFinalLineFeed asm := by
  cases outcome with
  | ok asm =>
    constructor
    · rintro ⟨-, rfl⟩
      exact ⟨asm, displays, prints.2⟩
    · rintro ⟨other, hother, rfl⟩
      cases displays.eq hother
      exact prints
  | error failure =>
    constructor
    · rintro ⟨hstatus, -⟩
      rw [prints.1] at hstatus
      cases hstatus
    · rintro ⟨other, hother, -⟩
      cases displays.eq hother

/-- The program fails with a text exactly if that is displayed as an error. -/
theorem failed_iff (expected : ∀ failure, outcome = .error failure → failure.isExpected)
    (message : String) :
    (∃ failure, outcome = .error failure ∧ failure.isExpected ∧ failure.message = message) ∧
        exit.status = some 1 ↔ explorer.Displays (.error message) := by
  cases outcome with
  | ok asm =>
    constructor
    · rintro ⟨⟨failure, hfailure, -⟩, -⟩
      cases hfailure
    · intro hother
      cases displays.eq hother
  | error failure =>
    constructor
    · rintro ⟨⟨other, hother, -, rfl⟩, -⟩
      cases hother
      exact displays
    · intro hother
      cases displays.eq hother
      exact ⟨⟨failure, rfl, expected failure rfl, rfl⟩, prints.1⟩

omit displays in
/-- Where the program fails, it prints nothing. -/
theorem output_of_failed (failed : exit.status = some 1) : exit.output = "" := by
  cases outcome with
  | ok asm =>
    rw [prints.1] at failed
    cases failed
  | error failure => exact prints.2

end Outcome

variable (request) in
/-- **Printing and the explorer agree.** The source file is there, and whatever goes wrong when its
assembly is printed is reported. Then the explorer can be opened for the same request, and its first
worker finishes. The program prints an assembly and succeeds exactly if the explorer displays it; it
fails with an expected error exactly if the explorer displays its text, and prints nothing then. The
closed engine of the program has no observer and leaves no process of its own running. -/
theorem print_agrees_with_explorer {file : String} (depth : Nat)
    (rooted : Path.isAbsolute host.directory) (named : request.file = some file)
    (nonempty : file ≠ "") (there : host.pathExists (host.absolute file))
    (handled : perform host { request with print := true } ending = .ok exit) :
    ∃ opened opening stage engine,
      perform host { request with print := false } ending = .ok opened ∧
      opened.opening = some opening ∧
      opening.explorer host = .ok stage ∧
      (Engine.create host opening.workspace (.journal false) false ()).1 = .ok engine ∧
      let fire := interference depth
      let mounted := stage.after (take fire .mount)
      let shown := (mounted.after (take fire .work)).front
      let outcome := engine.result (compile idle opening.source opening.override)
      let closed := (engine.after (compile idle opening.source opening.override)).closeAll
      (stage.result (take fire .mount) = .ok () ∧ mounted.result (take fire .work) = .ok () ∧
        shown.running = 0) ∧
      (∀ text, exit.status = some 0 ∧ exit.output = text ↔
        ∃ asm, shown.Displays (.ok asm) ∧ text = withFinalLineFeed asm) ∧
      (∀ message, (∃ failure, outcome = .error failure ∧ failure.isExpected ∧
          failure.message = message) ∧ exit.status = some 1 ↔
        shown.Displays (.error message)) ∧
      (exit.status = some 1 → exit.output = "") ∧
      exit.host = closed.host ∧ closed.observers = [] ∧
        ∀ pid, closed.host.isRunning pid → host.isRunning pid := by
  obtain ⟨logTarget, logTarget', hprint, hopen⟩ := perform_eq named nonempty there ending
  rw [hprint] at handled
  obtain ⟨engine, hengine⟩ := exists_engine handled
  obtain ⟨stage, hstage, hplain, hfront, hgrown⟩ := exists_explorer rooted hengine
  have hopening : (openExplorer host logTarget' (openingOf host request file) ending).opening =
      some (openingOf host request file) := by
    cases ending <;> rfl
  refine ⟨_, openingOf host request file, stage, engine, hopen, hopening, hstage, hengine, ?_⟩
  intro fire mounted shown outcome closed
  -- `outcome` decides both sides: what the program leaves behind, and what the worker shows
  have huncancelled : outcome ≠ .error .cancelled :=
    result_compile_idle_ne_cancelled (.of_fresh (fresh_of_create hengine))
  obtain ⟨hhost, hprints, hexpected⟩ := prints_of_printAssembly
    (compileOnce_of_create _ _ hengine) huncancelled handled
  obtain ⟨hmounted, hworked, hrunning, hdisplays⟩ := displays_of_first_worker hfront
    (hgrown.directory ▸ rooted) (Path.normal_absolute rooted file) (hgrown.pathExists there) depth
    (by rw [← hplain]) hexpected huncancelled
  refine ⟨⟨hmounted, hworked, hrunning⟩, printed_iff hprints hdisplays,
    failed_iff hprints hdisplays hexpected, output_of_failed hprints, hhost, ?_, ?_⟩
  · have hclosed := observers_closeAll_compile stage (hgrown.directory ▸ rooted)
      stage.host.journal (.journal false) (openingOf host request file).source
      (openingOf host request file).override
    rwa [← hplain] at hclosed
  · intro pid hrunning
    have hbefore := (tidy_closeAll_compile engine _ _).2 pid hrunning
    rwa [Host.isRunning, Host.process?, (grown_create hengine).processes] at hbefore

/-- A machine on which the compiler of the one entry writes a line without a line feed. -/
def tersedHost : Host :=
  let index := "[\x7b\"directory\":\"/\",\"file\":\"a\",\"arguments\":[\"/g\"]\x7d]"
  { tree := ⟨[([['a']], .file { content := [] }),
      ([Engine.indexName.toList], .file { content := Utf8.encode index })], []⟩
    programs := [("/g", { output := some [Utf8.encode "\tret"] }), ("c++filt", {})] }

/-- The line is printed with a line feed. -/
theorem perform_tersedHost :
    (perform tersedHost { file := some "a", print := true } .closed).map
      (fun exit => (exit.status, exit.output)) = .ok (some 0, "\tret\n") := by
  decide +kernel

/-- The explorer displays an assembly from which the line is printed. -/
theorem print_agrees_with_explorer_sample :
    Path.isAbsolute tersedHost.directory ∧ tersedHost.pathExists (tersedHost.absolute "a") ∧
      ∃ exit, perform tersedHost { file := some "a", print := true } .closed = .ok exit ∧
        exit.output = "\tret\n" ∧
        ∃ opening stage, Opening.explorer opening tersedHost = .ok stage ∧
          let mounted := stage.after (take (interference 0) .mount)
          ∃ asm, (mounted.after (take (interference 0) .work)).front.Displays (.ok asm) ∧
            "\tret\n" = withFinalLineFeed asm := by
  have hthere : tersedHost.pathExists (tersedHost.absolute "a") := by decide +kernel
  have hperform := perform_tersedHost
  cases handled : perform tersedHost { file := some "a", print := true } .closed with
  | error failure =>
    rw [handled] at hperform
    cases hperform
  | ok exit =>
    rw [handled] at hperform
    obtain ⟨hstatus, houtput⟩ := Prod.mk.inj (Except.ok.inj hperform)
    obtain ⟨opened, opening, stage, engine, -, -, hstage, -, -, hprinted, -⟩ :=
      print_agrees_with_explorer { file := some "a" } 0 rfl rfl (by decide) hthere handled
    exact ⟨rfl, hthere, exit, rfl, houtput, opening, stage, hstage,
      (hprinted _).1 ⟨hstatus, houtput⟩⟩

end Terminal

end AsmScope
