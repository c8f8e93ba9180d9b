import AsmScope.Proofs.Undisturbed
/-! # Undisturbed runs

What a run answers when the rest of the program does nothing meanwhile is its forecast
(`answer_of_undisturbed_run`). -/

namespace AsmScope

namespace Engine

variable {α : Type}

/-! ### From the first start on -/

/-- Stopping a process writes nothing. -/
theorem sink_cleanUp_idle (engine : Engine α) (id : ProcessId) :
    ((cleanUp idle id).run engine).2.sink = engine.sink := by
  have hafter : ((cleanUp idle id).run engine).2 = { engine with host := engine.host.kill id } :=
    after_awaitExit_idle { engine with host := engine.host.kill id } id
  rw [hafter]

section Start

variable {β : Type} {engine : Engine α} {answer : Except Failure β} {Q : Engine α → Prop}
  {role : Role} {executable : String} {arguments : List String} {directory : Option String}
  {environment : Option (Table String String)} {next : ProcessId → Action α β}

/-- A program that can be started is started as the process after all others. -/
theorem Yields.startProgram_bind {program : Program}
    (startable : engine.host.startable role executable = .ok program)
    (rest : ∀ process : Process, process.program = program → process.isRunning →
      (role = .demangler → process.input = some []) →
      (engine.addProcess process).Yields (next engine.started) answer Q) :
    engine.Yields (startProgram idle role executable arguments directory environment >>= next)
      answer Q := by
  obtain ⟨hprogram, hspawn⟩ := Host.of_startable_ok startable
  have hstart := Host.start_of_spawnError_eq_none hprogram hspawn arguments directory environment
    (role = .demangler)
  have hrest := rest
    { program, executable, arguments, directory, environment
      input := if role = .demangler then some [] else none } rfl rfl fun hrole => if_pos hrole
  refine .bind_of (Task.result_startProgram_of_ok hstart) ?_ hrest
  rw [Task.after_startProgram_of_ok hstart, after_interfere_idle]
  cases role <;> rfl

/-- A run fails with the program that it cannot start. -/
theorem Yields.startProgram_bind_error {failure : Failure}
    (startable : engine.host.startable role executable = .error failure) :
    engine.Yields (startProgram idle role executable arguments directory environment >>= next)
      (.error failure) Q := by
  obtain ⟨error, rfl, hstart⟩ := Host.of_startable_error startable arguments directory environment
    (role = .demangler)
  exact .bind_error (Task.result_startProgram_of_error hstart)

end Start

variable {engine : Engine α} {token : TokenId}

/-- From the start of the demangler on, a run answers what both programs do together. -/
theorem yields_startDemangler (going : engine.isCancelled token = false) {compiler : Process}
    (runs : compiler.isRunning) (located : Json) (compilerName : String) :
    (engine.addProcess compiler).Yields
      (do
        let some name := located.text? | throw .settingNotText
        let demanglerId ← startProgram idle .demangler name [] none none
        ensuring
          (translateRegistered idle token ⟨engine.started, demanglerId⟩ compilerName name)
          (cleanUp idle demanglerId))
      (programsWith engine.host compilerName compiler.program located >>= Programs.output)
      fun later => ∃ programs,
        programsWith engine.host compilerName compiler.program located = .ok programs ∧
          later.sink.shown = (engine.sink.shown || programs.speak) := by
  unfold programsWith
  cases located.text? with
  | none => exact .of_error rfl
  | some name =>
    dsimp only
    cases hstartable : engine.host.startable .demangler name with
    | error failure => exact .startProgram_bind_error hstartable
    | ok demangler =>
      -- both processes are there, numbered one after the other
      refine .startProgram_bind hstartable ?_
      rintro process rfl hruns hinput
      have hlt : engine.started < (engine.addProcess compiler).started :=
        Nat.lt_of_lt_of_eq (Nat.lt_succ_self _) (starts_addProcess engine compiler).started_eq.symm
      have hcompiler : (engine.addProcess compiler).host.process? engine.started = some compiler :=
        List.getElem?_concat_length
      have hholds : ((engine.addProcess compiler).addProcess process).Holds token
          ⟨engine.started, (engine.addProcess compiler).started⟩ compiler process :=
        ⟨going, Nat.ne_of_lt hlt, (List.getElem?_append_left hlt).trans hcompiler,
          List.getElem?_concat_length⟩
      refine .ensuring (hholds.translateRegistered runs hruns (hinput rfl) compilerName name) ?_
      intro later hlater
      refine ⟨_, rfl, ?_⟩
      rw [sink_cleanUp_idle, hlater]
      rfl

/-- What is announced does not matter to what a run answers. -/
theorem yields_announce (engine : Engine α) (invocation : Invocation) :
    engine.Yields (Task.announce invocation)
      (match (engine.locator.locate engine.host invocation.executable).1 with
        | .error .nameNotText => .error .settingNotText
        | .ok located => .ok located)
      fun later => engine.SameRuns later ∧ later.sink.shown = engine.sink.shown := by
  cases hlocate : engine.locator.locate engine.host invocation.executable with
  | mk located locator =>
    cases located with
    | error error =>
      refine .bind_error ?_
      rw [locateDemangler, result_get_bind, hlocate]
      rfl
    | ok located =>
      -- the two lines of the announcement come after the demangler is known
      have hresult : engine.result (locateDemangler invocation.executable) = .ok located := by
        rw [locateDemangler, result_get_bind, hlocate]
        rfl
      have hafter : engine.after (locateDemangler invocation.executable) =
          { engine with locator } := by
        rw [locateDemangler, after_get_bind, hlocate]
        rfl
      refine .bind_of hresult hafter (.modify_bind (.modify_bind (.of_ok rfl ⟨?_, ?_⟩)))
      · have hsame := Task.sameRuns_announce invocation engine
        rwa [Task.announce, after_bind, hresult, hafter] at hsame
      · rw [after_pure, shown_appendLine, shown_appendLine]

/-- **An undisturbed run of a command answers its forecast**, and shows the output lines if one of
its programs has said something. -/
theorem yields_compileCommand (going : engine.isCancelled token = false) (command : CompileCommand)
    (source : String) (override : Option (List String)) :
    engine.Yields (compileCommand idle token command source override)
      (engine.forecast command source override) fun later => ∃ programs,
        engine.programs command source override = .ok programs ∧
          later.sink.shown = (engine.sink.shown || programs.speak) := by
  refine .get_bind ?_
  unfold forecast programs
  cases Invocation.build? command (engine.host.absolute source) override engine.rewrites with
  | none => exact .of_error rfl
  | some invocation =>
    dsimp only
    rw [← Task.announce_bind]
    have hannounce := engine.yields_announce invocation
    cases hlocate : (engine.locator.locate engine.host invocation.executable).1 with
    | error error =>
      rw [hlocate] at hannounce
      exact .bind_error hannounce.result
    | ok located =>
      rw [hlocate] at hannounce
      refine .bind_ok hannounce ?_
      rintro announced ⟨hsame, hshown⟩
      refine .get_bind ?_
      cases hstartable : engine.host.startable .compiler invocation.executable with
      | error failure =>
        rw [← Host.startable_congr hsame.programs] at hstartable
        exact .startProgram_bind_error hstartable
      | ok compiler =>
        -- what is announced and what is started leave the programs of the host as they are
        rw [← Host.startable_congr hsame.programs] at hstartable
        refine .startProgram_bind hstartable ?_
        rintro process rfl hruns -
        have hgoing : announced.isCancelled token = false := by
          rw [isCancelled, hsame.tokens]
          exact going
        have hrest := yields_startDemangler hgoing hruns located invocation.executable
        rw [programsWith_congr hsame.programs] at hrest
        refine .map (.ensuring hrest ?_) _
        rintro later ⟨programs, hprograms, hlater⟩
        refine ⟨programs, hprograms, ?_⟩
        rw [sink_cleanUp_idle, hlater, hshown]

/-! ### From the beginning to the end -/

/-- Killing the processes of runs touches the processes and the stopwatch only. -/
theorem foldl_killRun_eq (runs : List RunProcesses) (host : Host) :
    ∃ processes stopwatch, runs.foldl killRun host = { host with processes, stopwatch } := by
  induction runs generalizing host with
  | nil => exact ⟨_, _, rfl⟩
  | cons run runs ih =>
    obtain ⟨processes, stopwatch, hrest⟩ := ih (killRun host run)
    exact ⟨processes, stopwatch, by rw [List.foldl_cons, hrest]; rfl⟩

/-- What a run that begins changes: the tokens, the run in progress, and the run before it. -/
theorem beginCompilation_eq (engine : Engine α) (id : DatabaseId) :
    ∃ processes stopwatch databases tokens, (engine.beginCompilation id).2 = { engine with
      host := { engine.host with processes, stopwatch }, databases, tokens } := by
  simp only [beginCompilation]
  split
  · next previous _ =>
    simp only [cancelToken]
    split
    · exact ⟨_, _, _, _, rfl⟩
    · next token _ =>
      obtain ⟨processes, stopwatch, hkilled⟩ := foldl_killRun_eq token.cancel.2 engine.host
      exact ⟨processes, stopwatch, _, _, by simp only [modifyDatabase, hkilled]; rfl⟩
  · exact ⟨_, _, _, _, rfl⟩

/-- A run that begins does not change what a run gives. -/
theorem programs_beginCompilation (engine : Engine α) (id : DatabaseId) (command : CompileCommand)
    (source : String) (override : Option (List String)) :
    (engine.beginCompilation id).2.programs command source override =
      engine.programs command source override := by
  obtain ⟨processes, stopwatch, databases, tokens, hbegun⟩ := engine.beginCompilation_eq id
  rw [hbegun]
  rfl

/-- Beginning a compilation writes nothing. -/
theorem sink_beginCompilation (engine : Engine α) (id : DatabaseId) :
    (engine.beginCompilation id).2.sink = engine.sink := by
  obtain ⟨processes, stopwatch, databases, tokens, hbegun⟩ := engine.beginCompilation_eq id
  rw [hbegun]

/-! ### The whole run -/

variable {id : DatabaseId} {source : String} {override : Option (List String)}

/-- The programs of an undisturbed run answer the forecast of the engine before the run. -/
theorem Begins.yields_compile {task : Task α} {begun : Engine α}
    (h : engine.Begins idle id source override task begun) (reachable : Reachable engine) :
    begun.Yields task.compile (engine.forecast task.command source override) fun later =>
      ∃ programs, engine.programs task.command source override = .ok programs ∧
        later.sink.shown = (engine.sink.shown || programs.speak) := by
  have hprograms := engine.programs_beginCompilation id task.command source override
  have hsink := engine.sink_beginCompilation id
  rw [h.start] at hprograms hsink
  have hcompile := yields_compileCommand (reachable.grounded.isCancelled_begun h.start) task.command
    source override
  rw [forecast, hprograms, hsink] at hcompile
  rw [Task.compile, h.fire, h.source, h.override]
  exact hcompile

/-- An undisturbed run of a source with a command answers the forecast. -/
theorem result_run_idle (reachable : Reachable engine) {command : CompileCommand}
    (hcommand : engine.lookup id source = some command) :
    engine.result (run idle id source override) =
      timedBy (engine.beginCompilation id).2.host.seconds?
        (engine.after (run idle id source override)).host.seconds?
        (engine.forecast command source override) := by
  obtain ⟨token, begun, hstart⟩ : ∃ token begun, engine.beginCompilation id = (token, begun) :=
    ⟨_, _, rfl⟩
  rw [hstart]
  cases hreadable : begun.host.seconds? with
  | none => exact result_run_of_unreadable hcommand hstart hreadable
  | some start =>
    have hbegins : engine.Begins idle id source override ⟨idle, token, command, source, override⟩
        begun := begins_of_readable hcommand hstart hreadable
    have hcompile := (hbegins.yields_compile reachable).result
    rw [hbegins.result_run, map_result_timed, hreadable, hcompile, hbegins.after_run, Host.seconds?,
      Host.seconds?, endCompilation, modifyDatabase, stopwatch_reportOutcome]

/-- The sink is shown after a success if it was shown before, or if one of the programs spoke. -/
theorem shown_run_idle (reachable : Reachable engine) {text : String}
    (h : engine.result (run idle id source override) = .ok text) :
    ∃ command programs, engine.lookup id source = some command ∧
      engine.programs command source override = .ok programs ∧
        (engine.after (run idle id source override)).sink.shown =
          (engine.sink.shown || programs.speak) := by
  obtain ⟨task, begun, hbegins, hcompile⟩ := exists_begins_of_ok h
  have hyields := hbegins.yields_compile reachable
  obtain ⟨programs, hprograms, hshown⟩ := hyields.after ⟨text, by rw [← hyields.result, hcompile]⟩
  refine ⟨task.command, programs, hbegins.command, hprograms, ?_⟩
  rw [← hshown, hbegins.after_run]
  rw [hbegins.result_run] at h
  cases htimed : begun.result (timed task.compile) with
  | error failure =>
    rw [htimed] at h
    cases h
  | ok timing => exact shown_appendLine _ _

/-- **The outcome of an undisturbed run.** A source without a command changes nothing. Otherwise the
run answers its forecast: the first thing that goes wrong, or the text. A failure of the run is the
last output line, and the lines are shown; after a success they are shown if they were shown before
or one of the programs has said something. -/
theorem answer_of_undisturbed_run {engine : Engine α} (reachable : Reachable engine)
    (id : DatabaseId) (source : String) (override : Option (List String)) :
    let result := engine.result (run idle id source override)
    let later := engine.after (run idle id source override)
    (engine.lookup id source = none → result = .error (.noCommand source) ∧ later = engine) ∧
      (∀ command, engine.lookup id source = some command →
        result = timedBy (engine.beginCompilation id).2.host.seconds? later.host.seconds?
          (engine.forecast command source override)) ∧
      (∀ failure, result = .error failure → failure ≠ .noCommand source →
        failure ≠ .settingNotText → failure ≠ .beyondFormat →
          later.LastLine failure.message ∧ later.sink.shown) ∧
      (∀ text, result = .ok text → ∃ command programs, engine.lookup id source = some command ∧
        engine.programs command source override = .ok programs ∧
          later.sink.shown = (engine.sink.shown || programs.speak)) := by
  refine ⟨fun hnone => ⟨result_run_of_none hnone, after_run_of_none hnone⟩,
    fun command hcommand => result_run_idle reachable hcommand, ?_,
    fun text htext => shown_run_idle reachable htext⟩
  intro failure hfailure hcommand hsetting hformat
  -- what is left is a failure of the run itself, and those are always told
  refine lastLine_run hfailure ?_
  cases hlookup : engine.lookup id source with
  | none =>
    rw [result_run_of_none hlookup] at hfailure
    exact absurd (Except.error.inj hfailure).symm hcommand
  | some command =>
    rw [result_run_idle reachable hlookup] at hfailure
    exact isRunFailure_of_forecast (of_timedBy_error hfailure hformat) hsetting

end Engine

namespace Scenario

open Engine

/-- The sample with a compiler that fails. -/
def failingStage : Stage :=
  { sampleStage with host := { programs := [("g++", { exitCode := 1 }), ("c++filt", {})] } }

/-- The run of the sample whose compiler fails tells so in its last line. -/
theorem answer_of_undisturbed_run_sample :
    failingStage.result (run idle 0 "a" none) = .error (.compilerExit "g++" 1) ∧
      (failingStage.after (run idle 0 "a" none)).LastLine
        "compilation failed: g++ exited with code 1" ∧
      (failingStage.after (run idle 0 "a" none)).sink.shown := by
  have hreachable : Reachable failingStage := .fresh rfl (by simp [failingStage, sampleStage])
  obtain ⟨-, hanswer, htold, -⟩ := answer_of_undisturbed_run hreachable 0 "a" none
  have hcommand : failingStage.lookup 0 "a" = some ⟨"/", "a", ["g++"]⟩ := by decide +kernel
  have hfailure : failingStage.result (run idle 0 "a" none) = .error (.compilerExit "g++" 1) := by
    rw [hanswer _ hcommand]
    decide +kernel
  have hmessage : Failure.message (.compilerExit "g++" 1) =
      "compilation failed: g++ exited with code 1" := by decide +kernel
  have hlast := htold _ hfailure (by decide) (by decide) (by decide)
  rw [hmessage] at hlast
  exact ⟨hfailure, hlast⟩

end Scenario

end AsmScope
