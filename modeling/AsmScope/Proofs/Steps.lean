import AsmScope.Proofs.Timeline
/-! # The steps of a run

All that a step of a run can do, case by case and with the conditions under which it does it
(`step_spec`). Whatever is kept by every case holds at every moment of every run. -/

namespace AsmScope

open Engine

/-- The code with which a process has ended. -/
def Engine.exitCode {α : Type} (engine : Engine α) (id : ProcessId) : Int :=
  ((engine.host.process? id).bind Process.code?).getD 0

/-- The code with which a process has ended is that in its status. -/
theorem Engine.exitCode_of_found {α : Type} {engine : Engine α} {id : ProcessId}
    {process : Process} {code : Int} (found : engine.host.process? id = some process)
    (ended : process.status = .exited code) : engine.exitCode id = code := by
  rw [exitCode, found, Option.bind_some, Process.code?, ended]
  rfl

namespace Task

variable {α : Type}

/-- What a step can do while both processes are registered. -/
inductive PassageStep (task : Task α) (pair : Pair) :
    Passage → Engine α → Point → Engine α → Prop
  | readEnd {index : Nat} {engine : Engine α} :
      PassageStep task pair (.read index []) engine (.translating pair .ended)
        (engine.after (interfereWhileRunning task.fire pair.compiler .beforeEnd))
  | readChunk {index : Nat} {chunk : Bytes} {rest : List Bytes} {engine : Engine α} :
      PassageStep task pair (.read index (chunk :: rest)) engine
        (.translating pair (.received index chunk rest))
        (engine.after (interfereWhileRunning task.fire pair.compiler (.beforeChunk index)))
  /-- An empty chunk, or that of a compiler that was killed, is the end. -/
  | receivedEnd {index : Nat} {chunk : Bytes} {rest : List Bytes} {engine : Engine α}
      (last : chunk.isEmpty || engine.wasKilled pair.compiler) :
      PassageStep task pair (.received index chunk rest) engine (.translating pair .ended) engine
  | received {index : Nat} {chunk : Bytes} {rest : List Bytes} {engine : Engine α}
      (more : ¬(chunk.isEmpty || engine.wasKilled pair.compiler))
      (going : engine.isCancelled task.token = false) :
      PassageStep task pair (.received index chunk rest) engine
        (.translating pair (.write index chunk rest)) engine
  | write {index : Nat} {chunk : Bytes} {rest : List Bytes} {engine : Engine α} :
      PassageStep task pair (.write index chunk rest) engine
        (.translating pair (.deliver index chunk rest))
        (engine.after (interfere task.fire pair.demangler (.beforeWrite index)))
  | taken {index : Nat} {chunk : Bytes} {rest : List Bytes} {engine : Engine α}
      {process : Process} (found : engine.host.process? pair.demangler = some process)
      (running : process.isRunning) (accepts : process.program.failingWrite ≠ some index) :
      PassageStep task pair (.deliver index chunk rest) engine
        (.translating pair (.read (index + 1) rest))
        { engine with host := engine.host.modifyProcess pair.demangler fun p => p.receive chunk }
  | notTaken {index : Nat} {chunk : Bytes} {rest : List Bytes} {engine : Engine α}
      (fails : ∀ process, engine.host.process? pair.demangler = some process → process.isRunning →
        process.program.failingWrite = some index) :
      PassageStep task pair (.deliver index chunk rest) engine (.translating pair .refused) engine
  | refused {engine : Engine α} (going : engine.isCancelled task.token = false) :
      PassageStep task pair .refused engine
        (.unregister pair (.error (.inputRefused ⟨.brokenPipe, none⟩))) engine
  | ended {engine : Engine α} (going : engine.isCancelled task.token = false) :
      PassageStep task pair .ended engine (.translating pair .awaitCompiler)
        { engine with host := engine.host.finish pair.compiler }
  | endedCancelled {engine : Engine α} (cancelled : engine.isCancelled task.token) :
      PassageStep task pair .ended engine (.unregister pair (.error .cancelled))
        { engine with host := engine.host.finish pair.compiler }
  | awaitCompiler {engine later : Engine α}
      (waited : later = engine.after (awaitExit task.fire pair.compiler)) :
      PassageStep task pair .awaitCompiler engine
        (.translating pair (.checkCompiler (later.exitCode pair.compiler)))
        (later.after (reportDiagnostics pair.compiler))
  | compilerFailed {code : Int} {engine : Engine α} (going : engine.isCancelled task.token = false)
      (nonzero : code ≠ 0) :
      PassageStep task pair (.checkCompiler code) engine
        (.unregister pair (.error (.compilerExit pair.compilerName code))) engine
  | compilerDone {engine : Engine α} (going : engine.isCancelled task.token = false) :
      PassageStep task pair (.checkCompiler 0) engine (.translating pair .closing) engine
  | closing {engine : Engine α} :
      PassageStep task pair .closing engine (.translating pair .close)
        (engine.after (interfereWhileRunning task.fire pair.demangler .beforeClose))
  | closed {engine : Engine α} {process : Process}
      (found : engine.host.process? pair.demangler = some process)
      (closes : process.program.failsClose = false) :
      PassageStep task pair .close engine (.translating pair .awaitDemangler)
        { engine with host := engine.host.endInput pair.demangler }
  | notClosed {engine : Engine α}
      (fails : ∀ process, engine.host.process? pair.demangler = some process →
        process.program.failsClose) :
      PassageStep task pair .close engine (.translating pair .refused) engine
  | awaitDemangler {engine later : Engine α}
      (waited : later = engine.after (awaitExit task.fire pair.demangler)) :
      PassageStep task pair .awaitDemangler engine
        (.translating pair (.checkDemangler (later.exitCode pair.demangler)))
        (later.after (reportDiagnostics pair.demangler))
  | demanglerFailed {code : Int} {engine : Engine α}
      (going : engine.isCancelled task.token = false) (nonzero : code ≠ 0) :
      PassageStep task pair (.checkDemangler code) engine
        (.unregister pair (.error (.demanglerExit pair.demanglerName code))) engine
  | demanglerDone {engine : Engine α} (going : engine.isCancelled task.token = false) :
      PassageStep task pair (.checkDemangler 0) engine
        (.unregister pair
          (.ok (((engine.host.process? pair.demangler).map fun p => p.output).getD []))) engine
  /-- Wherever the token is looked at, a cancelled run fails. -/
  | cancelled {passage : Passage} {engine : Engine α} (cancelled : engine.isCancelled task.token) :
      PassageStep task pair passage engine (.unregister pair (.error .cancelled)) engine

/-- What a step can do. -/
inductive Step (task : Task α) : Point → Engine α → Point → Engine α → Prop
  | empty {engine : Engine α}
      (none : Invocation.build? task.command (engine.host.absolute task.source) task.override
        engine.rewrites = none) :
      Step task .prepare engine (.finished (.error (.emptyCommand task.command.file))) engine
  | notLocated {engine : Engine α} {invocation : Invocation} {failure : Failure}
      (built : Invocation.build? task.command (engine.host.absolute task.source) task.override
        engine.rewrites = some invocation)
      (failed : engine.result (announce invocation) = .error failure) :
      Step task .prepare engine (.finished (.error failure)) (engine.after (announce invocation))
  | prepared {engine : Engine α} {invocation : Invocation} {demangler : Json}
      (built : Invocation.build? task.command (engine.host.absolute task.source) task.override
        engine.rewrites = some invocation)
      (located : engine.result (announce invocation) = .ok demangler) :
      Step task .prepare engine (.startCompiler invocation demangler)
        (engine.after (announce invocation))
  | compilerNotStarted {engine : Engine α} {invocation : Invocation} {demangler : Json}
      {error : SystemError}
      (failed : engine.host.start invocation.executable invocation.arguments
        (engine.compilerDirectory task.command) engine.compilerEnvironment false = .error error) :
      Step task (.startCompiler invocation demangler) engine
        (.finished (.error (.spawn .compiler invocation.executable error))) engine
  | compilerStarted {engine : Engine α} {invocation : Invocation} {demangler : Json}
      {id : ProcessId} {host : Host}
      (started : engine.host.start invocation.executable invocation.arguments
        (engine.compilerDirectory task.command) engine.compilerEnvironment false = .ok (id, host)) :
      Step task (.startCompiler invocation demangler) engine
        (.startDemangler invocation.executable demangler id)
        ({ engine with host }.after (interfere task.fire id .spawned))
  | nameNotText {engine : Engine α} {compilerName : String} {demangler : Json}
      {compiler : ProcessId} (noText : demangler.text? = none) :
      Step task (.startDemangler compilerName demangler compiler) engine
        (.stopCompiler compiler (.error .settingNotText)) engine
  | demanglerNotStarted {engine : Engine α} {compilerName name : String} {demangler : Json}
      {compiler : ProcessId} {error : SystemError} (text : demangler.text? = some name)
      (failed : engine.host.start name [] none none true = .error error) :
      Step task (.startDemangler compilerName demangler compiler) engine
        (.stopCompiler compiler (.error (.spawn .demangler name error))) engine
  | demanglerStarted {engine : Engine α} {compilerName name : String} {demangler : Json}
      {compiler id : ProcessId} {host : Host} (text : demangler.text? = some name)
      (started : engine.host.start name [] none none true = .ok (id, host)) :
      Step task (.startDemangler compilerName demangler compiler) engine
        (.register ⟨⟨compiler, id⟩, compilerName, name⟩)
        ({ engine with host }.after (interfere task.fire id .spawned))
  | register {engine later : Engine α} {pair : Pair}
      (registered : later = engine.registerRun task.token pair.toRunProcesses) :
      Step task (.register pair) engine
        (.translating pair (.read 0
          (((later.host.process? pair.compiler).map fun p => p.program.chunks).getD []))) later
  | translating {engine later : Engine α} {pair : Pair} {passage : Passage} {next : Point}
      (step : PassageStep task pair passage engine next later) :
      Step task (.translating pair passage) engine next later
  | unregister {engine : Engine α} {pair : Pair} {outcome : Except Failure Bytes} :
      Step task (.unregister pair outcome) engine (.stopDemangler pair.toRunProcesses outcome)
        (engine.unregisterRun task.token pair.toRunProcesses)
  | stopDemangler {engine : Engine α} {processes : RunProcesses}
      {outcome : Except Failure Bytes} :
      Step task (.stopDemangler processes outcome) engine
        (.stopCompiler processes.compiler outcome)
        ((cleanUp task.fire processes.demangler).run engine).2
  | stopCompiler {engine : Engine α} {compiler : ProcessId} {outcome : Except Failure Bytes} :
      Step task (.stopCompiler compiler outcome) engine
        (.finished (outcome.map fun output =>
          Assembly.stripDirectives (Utf8.decodeReplacing output)))
        ((cleanUp task.fire compiler).run engine).2
  | finished {engine : Engine α} {outcome : Except Failure String} :
      Step task (.finished outcome) engine (.finished outcome) engine

/-- A step that only does one thing and goes on. -/
theorem step_of_bind_pure {β : Type} {task : Task α} {point : Point} {engine : Engine α}
    {action : Action α β} {value : β} {next : β → Point}
    (h : task.advance point = action >>= fun value => pure (next value))
    (result : engine.result action = .ok value) :
    task.step (point, engine) = (next value, engine.after action) := by
  rw [step, h, result_bind_pure, after_bind_pure, result]
  rfl

/-- What others do at a moment is no failure of the run. -/
theorem result_interfere (engine : Engine α) (fire : Interference α) (id : ProcessId)
    (moment : Moment) : engine.result (interfere fire id moment) = .ok ⟨⟩ := rfl

/-- A moment that is reached only while a process runs is no failure of the run. -/
theorem result_interfereWhileRunning (engine : Engine α) (fire : Interference α) (id : ProcessId)
    (moment : Moment) : engine.result (interfereWhileRunning fire id moment) = .ok ⟨⟩ := by
  rw [interfereWhileRunning, result_get_bind]
  split <;> rfl

/-- The code of a process is read after the rest of the program has acted. -/
theorem result_awaitExit (engine : Engine α) (fire : Interference α) (id : ProcessId) :
    engine.result (awaitExit fire id) =
      .ok ((engine.after (awaitExit fire id)).exitCode id) := by
  rw [awaitExit, result_get_bind, after_get_bind]
  split <;> rfl

/-- Reporting what a process wrote is no failure of the run. -/
theorem result_reportDiagnostics (engine : Engine α) (id : ProcessId) :
    engine.result (reportDiagnostics id) = .ok ⟨⟩ := by
  rw [reportDiagnostics, result_get_bind]
  dsimp only
  split <;> rfl

/-- Waiting and reporting are one step. -/
theorem step_of_await {task : Task α} {point : Point} {id : ProcessId} {next : Int → Point}
    {engine : Engine α}
    (h : task.advance point = (do
      let code ← awaitExit task.fire id
      reportDiagnostics id
      return next code)) :
    task.step (point, engine) =
      (next ((engine.after (awaitExit task.fire id)).exitCode id),
        (engine.after (awaitExit task.fire id)).after (reportDiagnostics id)) := by
  rw [step, h, result_bind, after_bind, result_awaitExit]
  dsimp only
  rw [result_bind_pure, after_bind_pure, result_reportDiagnostics]
  rfl

/-- Looking at the token and at an exit code is one step. -/
theorem step_of_check {task : Task α} {point next : Point} {code : Int} {failure : Failure}
    {engine : Engine α} {rest : Action α Point}
    (h : task.advance point = do
      checkToken task.token
      if code ≠ 0 then throw failure
      rest)
    (result : engine.result rest = .ok next) (after : engine.after rest = engine) :
    task.step (point, engine) =
      (if engine.isCancelled task.token then point.failed .cancelled
        else if code ≠ 0 then point.failed failure else next, engine) := by
  rw [step, h, result_bind, after_bind, result_checkToken, after_checkToken]
  cases engine.isCancelled task.token with
  | true => rfl
  | false =>
    by_cases hcode : code = 0
    · simp [hcode, result, after]
    · simp [hcode]

section Passages

variable (task : Task α) (pair : Pair) (engine : Engine α)

/-- What the program does with a chunk that was received is one of the steps that there can be. -/
theorem passageStep_received (index : Nat) (chunk : Bytes) (rest : List Bytes) :
    task.PassageStep pair (.received index chunk rest) engine
      (task.step (.translating pair (.received index chunk rest), engine)).1
      (task.step (.translating pair (.received index chunk rest), engine)).2 := by
  -- an empty chunk or a killed compiler ends the reading before the token is looked at
  by_cases hend : chunk.isEmpty || engine.wasKilled pair.compiler
  · have hstep : task.step (.translating pair (.received index chunk rest), engine) =
        (.translating pair .ended, engine) := by
      rw [step, advance, advancePassage, result_get_bind, after_get_bind, if_pos hend]
      rfl
    rw [hstep]
    exact .receivedEnd hend
  · have hstep : task.step (.translating pair (.received index chunk rest), engine) =
        (if engine.isCancelled task.token then .unregister pair (.error .cancelled)
          else .translating pair (.write index chunk rest), engine) := by
      rw [step, advance, advancePassage, result_get_bind, after_get_bind, if_neg hend,
        result_bind_pure, after_bind_pure, result_checkToken, after_checkToken]
      cases engine.isCancelled task.token <;> rfl
    rw [hstep]
    cases hcancelled : engine.isCancelled task.token with
    | false => exact .received hend hcancelled
    | true => exact .cancelled hcancelled

/-- What the program does with a chunk that is to be delivered is one of the steps that there can
be. -/
theorem passageStep_deliver (index : Nat) (chunk : Bytes) (rest : List Bytes) :
    task.PassageStep pair (.deliver index chunk rest) engine
      (task.step (.translating pair (.deliver index chunk rest), engine)).1
      (task.step (.translating pair (.deliver index chunk rest), engine)).2 := by
  rw [step, advance, advancePassage, result_get_bind, after_get_bind]
  cases hprocess : engine.host.process? pair.demangler with
  | none => exact .notTaken (by simp [hprocess])
  | some process =>
    dsimp only
    by_cases hfails : !process.isRunning || process.program.failingWrite == some index
    · rw [if_pos hfails]
      refine .notTaken ?_
      rintro found hfound hrunning
      obtain rfl : process = found := Option.some.inj (hprocess.symm.trans hfound)
      simpa [hrunning] using hfails
    · rw [if_neg hfails]
      simp only [Bool.or_eq_true, Bool.not_eq_true', beq_iff_eq, not_or,
        Bool.not_eq_false] at hfails
      exact .taken hprocess hfails.1 hfails.2

/-- What the program does at the end of the output is one of the steps that there can be. -/
theorem passageStep_ended :
    task.PassageStep pair .ended engine (task.step (.translating pair .ended, engine)).1
      (task.step (.translating pair .ended, engine)).2 := by
  -- ending the compiler does not change whether the token is cancelled
  have hsame : ({ engine with host := engine.host.finish pair.compiler } : Engine α).isCancelled
      task.token = engine.isCancelled task.token := rfl
  rw [step, advance, advancePassage, result_bind_pure, after_bind_pure, endOutput,
    result_modify_bind, after_modify_bind, result_checkToken, after_checkToken, hsame]
  cases hcancelled : engine.isCancelled task.token with
  | false => exact .ended hcancelled
  | true => exact .endedCancelled hcancelled

/-- What the program does about the input of the demangler is one of the steps that there can be. -/
theorem passageStep_close :
    task.PassageStep pair .close engine (task.step (.translating pair .close, engine)).1
      (task.step (.translating pair .close, engine)).2 := by
  rw [step, advance, advancePassage, result_get_bind, after_get_bind]
  cases hprocess : engine.host.process? pair.demangler with
  | none => exact .notClosed (by simp [hprocess])
  | some process =>
    dsimp only
    by_cases hfails : process.program.failsClose
    · rw [if_pos hfails]
      exact .notClosed (by simp [hprocess, hfails])
    · rw [if_neg hfails]
      exact .closed hprocess (Bool.eq_false_iff.2 hfails)

/-- What the program does at a passage is one of the steps that there can be. -/
theorem passageStep_step (passage : Passage) :
    task.PassageStep pair passage engine (task.step (.translating pair passage, engine)).1
      (task.step (.translating pair passage, engine)).2 := by
  cases passage with
  | read index rest =>
    cases rest with
    | nil =>
      rw [step_of_bind_pure rfl (result_interfereWhileRunning _ _ _ _)]
      exact .readEnd
    | cons chunk rest =>
      rw [step_of_bind_pure rfl (result_interfereWhileRunning _ _ _ _)]
      exact .readChunk
  | received index chunk rest => exact passageStep_received task pair engine index chunk rest
  | write index chunk rest =>
    rw [step_of_bind_pure rfl (result_interfere _ _ _ _)]
    exact .write
  | deliver index chunk rest => exact passageStep_deliver task pair engine index chunk rest
  | refused =>
    rw [step, advance, advancePassage, result_refuseInput, after_refuseInput]
    -- a refused write is a cancellation if the token says so
    cases hcancelled : engine.isCancelled task.token with
    | false => exact .refused hcancelled
    | true => exact .cancelled hcancelled
  | ended => exact passageStep_ended task pair engine
  | awaitCompiler =>
    rw [step_of_await rfl]
    exact .awaitCompiler rfl
  -- the token is looked at before the exit code
  | checkCompiler code =>
    rw [step_of_check rfl rfl rfl]
    cases hcancelled : engine.isCancelled task.token with
    | true => exact .cancelled hcancelled
    | false =>
      by_cases hcode : code = 0
      · subst hcode
        exact .compilerDone hcancelled
      · rw [if_neg Bool.false_ne_true, if_pos hcode]
        exact .compilerFailed hcancelled hcode
  | closing =>
    rw [step_of_bind_pure rfl (result_interfereWhileRunning _ _ _ _)]
    exact .closing
  | close => exact passageStep_close task pair engine
  | awaitDemangler =>
    rw [step_of_await rfl]
    exact .awaitDemangler rfl
  | checkDemangler code =>
    rw [step_of_check rfl rfl rfl]
    cases hcancelled : engine.isCancelled task.token with
    | true => exact .cancelled hcancelled
    | false =>
      by_cases hcode : code = 0
      · subst hcode
        exact .demanglerDone hcancelled
      · rw [if_neg Bool.false_ne_true, if_pos hcode]
        exact .demanglerFailed hcancelled hcode

end Passages

section Starting

variable {engine : Engine α} {fire : Interference α} {role : Role} {executable : String}
  {arguments : List String} {directory : Option String}
  {environment : Option (Table String String)}

/-- A program that cannot be started is a failure that says in which role. -/
theorem result_startProgram_of_error {error : SystemError}
    (h : engine.host.start executable arguments directory environment (role = .demangler) =
      .error error) :
    engine.result (startProgram fire role executable arguments directory environment) =
      .error (.spawn role executable error) := by
  rw [startProgram, result_get_bind, h]
  rfl

/-- A program that cannot be started leaves everything as it is. -/
theorem after_startProgram_of_error {error : SystemError}
    (h : engine.host.start executable arguments directory environment (role = .demangler) =
      .error error) :
    engine.after (startProgram fire role executable arguments directory environment) = engine := by
  rw [startProgram, after_get_bind, h]
  rfl

/-- A program that is started answers its number. -/
theorem result_startProgram_of_ok {started : ProcessId × Host}
    (h : engine.host.start executable arguments directory environment (role = .demangler) =
      .ok started) :
    engine.result (startProgram fire role executable arguments directory environment) =
      .ok started.1 := by
  rw [startProgram, result_get_bind, h]
  rfl

/-- The moment of its start follows at once. -/
theorem after_startProgram_of_ok {started : ProcessId × Host}
    (h : engine.host.start executable arguments directory environment (role = .demangler) =
      .ok started) :
    engine.after (startProgram fire role executable arguments directory environment) =
      { engine with host := started.2 }.after (interfere fire started.1 .spawned) := by
  rw [startProgram, after_get_bind, h]
  rfl

end Starting

/-- What the program does to prepare a run is one of the steps that there can be. -/
theorem step_prepare (task : Task α) (engine : Engine α) :
    task.Step .prepare engine (task.step (.prepare, engine)).1
      (task.step (.prepare, engine)).2 := by
  rw [step, advance, result_get_bind, after_get_bind]
  cases hbuild : Invocation.build? task.command (engine.host.absolute task.source) task.override
      engine.rewrites with
  | none => exact .empty hbuild
  | some invocation =>
    dsimp only
    rw [result_bind_pure, after_bind_pure]
    cases hlocate : engine.result (announce invocation) with
    | error failure => exact .notLocated hbuild hlocate
    | ok demangler => exact .prepared hbuild hlocate

/-- What the program does to start the compiler is one of the steps that there can be. -/
theorem step_startCompiler (task : Task α) (invocation : Invocation) (demangler : Json)
    (engine : Engine α) :
    task.Step (.startCompiler invocation demangler) engine
      (task.step (.startCompiler invocation demangler, engine)).1
      (task.step (.startCompiler invocation demangler, engine)).2 := by
  rw [step, advance, result_get_bind, after_get_bind, result_bind_pure, after_bind_pure]
  cases hstart : engine.host.start invocation.executable invocation.arguments
      (engine.compilerDirectory task.command) engine.compilerEnvironment false with
  | error error =>
    rw [result_startProgram_of_error hstart, after_startProgram_of_error hstart]
    exact .compilerNotStarted hstart
  | ok started =>
    rw [result_startProgram_of_ok hstart, after_startProgram_of_ok hstart]
    exact .compilerStarted hstart

/-- What the program does to start the demangler is one of the steps that there can be. -/
theorem step_startDemangler (task : Task α) (compilerName : String) (demangler : Json)
    (compiler : ProcessId) (engine : Engine α) :
    task.Step (.startDemangler compilerName demangler compiler) engine
      (task.step (.startDemangler compilerName demangler compiler, engine)).1
      (task.step (.startDemangler compilerName demangler compiler, engine)).2 := by
  rw [step, advance]
  cases htext : demangler.text? with
  | none => exact .nameNotText htext
  | some name =>
    dsimp only
    rw [result_bind_pure, after_bind_pure]
    cases hstart : engine.host.start name [] none none true with
    | error error =>
      rw [result_startProgram_of_error hstart, after_startProgram_of_error hstart]
      exact .demanglerNotStarted htext hstart
    | ok started =>
      rw [result_startProgram_of_ok hstart, after_startProgram_of_ok hstart]
      exact .demanglerStarted htext hstart

/-- **What a step can do.** -/
theorem step_spec (task : Task α) (point : Point) (engine : Engine α) :
    task.Step point engine (task.step (point, engine)).1 (task.step (point, engine)).2 := by
  cases point with
  | prepare => exact step_prepare task engine
  | startCompiler invocation demangler => exact step_startCompiler task invocation demangler engine
  | startDemangler compilerName demangler compiler =>
    exact step_startDemangler task compilerName demangler compiler engine
  | register pair => exact .register rfl
  | translating pair passage => exact .translating (passageStep_step task pair engine passage)
  | unregister pair outcome => exact .unregister
  | stopDemangler processes outcome => exact .stopDemangler
  | stopCompiler compiler outcome => exact .stopCompiler
  | finished outcome => exact .finished

/-- A run goes from every moment to the next by one of the steps that there can be. -/
theorem timeline_step (task : Task α) (begun : Engine α) (n : Nat) :
    task.Step (task.timeline begun n).1 (task.timeline begun n).2
      (task.timeline begun (n + 1)).1 (task.timeline begun (n + 1)).2 := by
  rw [timeline_succ]
  exact step_spec task _ _

/-- What holds at the beginning of a run and is kept by whatever a step can do holds at all of its
moments. -/
theorem timeline_invariant {task : Task α} {P : Point → Engine α → Prop} {begun : Engine α}
    (start : P .prepare begun)
    (keep : ∀ {point engine next later}, P point engine → task.Step point engine next later →
      P next later) (n : Nat) :
    P (task.timeline begun n).1 (task.timeline begun n).2 :=
  timeline_induction (P := fun moment => P moment.1 moment.2) start
    (fun moment h => keep h (step_spec task moment.1 moment.2)) n

/-! ### Decisions -/

/-- What is decided stays so. -/
theorem Step.outcome?_eq {task : Task α} {point next : Point} {engine later : Engine α}
    {outcome : Except Failure String} (step : task.Step point engine next later)
    (h : point.outcome? = some outcome) : next.outcome? = some outcome := by
  cases step with
  | unregister | stopDemangler | stopCompiler | finished => exact h
  | _ => cases h

/-- A run ends as it has been decided. -/
theorem result_compile_of_outcome? {task : Task α} {begun : Engine α} {n : Nat}
    {outcome : Except Failure String} (h : (task.timeline begun n).1.outcome? = some outcome) :
    begun.result task.compile = outcome := by
  obtain ⟨last, hlast⟩ := exists_timeline_finished task begun
  have hlater : ∀ m, n ≤ m → (task.timeline begun m).1.outcome? = some outcome := by
    intro m hle
    induction hle with
    | refl => exact h
    | step _ ih => exact (timeline_step task begun _).outcome?_eq ih
  have hend := hlater _ (Nat.le_max_left n last)
  rw [timeline_eq_of_le hlast (Nat.le_max_right n last)] at hend
  exact Option.some.inj hend

/-- **Every run is decided in one of its steps.** -/
theorem exists_decision (task : Task α) (begun : Engine α) :
    ∃ n, (task.timeline begun n).1.outcome? = none ∧
      (task.timeline begun (n + 1)).1.outcome? = some (begun.result task.compile) := by
  obtain ⟨last, hlast⟩ := exists_timeline_finished task begun
  have hend : (task.timeline begun last).1.outcome? = some (begun.result task.compile) := by
    rw [hlast]
    rfl
  clear hlast
  -- go back from the end to where the outcome was not known yet
  induction last with
  | zero => cases hend
  | succ n ih =>
    cases hbefore : (task.timeline begun n).1.outcome? with
    | none => exact ⟨n, hbefore, hend⟩
    | some outcome => exact ih (by rw [hbefore, result_compile_of_outcome? hbefore])

end Task

end AsmScope
