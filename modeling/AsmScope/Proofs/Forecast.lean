import AsmScope.Proofs.CompletedRuns
/-! # Forecasts

What a run answers when the rest of the program does nothing meanwhile, told without a run:
`Engine.programs` are the programs that are to be started, `Programs.output` is what they do
together, and `Engine.forecast` is both. Each lists what can go wrong in the order in which it is
met; the first thing that goes wrong is the answer. -/

namespace AsmScope

/-- Whether one of so many writes to a program's input fails, from the one with this number on. -/
def Program.refuses (program : Program) (first count : Nat) : Bool :=
  program.failingWrite.any fun n => first ≤ n && n < first + count

/-- Where nothing is written no write fails. -/
@[simp] theorem Program.refuses_zero (program : Program) (first : Nat) :
    program.refuses first 0 = false := by
  unfold refuses
  cases program.failingWrite with
  | none => rfl
  | some n => simp

/-- One of some writes fails if the first one does or one of the rest. -/
theorem Program.refuses_succ (program : Program) (first count : Nat) :
    program.refuses first (count + 1) =
      (program.failingWrite == some first || program.refuses (first + 1) count) := by
  unfold refuses
  cases program.failingWrite with
  | none => rfl
  | some n =>
    rw [Bool.eq_iff_iff]
    simp
    omega

/-- What a demangler that is started under this name answers to an input that it has received. -/
def Program.answer (program : Program) (name : String) (input : Bytes) : Except Failure Bytes :=
  if program.failsClose then .error (.inputRefused ⟨.brokenPipe, none⟩)
  else if program.exitCode ≠ 0 then .error (.demanglerExit name program.exitCode)
  else .ok (program.respond input)

/-- Both programs of a run, with the names under which they are started. -/
structure Programs where
  /-- The name of the compiler. -/
  compilerName : String
  /-- The compiler. -/
  compiler : Program
  /-- The name of the demangler. -/
  demanglerName : String
  /-- The demangler. -/
  demangler : Program

namespace Programs

/-- What both programs do together: the demangler's output, or the first thing that goes wrong. -/
def output (programs : Programs) : Except Failure Bytes :=
  if programs.demangler.refuses 0 (readable programs.compiler.chunks).length then
    .error (.inputRefused ⟨.brokenPipe, none⟩)
  else if programs.compiler.exitCode ≠ 0 then
    .error (.compilerExit programs.compilerName programs.compiler.exitCode)
  else programs.demangler.answer programs.demanglerName (readUpToEnd programs.compiler.chunks)

/-- Whether one of them says something on its error channel. -/
def speak (programs : Programs) : Bool :=
  !programs.compiler.diagnostics.isEmpty || !programs.demangler.diagnostics.isEmpty

end Programs

/-- The program that a name starts in a role, or why it cannot be started. -/
def Host.startable (host : Host) (role : Role) (executable : String) : Except Failure Program :=
  match host.programs.get? executable with
  | none => .error (.spawn role executable ⟨.noEntry, some executable⟩)
  | some program =>
    match program.spawnError with
    | some reason => .error (.spawn role executable ⟨reason, some executable⟩)
    | none => .ok program

namespace Host

variable {host : Host} {role : Role} {executable : String}

/-- What can be started is told by the programs of a machine alone. -/
theorem startable_congr {other : Host} (h : other.programs = host.programs) :
    other.startable role executable = host.startable role executable := by
  rw [startable, h, startable]

/-- What can be started is there, and nothing keeps it from starting. -/
theorem of_startable_ok {program : Program} (h : host.startable role executable = .ok program) :
    host.programs.get? executable = some program ∧ program.spawnError = none := by
  unfold startable at h
  split at h
  · cases h
  · next found hfound =>
    split at h
    · cases h
    · next hspawn =>
      cases h
      exact ⟨hfound, hspawn⟩

/-- A program that nothing keeps from starting is started as the next process. -/
theorem start_of_spawnError_eq_none {program : Program}
    (found : host.programs.get? executable = some program) (spawn : program.spawnError = none)
    (arguments : List String) (directory : Option String)
    (environment : Option (Table String String)) (piped : Bool) :
    host.start executable arguments directory environment piped =
      .ok (host.processes.length, { host with
        processes := host.processes ++ [{ program, executable, arguments, directory, environment
                                          input := if piped then some [] else none }] }) := by
  simp only [start, found, spawn]

/-- What cannot be started fails, with the reason that was told. -/
theorem of_startable_error {failure : Failure} (h : host.startable role executable = .error failure)
    (arguments : List String) (directory : Option String)
    (environment : Option (Table String String)) (piped : Bool) :
    ∃ error, failure = .spawn role executable error ∧
      host.start executable arguments directory environment piped = .error error := by
  unfold startable at h
  cases hprogram : host.programs.get? executable with
  | none =>
    rw [hprogram] at h
    cases h
    exact ⟨_, rfl, by simp only [start, hprogram]⟩
  | some program =>
    rw [hprogram] at h
    dsimp only at h
    cases hspawn : program.spawnError with
    | none =>
      rw [hspawn] at h
      cases h
    | some reason =>
      rw [hspawn] at h
      cases h
      exact ⟨_, rfl, by simp only [start, hprogram, hspawn]⟩

end Host

namespace Engine

variable {α : Type}

/-- The programs of a run whose compiler is there, or why its demangler cannot be started. -/
def programsWith (host : Host) (compilerName : String) (compiler : Program) (located : Json) :
    Except Failure Programs := do
  let some demanglerName := located.text? | throw .settingNotText
  let demangler ← host.startable .demangler demanglerName
  return ⟨compilerName, compiler, demanglerName, demangler⟩

/-- The programs that a run starts are told by the programs of the machine alone. -/
theorem programsWith_congr {host other : Host} (h : other.programs = host.programs)
    (compilerName : String) (compiler : Program) (located : Json) :
    programsWith other compilerName compiler located =
      programsWith host compilerName compiler located := by
  simp only [programsWith, Host.startable_congr h]

/-- The programs that a run starts, or the first thing that goes wrong before both are there. -/
def programs (engine : Engine α) (command : CompileCommand) (source : String)
    (override : Option (List String)) : Except Failure Programs :=
  match Invocation.build? command (engine.host.absolute source) override engine.rewrites with
  | none => .error (.emptyCommand command.file)
  | some invocation =>
    match (engine.locator.locate engine.host invocation.executable).1 with
    | .error .nameNotText => .error .settingNotText
    | .ok located => do
      let compiler ← engine.host.startable .compiler invocation.executable
      programsWith engine.host invocation.executable compiler located

/-- What an undisturbed run of a command gives: the first thing that goes wrong, or the text. -/
def forecast (engine : Engine α) (command : CompileCommand) (source : String)
    (override : Option (List String)) : Except Failure String :=
  (engine.programs command source override >>= Programs.output).map fun output =>
    Assembly.stripDirectives (Utf8.decodeReplacing output)

/-! ### What can go wrong -/

/-- What goes wrong with both programs is a failure of the run. -/
theorem isRunFailure_of_output {programs : Programs} {failure : Failure}
    (h : programs.output = .error failure) : failure.isRunFailure := by
  unfold Programs.output Program.answer at h
  split at h
  · cases h
    rfl
  · split at h
    · cases h
      rfl
    · split at h
      · cases h
        rfl
      · split at h
        · cases h
          rfl
        · cases h

/-- A program that cannot be started is a failure of the run. -/
theorem isRunFailure_of_startable {host : Host} {role : Role} {executable : String}
    {failure : Failure} (h : host.startable role executable = .error failure) :
    failure.isRunFailure := by
  obtain ⟨error, rfl, -⟩ := Host.of_startable_error h [] none none false
  rfl

/-- What goes wrong before both programs are there is a failure of the run, but for a demangler
setting that is no text. -/
theorem isRunFailure_of_programs {engine : Engine α} {command : CompileCommand} {source : String}
    {override : Option (List String)} {failure : Failure}
    (h : engine.programs command source override = .error failure)
    (known : failure ≠ .settingNotText) : failure.isRunFailure := by
  -- follow the checks in their order; each can fail in one way only
  unfold programs at h
  split at h
  · cases h
    rfl
  · next invocation _ =>
    split at h
    · cases h
      exact absurd rfl known
    · next located _ =>
      cases hcompiler : engine.host.startable .compiler invocation.executable with
      | error error =>
        rw [hcompiler] at h
        cases h
        exact isRunFailure_of_startable hcompiler
      | ok compiler =>
        rw [hcompiler] at h
        replace h : programsWith engine.host invocation.executable compiler located =
            .error failure := h
        -- the compiler can start, so what is left is the demangler
        unfold programsWith at h
        cases hname : located.text? with
        | none =>
          rw [hname] at h
          cases h
          exact absurd rfl known
        | some name =>
          rw [hname] at h
          dsimp only at h
          cases hdemangler : engine.host.startable .demangler name with
          | error error =>
            rw [hdemangler] at h
            cases h
            exact isRunFailure_of_startable hdemangler
          | ok demangler =>
            rw [hdemangler] at h
            cases h

/-- What goes wrong in an undisturbed run is told to the user, unless it is about the settings. -/
theorem isRunFailure_of_forecast {engine : Engine α} {command : CompileCommand} {source : String}
    {override : Option (List String)} {failure : Failure}
    (h : engine.forecast command source override = .error failure)
    (known : failure ≠ .settingNotText) : failure.isRunFailure := by
  unfold forecast at h
  -- either the programs are not all there, or one of them fails
  cases hprograms : engine.programs command source override with
  | error error =>
    rw [hprograms] at h
    cases h
    exact isRunFailure_of_programs hprograms known
  | ok programs =>
    rw [hprograms] at h
    replace h : programs.output.map _ = .error failure := h
    cases houtput : programs.output with
    | error error =>
      rw [houtput] at h
      cases h
      exact isRunFailure_of_output houtput
    | ok output =>
      rw [houtput] at h
      cases h

end Engine

end AsmScope
