import AsmScope.Assembly
import AsmScope.Engine.State
import AsmScope.Invocation
import AsmScope.Number.Decimal
/-! # Runs

One compile request: the compiler writes assembly, chunk by chunk, into the demangler, whose output
is shown without directives. A run begins by cancelling the one before it on the same database. Its
token is checked before every chunk is passed on and after every wait, and cancelling it ends both
processes at once. Whatever happens, both have ended when the run ends.

Other threads act at the moments of a run only. What they do is a parameter, so statements about
runs hold for whatever else goes on. -/

namespace AsmScope.Engine

variable {α : Type}

/-- Lets the rest of the program act at a moment of a process. -/
def interfere (fire : Interference α) (id : ProcessId) (moment : Moment) : Action α Unit :=
  modify fun engine =>
    match engine.host.process? id with
    | some process => fire process.executable moment engine
    | none => engine

/-- Fails if the token was cancelled. -/
def checkToken (token : TokenId) : Action α Unit := do
  if (← get).isCancelled token then throw .cancelled

/-- Starts one program of a run. -/
def startProgram (fire : Interference α) (role : Role) (executable : String)
    (arguments : List String) (directory : Option String)
    (environment : Option (Table String String)) : Action α ProcessId := do
  let engine ← get
  match engine.host.start executable arguments directory environment (role = .demangler) with
  | .error error => throw (.spawn role executable error)
  | .ok (id, host) =>
    set { engine with host }
    interfere fire id .spawned
    return id

/-- Whether the process with this number was killed. -/
def wasKilled (engine : Engine α) (id : ProcessId) : Bool :=
  (engine.host.process? id).any Process.wasKilled

/-- Whether the process with this number has not ended. -/
def isRunning (engine : Engine α) (id : ProcessId) : Bool :=
  (engine.host.process? id).any Process.isRunning

/-- Lets the rest of the program act at a moment of a process that has not ended. -/
def interfereWhileRunning (fire : Interference α) (id : ProcessId) (moment : Moment) :
    Action α Unit := do
  if (← get).isRunning id then interfere fire id moment

/-- Waits for a process that has ended: its code. -/
def awaitExit (fire : Interference α) (id : ProcessId) : Action α Int := do
  if !(← get).wasKilled id then interfere fire id .waiting
  return (((← get).host.process? id).bind Process.code?).getD 0

/-- Ends a process that may still run, and waits for it. -/
def cleanUp (fire : Interference α) (id : ProcessId) : StateM (Engine α) Unit := do
  modify fun engine => { engine with host := engine.host.kill id }
  discard (awaitExit fire id).run

/-- Passes what a process said on its error channel on to the sink, and asks for it to be shown. -/
def reportDiagnostics (id : ProcessId) : Action α Unit := do
  let engine ← get
  let bytes := ((engine.host.process? id).map fun process => process.program.diagnostics).getD []
  if !bytes.isEmpty then
    modify fun engine => (engine.appendLine (Utf8.decodeReplacing bytes)).showOutput

/-- Writes a chunk to the demangler; says whether it was taken. -/
def writeChunk (fire : Interference α) (demangler : ProcessId) (index : Nat) (chunk : Bytes) :
    Action α Bool := do
  interfere fire demangler (.beforeWrite index)
  let engine ← get
  match engine.host.process? demangler with
  | none => return false
  | some process =>
    if !process.isRunning || process.program.failingWrite == some index then return false
    else
      set { engine with host := engine.host.modifyProcess demangler fun p => p.receive chunk }
      return true

/-- Fails because the demangler does not take its input, unless the run was cancelled. -/
def refuseInput {β : Type} (token : TokenId) : Action α β := do
  checkToken token
  throw (.inputRefused ⟨.brokenPipe, none⟩)

/-- The end of the compiler's output: a compiler that still runs ends by itself. -/
def endOutput (token : TokenId) (run : RunProcesses) : Action α Unit := do
  modify fun engine => { engine with host := engine.host.finish run.compiler }
  checkToken token

/-- Passes the compiler's chunks from the one with this number on to the demangler, up to the end of
the output. An empty chunk is read as the end, and a compiler that was killed has no more output. -/
def relay (fire : Interference α) (token : TokenId) (run : RunProcesses) :
    Nat → List Bytes → Action α Unit
  | _, [] => do
    interfereWhileRunning fire run.compiler .beforeEnd
    endOutput token run
  | index, chunk :: rest => do
    interfereWhileRunning fire run.compiler (.beforeChunk index)
    if chunk.isEmpty || (← get).wasKilled run.compiler then endOutput token run
    else
      checkToken token
      if ← writeChunk fire run.demangler index chunk then relay fire token run (index + 1) rest
      else refuseInput token

/-- Closes the demangler's input; says whether that went well. -/
def closeInput (fire : Interference α) (id : ProcessId) : Action α Bool := do
  interfereWhileRunning fire id .beforeClose
  let engine ← get
  match engine.host.process? id with
  | none => return false
  | some process =>
    if process.program.failsClose then return false
    else
      set { engine with host := engine.host.endInput id }
      return true

/-- The part of a run in which both processes are there: the demangler's output. -/
def translate (fire : Interference α) (token : TokenId) (run : RunProcesses)
    (compiler demangler : String) : Action α Bytes := do
  let chunks := (((← get).host.process? run.compiler).map fun p => p.program.chunks).getD []
  relay fire token run 0 chunks
  let code ← awaitExit fire run.compiler
  reportDiagnostics run.compiler
  checkToken token
  if code ≠ 0 then throw (.compilerExit compiler code)
  if !(← closeInput fire run.demangler) then refuseInput token
  let code ← awaitExit fire run.demangler
  reportDiagnostics run.demangler
  checkToken token
  if code ≠ 0 then throw (.demanglerExit demangler code)
  return (((← get).host.process? run.demangler).map fun process => process.output).getD []

/-- Registers both processes with the token for as long as they are needed. -/
def translateRegistered (fire : Interference α) (token : TokenId) (run : RunProcesses)
    (compiler demangler : String) : Action α Bytes := do
  modify fun engine => engine.registerRun token run
  ensuring (translate fire token run compiler demangler)
    (modify fun engine => engine.unregisterRun token run)

/-- The demangler for a compiler. -/
def locateDemangler (compiler : String) : Action α Json := do
  let engine ← get
  let (result, locator) := engine.locator.locate engine.host compiler
  set { engine with locator }
  match result with
  | .ok name => return name
  | .error .nameNotText => throw .settingNotText

/-- The environment of a compiler: none if it is the host's own. -/
def compilerEnvironment (engine : Engine α) : Option (Table String String) :=
  if engine.environment.isEmpty then none
  else some (engine.host.environment.update engine.environment)

/-- The directory in which a command is run: none if it is not there. -/
def compilerDirectory (engine : Engine α) (command : CompileCommand) : Option String :=
  if engine.host.isDirectory command.directory then some command.directory else none

/-- Starts both programs and passes the compiler's output through the demangler. -/
def compileCommand (fire : Interference α) (token : TokenId) (command : CompileCommand)
    (source : String) (override : Option (List String)) : Action α String := do
  let engine ← get
  let some invocation :=
    Invocation.build? command (engine.host.absolute source) override engine.rewrites
    | throw (.emptyCommand command.file)
  let demangler ← locateDemangler invocation.executable
  modify fun engine => engine.appendLine ("Compiling using: " ++ " ".intercalate invocation.vector)
  modify fun engine => engine.appendLine ("Demangler: " ++ demangler.display)
  let engine ← get
  let compilerId ← startProgram fire .compiler invocation.executable invocation.arguments
    (engine.compilerDirectory command) engine.compilerEnvironment
  let output ← ensuring
    (do
      let some name := demangler.text? | throw .settingNotText
      let demanglerId ← startProgram fire .demangler name [] none none
      ensuring
        (translateRegistered fire token ⟨compilerId, demanglerId⟩ invocation.executable name)
        (cleanUp fire demanglerId))
    (cleanUp fire compilerId)
  return Assembly.stripDirectives (Utf8.decodeReplacing output)

/-- The stopwatch in seconds. -/
def readStopwatch : Action α Binary64 := do
  let some seconds := (← get).host.seconds? | throw .beyondFormat
  return seconds

/-- What an action gives, and the seconds that it took. -/
def timed {β : Type} (action : Action α β) : Action α (β × Binary64) := do
  let start ← readStopwatch
  let result ← action
  let finish ← readStopwatch
  return (result, finish.sub start)

/-- Says how a run ended. -/
def reportOutcome (source : String) : Except Failure (String × Binary64) → Engine α → Engine α
  | .ok (asm, elapsed), engine =>
    engine.appendLine ("Compilation succeeded: " ++ toString asm.length ++ " bytes, " ++
      elapsed.fixedText 3 ++ " s")
  | .error failure, engine =>
    if failure = .cancelled then
      engine.log .info "pipeline" ("Compilation of " ++ source ++ " cancelled")
    else if failure.isRunFailure then
      ((engine.log .error "pipeline" failure.message).appendLine failure.message).showOutput
    else engine

/-- The command of a database for a source. -/
def lookup (engine : Engine α) (id : DatabaseId) (source : String) : Option CompileCommand :=
  (engine.database? id).bind fun database =>
    database.commands.lookup database.buildDirectory (engine.host.absolute source)

/-- Runs the command of a database for a source: the assembly text. -/
def run (fire : Interference α) (id : DatabaseId) (source : String)
    (override : Option (List String)) : Action α String := do
  let some command := (← get).lookup id source | throw (.noCommand source)
  let (token, engine) := (← get).beginCompilation id
  set engine
  let outcome ← observe (timed (compileCommand fire token command source override))
  modify (reportOutcome source outcome)
  modify fun engine => engine.endCompilation id token
  MonadExcept.ofExcept (outcome.map Prod.fst)

end AsmScope.Engine
