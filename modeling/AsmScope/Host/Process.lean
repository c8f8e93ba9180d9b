import AsmScope.Host.Error
import AsmScope.Number.Basic
import AsmScope.Table
import AsmScope.Text.Basic
import AsmScope.Text.Utf8
/-! # Programs and processes

A program is described by what an observer of its pipes can see: the chunks that it writes, what it
says on its error channel, how it ends and where its input fails. A process is one start of a
program. It runs until it ends by itself or is killed; the status is final from then on. -/

namespace AsmScope

/-- What a program does when it is started. -/
structure Program where
  /-- Why it cannot be started. -/
  spawnError : Option Errno := none
  /-- The chunks that it writes; a program without them that reads its input writes that, with its
  substitutions. -/
  output : Option (List Bytes) := none
  /-- What it writes to its error channel. -/
  diagnostics : Bytes := []
  /-- The code with which it ends by itself. -/
  exitCode : Int := 0
  /-- How many milliseconds it takes to end by itself. -/
  duration : Number := .integer 0
  /-- Which write to its input fails. -/
  failingWrite : Option Nat := none
  /-- Whether closing its input fails. -/
  failsClose : Bool := false
  /-- Whether a kill finds that it has just ended by itself. -/
  vanishes : Bool := false
  /-- What it replaces in its input, in this order. -/
  substitutions : List (Bytes × Bytes) := []
  deriving DecidableEq, Repr

/-- The chunks that a program writes on its own. -/
def Program.chunks (program : Program) : List Bytes := program.output.getD []

/-- The whole output of a program that has read all of its input. -/
def Program.respond (program : Program) (input : Bytes) : Bytes :=
  match program.output with
  | some chunks => chunks.flatten
  | none =>
    program.substitutions.foldl (fun text pair => Text.replaceAll pair.1 pair.2 text) input

/-- Whether a process runs, and how it ended. -/
inductive Status
  | running
  | exited (code : Int)
  | killed
  deriving DecidableEq, Repr

/-- The code of a process that has ended; a killed one has the number of the kill signal. -/
def Status.code? : Status → Option Int
  | .running => none
  | .exited code => some code
  | .killed => some (-9)

/-- A started program. -/
structure Process where
  /-- The program that was started. -/
  program : Program
  /-- The name under which it was started. -/
  executable : String
  /-- The arguments after the name. -/
  arguments : List String
  /-- Its working directory, where one was asked for. -/
  directory : Option String
  /-- Its environment, where it differs from the starter's. -/
  environment : Option (Table String String)
  /-- What it has received on its input; none if its input is empty from the beginning. -/
  input : Option Bytes
  /-- Whether it runs. -/
  status : Status := .running
  /-- What it wrote after it had read all of its input. -/
  output : Bytes := []
  deriving Repr

namespace Process

/-- Whether the process has not ended. -/
def isRunning (process : Process) : Bool := process.status == .running

/-- Whether the process was ended by a kill. -/
def wasKilled (process : Process) : Bool := process.status == .killed

/-- The code of a process that has ended. -/
def code? (process : Process) : Option Int := process.status.code?

/-- The process after it has ended by itself, if it was running. -/
def finish (process : Process) : Process :=
  if process.isRunning then { process with status := .exited process.program.exitCode }
  else process

/-- The process after a kill: one that runs is dead, or is found to have ended by itself. -/
def kill (process : Process) : Process :=
  if process.program.vanishes then process.finish
  else if process.isRunning then { process with status := .killed }
  else process

/-- The process with more on its input. -/
def receive (process : Process) (chunk : Bytes) : Process :=
  { process with input := process.input.map (· ++ chunk) }

/-- The process after its input was closed: one that runs writes its answer and ends. -/
def endInput (process : Process) : Process :=
  if process.isRunning then
    { process.finish with output := process.program.respond (process.input.getD []) }
  else process

/-- A process that has ended by itself does not run. -/
@[simp] theorem isRunning_finish (process : Process) : process.finish.isRunning = false := by
  unfold finish
  split
  · rfl
  · simp_all

/-- No process runs after a kill. -/
@[simp] theorem isRunning_kill (process : Process) : process.kill.isRunning = false := by
  unfold kill
  split
  · simp
  · split
    · rfl
    · simp_all

end Process

end AsmScope
