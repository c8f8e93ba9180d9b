import AsmScope.Host.Files
import AsmScope.Host.Process
/-! # The host

Everything outside the program that it can see or change: files, the working directory, the
environment, the clock, a stopwatch, the programs that can be started, the processes that were
started, and the journal of log lines. -/

namespace AsmScope

/-- How important a log line is. -/
inductive LogLevel
  | info
  | warning
  | error
  deriving DecidableEq, Repr

/-- The word that stands before a log line. -/
def LogLevel.label : LogLevel → String
  | .info => "INFO"
  | .warning => "WARNING"
  | .error => "ERROR"

/-- The name under which the program speaks to the outside. -/
def programName : String := "asmbolt"

/-- A log line, from one part of the program. -/
structure LogLine where
  /-- How important it is. -/
  level : LogLevel
  /-- The part of the program. -/
  topic : String
  /-- What it says. -/
  message : String
  deriving DecidableEq, Repr

/-- A log line as text. -/
def LogLine.text (line : LogLine) : String :=
  line.level.label ++ " " ++ programName ++ "." ++ line.topic ++ ": " ++ line.message

/-- The number of a process, in order of starting. -/
abbrev ProcessId : Type := Nat

/-- The machine on which the program runs. -/
structure Host where
  /-- Files and directories. -/
  tree : FileTree := {}
  /-- The working directory. -/
  directory : String := "/"
  /-- The home directory, where the environment names none. -/
  home : String := "/"
  /-- The environment variables. -/
  environment : Table String String := []
  /-- The wall clock in seconds. -/
  now : Number := .integer 0
  /-- The stopwatch in milliseconds. -/
  stopwatch : Number := .integer 0
  /-- What can be started, by executable name. -/
  programs : Table String Program := []
  /-- What was started, in order. -/
  processes : List Process := []
  /-- The log lines so far. -/
  journal : List LogLine := []
  deriving Repr

namespace Host

/-- The host with one more log line. -/
def log (host : Host) (level : LogLevel) (topic message : String) : Host :=
  { host with journal := host.journal ++ [⟨level, topic, message⟩] }

/-! ### Paths on this host -/

/-- The absolute normal form of a path. -/
def absolute (host : Host) (path : String) : String := Path.absolute host.directory path

/-- The absolute normal form with one leading slash, under which watched files are compared. -/
def canonical (host : Host) (path : String) : String := Path.resolve host.directory path

/-- Whether a path leads to a file or directory. -/
def pathExists (host : Host) (path : String) : Bool := (host.tree.at? host.directory path).isSome

/-- Whether a path leads to a directory. -/
def isDirectory (host : Host) (path : String) : Bool := host.tree.isDirectory host.directory path

/-- Whether a path leads to a file that can be executed. -/
def isExecutable (host : Host) (path : String) : Bool :=
  match host.tree.at? host.directory path with
  | some (.file file) => file.executable
  | _ => false

/-- The home directory. A variable that begins with a tilde, which itself stands for the home
directory, names none. -/
def homeDirectory? (host : Host) : Option String :=
  match host.environment.get? "HOME" with
  | none => some host.home
  | some path =>
    match (path.toList.reverse.dropWhile (· == '/')).reverse with
    | [] => some "/"
    | '~' :: _ => none
    | cs => some (String.ofList cs)

/-- The directories that are searched for executables. -/
def searchPath (host : Host) : List String :=
  let path := (host.environment.get? "PATH").getD "/bin:/usr/bin"
  if path.isEmpty then [] else (Text.cutAt ':' path.toList).map String.ofList

/-- The executable that a bare name stands for: the first one on the search path. -/
def which? (host : Host) (name : String) : Option String :=
  (host.searchPath.map fun directory => Path.join directory name).find? host.isExecutable

/-! ### Processes on this host -/

/-- The process with this number. -/
def process? (host : Host) (id : ProcessId) : Option Process := host.processes[id]?

/-- Changes the process with this number. -/
def modifyProcess (host : Host) (id : ProcessId) (f : Process → Process) : Host :=
  { host with processes := host.processes.modify id f }

/-- The stopwatch after the process with this number has ended by itself; one that has ended already
takes no more time. -/
def stopwatchAfter (host : Host) (id : ProcessId) : Number :=
  match host.process? id with
  | some process =>
    if process.isRunning then
      (host.stopwatch.add? process.program.duration).getD host.stopwatch
    else host.stopwatch
  | none => host.stopwatch

/-- The stopwatch in seconds, if the binary format has room for that. -/
def seconds? (host : Host) : Option Binary64 := host.stopwatch.thousandth?

/-- Lets a process end by itself, which takes its time. -/
def finish (host : Host) (id : ProcessId) : Host :=
  { host.modifyProcess id Process.finish with stopwatch := host.stopwatchAfter id }

/-- Closes the input of a process, which then answers and ends. -/
def endInput (host : Host) (id : ProcessId) : Host :=
  { host.modifyProcess id Process.endInput with stopwatch := host.stopwatchAfter id }

/-- Kills a process. One that is found to have ended by itself has taken its time. -/
def kill (host : Host) (id : ProcessId) : Host :=
  let vanished := (host.process? id).any fun process => process.program.vanishes
  { host.modifyProcess id Process.kill with
    stopwatch := if vanished then host.stopwatchAfter id else host.stopwatch }

/-- Starts a program: the number of the new process, or why it cannot be started. It is started
whatever its arguments and its environment are. A null character in them or an equals sign in the
name of a variable, which no system can hand over, is not looked for. -/
def start (host : Host) (executable : String) (arguments : List String) (directory : Option String)
    (environment : Option (Table String String)) (piped : Bool) :
    Except SystemError (ProcessId × Host) :=
  match host.programs.get? executable with
  | none => .error ⟨.noEntry, some executable⟩
  | some program =>
    match program.spawnError with
    | some reason => .error ⟨reason, some executable⟩
    | none =>
      let process : Process :=
        { program, executable, arguments, directory, environment
          input := if piped then some [] else none }
      .ok (host.processes.length, { host with processes := host.processes ++ [process] })

end Host

end AsmScope
