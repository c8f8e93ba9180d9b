import AsmScope.Engine.Requests
import AsmScope.Terminal.Options
import AsmScope.Text.Screen
/-! # The program on a terminal

What the program does with its arguments: print the assembly of one file, or open the explorer on
it. The explorer itself belongs to the outside; the program hands it a source, a workspace and an
override, and hears how it ended. Refused arguments end the program with status 2, other errors with
status 1, and a cancelled compilation with status 130. -/

namespace AsmScope.Terminal

/-- How the explorer ended. -/
inductive ExplorerEnd
  | closed
  /-- By an interrupt from the keyboard. -/
  | interrupted
  /-- By an error with this text. -/
  | crashed (message : String)
  deriving DecidableEq, Repr

/-- What the explorer is opened on. -/
structure Opening where
  /-- The source file. -/
  source : String
  /-- The workspace folder. -/
  workspace : String
  /-- The arguments in the place of the build's own. -/
  override : Option (List String)
  deriving DecidableEq, Repr

/-- Where the log goes, and whether it is detailed. -/
structure LogTarget where
  /-- Whether the log is detailed. -/
  verbose : Bool
  /-- The file; none for the error channel. -/
  file : Option Options.Value
  deriving DecidableEq, Repr

/-- What the program leaves behind. -/
structure Exit where
  /-- The status, where the program sets one. -/
  status : Option Nat
  /-- What it wrote to its output. -/
  output : String := ""
  /-- What it wrote to its error channel. -/
  errors : String := ""
  /-- What it opened the explorer on, if it did. -/
  opening : Option Opening := none
  /-- Where its log went, if it came that far. -/
  logTarget : Option LogTarget := none
  /-- The host afterwards. -/
  host : Host

/-- The log file of the explorer, where none is named. -/
def defaultLogFile : String := "/tmp/" ++ programName ++ ".log"

/-- A text and at least one blank, up to a width that is a multiple of eight. -/
def padToTab (cs : List Char) : List Char :=
  let text := cs ++ [' ']
  text ++ List.replicate ((8 - Text.width text % 8) % 8) ' '

/-- The pieces of a line between its tabs, each but the last one filled up to the next tab stop. -/
def fillPieces : List (List Char) → List Char
  | [] => []
  | [piece] => piece
  | piece :: rest => padToTab piece ++ fillPieces rest

/-- Tabs as blanks up to the next column that is a multiple of eight. -/
def expandTabs (cs : List Char) : List Char :=
  ['\n'].intercalate ((Text.cutAt '\n' cs).map fun line => fillPieces (Text.cutAt '\t' line))

/-- A message as it is printed. -/
def printable (message : String) : String :=
  String.ofList (expandTabs (Text.onScreen message).toList)

/-- What is said when no source file is named. -/
def noSourceMessage : String :=
  "Error: No source file specified.\nUsage: " ++ programName ++
    " <file.cpp> [--workspace DIR] [--print]\n"

/-- An assembly text with a line feed at its end. -/
def withFinalLineFeed (asm : String) : String :=
  if asm.isEmpty || asm.toList.getLast? == some '\n' then asm else asm ++ "\n"

/-- Compiles a source once: the outcome, and the host after the engine was closed. -/
def compileOnce (host : Host) (source workspace : String) (override : Option (List String)) :
    Except Failure String × Host :=
  match Engine.create host workspace (.journal false) false () with
  | (.error error, host) => (.error (.settings error), host)
  | (.ok engine, _) =>
    let (outcome, engine) :=
      (Engine.compile (fun _ _ engine => engine) source override).run.run engine
    (outcome, engine.closeAll.host)

/-- Prints the assembly of a source. A failure that nobody should meet is the result itself. -/
def printAssembly (host : Host) (logTarget : LogTarget) (source workspace : String)
    (override : Option (List String)) : Except Failure Exit :=
  let (outcome, host) := compileOnce host source workspace override
  let exit : Exit := { status := some 0, logTarget := some logTarget, host }
  match outcome with
  | .ok asm => .ok { exit with output := withFinalLineFeed asm }
  | .error .cancelled =>
    .ok { exit with status := some 130, errors := "Compilation cancelled\n" }
  | .error failure =>
    if failure.isExpected then
      .ok { exit with
        status := some 1
        errors := printable ("Error: " ++ failure.message) ++ "\n" }
    else .error failure

/-- Opens the explorer. -/
def openExplorer (host : Host) (logTarget : LogTarget) (opening : Opening) (ending : ExplorerEnd) :
    Exit :=
  let exit : Exit :=
    { status := none, opening := some opening, logTarget := some logTarget, host }
  match ending with
  | .closed | .interrupted => exit
  | .crashed message =>
    { exit with status := some 1, output := "Fatal Error: " ++ message ++ "\n" }

/-- Does what a request asks for. -/
def perform (host : Host) (request : Options.Request) (ending : ExplorerEnd) :
    Except Failure Exit :=
  match request.file.filter fun file => !file.isEmpty with
  | none => .ok { status := some 1, output := noSourceMessage, host }
  | some file =>
    let source := host.absolute file
    if !host.pathExists source then
      .ok { status := some 1, output := "Error: File not found: " ++ source ++ "\n", host }
    else
      let logFile :=
        if request.logFile.isNone && !request.print then some (.text defaultLogFile)
        else request.logFile
      let logTarget : LogTarget := { verbose := request.verbose, file := logFile }
      let workspace :=
        host.absolute ((request.workspace.bind Options.Value.content?).getD host.directory)
      let override := (request.command.bind Options.Value.content?).map CommandLine.split
      if request.print then printAssembly host logTarget source workspace override
      else .ok (openExplorer host logTarget { source, workspace, override } ending)

/-- The last line of what is said when arguments are refused. -/
def refusalLine (error : Options.UsageError) : String :=
  ((Text.lines (programName ++ ": error: " ++ error.message ++ "\n")).getLast?).getD ""

/-- The whole program: what it leaves behind for these arguments, or the failure that it does not
handle. -/
def run (host : Host) (arguments : List String) (ending : ExplorerEnd) : Except Failure Exit :=
  match Options.parse arguments with
  | .error error => .ok { status := some 2, errors := refusalLine error, host }
  | .ok none => .ok { status := some 0, host }
  | .ok (some request) => perform host request ending

end AsmScope.Terminal
