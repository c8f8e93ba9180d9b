import AsmScope.CommandIndex
import AsmScope.Settings.Basic
/-! # Failures

Everything that can go wrong in a request, by cause. The expected failures are those that a user
meets in normal work; a front shows their text and goes on. The others come from files and settings
that nobody should write. -/

namespace AsmScope

/-- The two programs of a run. -/
inductive Role
  | compiler
  | demangler
  deriving DecidableEq, Repr

/-- The word for a program of a run. -/
def Role.label : Role → String
  | .compiler => "compiler"
  | .demangler => "demangler"

/-- Why a request fails. -/
inductive Failure
  /-- The compile-commands file gives no index. -/
  | load (location : String) (error : LoadError)
  /-- The build has no command for the source. -/
  | noCommand (source : String)
  /-- The entry of this file has no arguments. -/
  | emptyCommand (file : String)
  /-- A program cannot be started. -/
  | spawn (role : Role) (executable : String) (error : SystemError)
  /-- The compiler ended with an error. -/
  | compilerExit (executable : String) (code : Int)
  /-- The demangler ended with an error. -/
  | demanglerExit (executable : String) (code : Int)
  /-- The demangler does not take its input. -/
  | inputRefused (error : SystemError)
  /-- The request was cancelled. -/
  | cancelled
  /-- The database cannot run anything. -/
  | unattached
  /-- A file that is not there cannot be watched. -/
  | unwatchable (path : String)
  /-- A setting that must be a text is something else. -/
  | settingNotText
  /-- The settings cannot be loaded, saved or used. -/
  | settings (error : SettingsError)
  /-- A time cannot be told, because a number is too large for the binary format. -/
  | beyondFormat
  /-- A request is about something that does not exist. -/
  | unknown (name : String)
  /-- A request is about a number under which nothing was handed out. -/
  | unnumbered (number : Int)
  deriving DecidableEq, Repr

namespace Failure

/-- The text of a failure. -/
def message : Failure → String
  | .load location error => error.message location
  | .noCommand source => "cannot find compilation command for " ++ source
  | .emptyCommand file => "empty compile command for " ++ file
  | .spawn role executable error =>
    "cannot start " ++ role.label ++ " '" ++ executable ++ "': " ++ error.message
  | .compilerExit executable code =>
    "compilation failed: " ++ executable ++ " exited with code " ++ toString code
  | .demanglerExit executable code =>
    "demangling failed: " ++ executable ++ " exited with code " ++ toString code
  | .inputRefused error => "demangler stopped accepting input: " ++ error.message
  | .cancelled => "operation cancelled"
  | .unattached => "database is not attached to a pipeline"
  | .unwatchable path => "Cannot watch non-existent file: " ++ path
  | .settingNotText => "setting must be a text"
  | .settings _ => "settings cannot be used"
  | .beyondFormat => "number too large"
  | .unknown name => "nothing is known as " ++ name
  | .unnumbered number => "nothing has the number " ++ toString number

/-- Whether a run itself failed, other than by being cancelled. -/
def isRunFailure : Failure → Bool
  | .emptyCommand _ | .spawn .. | .compilerExit .. | .demanglerExit .. | .inputRefused _ => true
  | _ => false

/-- Whether a front shows the failure and goes on. -/
def isExpected : Failure → Bool
  | .load _ error => error.isTolerated
  | .noCommand _ | .cancelled => true
  | failure => failure.isRunFailure

end Failure

end AsmScope
