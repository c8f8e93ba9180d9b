import AsmScope.CompileCommand
import AsmScope.Host.Basic
import AsmScope.Json.Parser
/-! # The index of a compile-commands file

A compile-commands file as a table from the recorded file to its command. An entry that is repeated
keeps its first place and takes its last command. A file is read as a whole or not at all. -/

namespace AsmScope

/-- The commands of a build by the file that they compile, as the build spells it. -/
abbrev CommandIndex : Type := Table String CompileCommand

/-- Why a compile-commands file gives no index. -/
inductive LoadError
  /-- There is no such file. -/
  | missing
  /-- The file cannot be opened. -/
  | unreadable (error : SystemError)
  /-- The file holds no UTF-8. -/
  | undecodable
  /-- The text breaks the grammar. -/
  | malformed (text : String) (cause : Json.SyntaxCause) (left : Nat)
  /-- An integer is too long to be converted. -/
  | integerTooLong
  /-- The value is nested too deep. -/
  | nestedTooDeep
  /-- The value is no array. -/
  | notArray
  /-- An entry is ill-formed. -/
  | entry (index : Nat) (fault : CompileCommand.EntryFault)
  deriving DecidableEq, Repr

/-- The text of a load error of the file at this location. -/
def LoadError.message (location : String) : LoadError → String
  | .missing => "compilation database not found: " ++ location
  | .unreadable error => "cannot read " ++ location ++ ": " ++ error.message
  | .undecodable => "not valid UTF-8: " ++ location
  | .malformed text cause left => location ++ ": " ++ Json.syntaxMessage text cause left
  | .integerTooLong => "integer too long: " ++ location
  | .nestedTooDeep => "nested too deep: " ++ location
  | .notArray => location ++ ": expected a JSON array of compile commands"
  | .entry index fault => fault.message index

/-- Whether a reload puts up with a load error and keeps the commands that it has. -/
def LoadError.isTolerated : LoadError → Bool
  | .undecodable | .integerTooLong | .nestedTooDeep => false
  | _ => true

namespace CommandIndex

/-- Adds the commands of entries, numbered from `index` on. -/
def addEntries : Nat → CommandIndex → List Json → Except LoadError CommandIndex
  | _, commands, [] => .ok commands
  | index, commands, entry :: rest =>
    match CompileCommand.ofEntry entry with
    | .error fault => .error (.entry index fault)
    | .ok command => addEntries (index + 1) (commands.put command.file command) rest

/-- The index of a value. -/
def ofJson (value : Json) : Except LoadError CommandIndex :=
  match value with
  | .array entries => addEntries 0 [] entries
  | _ => .error .notArray

/-- The index of what a file holds. -/
def ofBytes (content : Bytes) : Except LoadError CommandIndex :=
  match Utf8.decodeFile? content with
  | none => .error .undecodable
  | some text =>
    match Json.parse text with
    | .error (.malformed cause left) => .error (.malformed text cause left)
    | .error .integerTooLong => .error .integerTooLong
    | .error .nestedTooDeep => .error .nestedTooDeep
    | .ok value => ofJson value

/-- The index of the file at a location. -/
def ofFile (host : Host) (location : String) : Except LoadError CommandIndex :=
  match host.tree.read host.directory location with
  | .error error => .error (if error.reason = .noEntry then .missing else .unreadable error)
  | .ok content => ofBytes content

/-- Loads the index of the file at a location, with log lines before and after. -/
def load (host : Host) (location : String) : Except LoadError CommandIndex × Host :=
  let host := host.log .info "database" ("Loading compilation database from " ++ location)
  match ofFile host location with
  | .error error => (.error error, host)
  | .ok commands =>
    (.ok commands, host.log .info "database" ("Loaded " ++ toString commands.length ++
      " compile commands"))

/-- The key under which a source below the build directory is recorded. -/
def relativeKey (buildDirectory source : List Char) : List Char :=
  let base := (buildDirectory.reverse.dropWhile (· == '/')).reverse ++ ['/']
  (base.isPrefixOf? source).getD source

/-- The command for a source, given by its absolute normal form: first under the path as seen from
the build directory, then under the absolute path. -/
def lookup (commands : CommandIndex) (buildDirectory source : String) : Option CompileCommand :=
  let key := String.ofList (relativeKey buildDirectory.toList source.toList)
  match commands.get? key with
  | some command => some command
  | none => if key = source then none else commands.get? source

end CommandIndex

end AsmScope
