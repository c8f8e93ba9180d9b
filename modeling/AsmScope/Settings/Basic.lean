import AsmScope.Host.Basic
import AsmScope.Invocation
import AsmScope.Json.Parser
import AsmScope.Json.Printer
/-! # Settings

The user's settings over the defaults. They are read from a file in the settings folder; a file that
cannot be read as an object leaves the defaults, with a warning where it is broken. A change is kept
in memory first and then written. Values are of any kind until they are used, and two settings have
a view with a type: the environment of the compiler and the rewrites of its arguments. -/

namespace AsmScope

/-- Why settings cannot be loaded, saved or used. -/
inductive SettingsError
  /-- The user has no home directory. -/
  | homeless
  /-- A folder cannot be made or the file not written. -/
  | system (error : SystemError)
  /-- The file holds no UTF-8. -/
  | undecodable
  /-- An integer is too long to be converted. -/
  | integerTooLong
  /-- The file or the values are nested too deep. -/
  | nestedTooDeep
  /-- The environment is no object. -/
  | environmentNotObject
  /-- A rewrite has not two parts. -/
  | rewriteNotPair
  /-- The rewrites or one of them have no parts. -/
  | rewriteNotSequence
  deriving DecidableEq, Repr

/-- The settings, and the folder where they are kept. -/
structure Settings where
  /-- The settings folder. -/
  folder : String
  /-- The values in order of first writing. -/
  values : Table String Json
  deriving Repr

namespace Settings

/-- What is said of a user without a home directory. -/
def homelessMessage : String := "Could not determine home directory."

/-- A rewrite of one argument as a value. -/
def rewriteValue (argument replacement : String) : Json :=
  .array [.text argument, .text replacement]

/-- The settings of a user who has made none. The rewrites restore quotes that a build writes around
an empty text and that the cutting of a command line takes away. -/
def defaults : Table String Json :=
  [("compilation_directory", .text "$\x7bworkspaceFolder\x7d"),
    ("demangler", .text "c++filt"),
    ("environment", .object []),
    ("argument_rewrites", .array
      [rewriteValue "-D\"BAZEL_CURRENT_REPOSITORY=\"\"\"" "-DBAZEL_CURRENT_REPOSITORY=\"\"",
        rewriteValue "-DBAZEL_CURRENT_REPOSITORY=" "-DBAZEL_CURRENT_REPOSITORY=\"\""]),
    ("watch_source", .bool true)]

/-- The settings folder of a user who names none. -/
def defaultFolder (host : Host) : Except SettingsError String :=
  match host.homeDirectory? with
  | some home => .ok (Path.tidy (Path.join home ("." ++ programName)))
  | none => .error .homeless

/-- The path of the settings file. -/
def filePath (folder : String) : String := Path.tidy (Path.join folder "config.json")

/-- Makes the settings folder. -/
def makeFolder (host : Host) (folder : String) : Except SettingsError Host :=
  match host.tree.makeDirectory host.directory folder with
  | .ok tree => .ok { host with tree }
  | .error reason => .error (.system ⟨reason, some folder⟩)

/-- What a settings file says: its fields, or why it is passed over, or why it cannot be. -/
inductive Content
  | fields (fields : Table String Json)
  | passedOver (reason : String)
  | unusable (error : SettingsError)
  deriving Repr

/-- The content of the settings file at a path. -/
def readContent (host : Host) (path : String) : Content :=
  match host.tree.read host.directory path with
  | .error error => .passedOver error.message
  | .ok bytes =>
    match Utf8.decodeFile? bytes with
    | none => .unusable .undecodable
    | some text =>
      match Json.parse text with
      | .error (.malformed cause left) => .passedOver (Json.syntaxMessage text cause left)
      | .error .integerTooLong => .unusable .integerTooLong
      | .error .nestedTooDeep => .unusable .nestedTooDeep
      | .ok (.object fields) => .fields fields
      | .ok _ => .fields []

/-- Loads the settings from a folder, which is made if it is missing. -/
def loadFrom (host : Host) (folder : String) : Except SettingsError Settings × Host :=
  let folder := Path.tidy folder
  match makeFolder host folder with
  | .error error => (.error error, host)
  | .ok host =>
    let path := filePath folder
    if !host.pathExists path then (.ok ⟨folder, defaults⟩, host)
    else
      match readContent host path with
      | .fields fields => (.ok ⟨folder, defaults.update fields⟩, host)
      | .passedOver reason =>
        (.ok ⟨folder, defaults⟩,
          host.log .warning "config" ("ignoring unreadable config " ++ path ++ ": " ++ reason))
      | .unusable error => (.error error, host)

/-- Loads the settings from a folder; none means the user's own. -/
def load (host : Host) (folder : Option String) : Except SettingsError Settings × Host :=
  match folder with
  | some folder => loadFrom host folder
  | none =>
    match defaultFolder host with
    | .ok folder => loadFrom host folder
    | .error error => (.error error, host)

/-- Writes the settings into their file. Where they are nested too deep, what stands before that is
in the file then. -/
def save (settings : Settings) (host : Host) : Except SettingsError Unit × Host :=
  match makeFolder host settings.folder with
  | .error error => (.error error, host)
  | .ok host =>
    let text := (Json.object settings.values).indented.toList
    let front := Json.frontWithin Json.maxNesting .outside 0 text
    match host.tree.write host.directory (filePath settings.folder) (String.ofList front) with
    | .ok tree => (if front = text then .ok () else .error .nestedTooDeep, { host with tree })
    | .error error => (.error (.system error), host)

/-- The value of a setting. -/
def get? (settings : Settings) (key : String) : Option Json := settings.values.get? key

/-- The settings with one value changed. -/
def put (settings : Settings) (key : String) (value : Json) : Settings :=
  { settings with values := settings.values.put key value }

/-- Changes a value and writes the file. The change stays even if writing fails. -/
def set (settings : Settings) (host : Host) (key : String) (value : Json) :
    Except SettingsError Unit × Settings × Host :=
  let settings := settings.put key value
  let (result, host) := settings.save host
  (result, settings, host)

/-- A setting, where an empty value counts as none. -/
def nonempty? (settings : Settings) (key : String) : Option Json :=
  (settings.get? key).filter fun value => !value.isEmptyValue

/-- The environment of the compiler besides the host's own. -/
def environment (settings : Settings) : Except SettingsError (Table String String) :=
  match settings.nonempty? "environment" with
  | none => .ok []
  | some (.object fields) => .ok (fields.map fun field => (field.1, field.2.display))
  | some _ => .error .environmentNotObject

/-- The parts of a value that has parts: items, characters or field names. -/
def parts? : Json → Option (List Json)
  | .array items => some items
  | .text value => some (value.toList.map fun c => .text (String.singleton c))
  | .object fields => some (fields.map fun field => .text field.1)
  | _ => none

/-- One rewrite: a value with two parts. -/
def rewrite (value : Json) : Except SettingsError (String × String) :=
  match parts? value with
  | some [argument, replacement] => .ok (argument.display, replacement.display)
  | some _ => .error .rewriteNotPair
  | none => .error .rewriteNotSequence

/-- The rewrites of arguments, in the order in which they are written. -/
def rewrites (settings : Settings) : Except SettingsError (List (String × String)) :=
  match settings.nonempty? "argument_rewrites" with
  | none => .ok []
  | some value =>
    match parts? value with
    | some values => values.mapM rewrite
    | none => .error .rewriteNotSequence

/-- A changed setting is read back as it was given. -/
theorem get?_put_self (settings : Settings) (key : String) (value : Json) :
    (settings.put key value).get? key = some value := by
  simp [put, get?]

end Settings

end AsmScope
