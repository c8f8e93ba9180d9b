import AsmScope.Scenario.LocateSteps
/-! # Scenarios of settings

Settings loaded from a folder, read, changed and loaded again while their file changes. Loading that
fails keeps the settings that are there, if there are any. -/

namespace AsmScope.Scenario

/-- A step with settings. -/
inductive SettingsStep
  | host (step : HostStep)
  /-- Loads the settings again. -/
  | load
  | get (key : String) (fallback : Json)
  | set (key : String) (value : Json)
  | all
  | environment
  | rewrites
  /-- The text of the settings file. -/
  | file

/-- What a step answers. -/
inductive SettingsAnswer
  | done
  | value (value : Json)
  | values (values : Table String Json)
  | pairs (pairs : List (String × String))
  | fileText (text : Option String)

/-- Why a step fails. -/
inductive SettingsFailure
  | settings (error : SettingsError)
  /-- No settings were loaded. -/
  | notLoaded

/-- The settings of a scenario. -/
structure SettingsBoard where
  /-- The machine. -/
  host : Host
  /-- The folder; none for the user's own. -/
  folder : Option String
  /-- The settings, once they were loaded. -/
  settings : Option Settings := none

/-- The text of the settings file with its own line ends, if there is one. -/
def settingsFileText (host : Host) (folder : String) : Except SettingsError (Option String) :=
  match host.tree.at? host.directory (Settings.filePath folder) with
  | some (.file file) =>
    match Utf8.decode? file.content with
    | some text => .ok (some text)
    | none => .error .undecodable
  | _ => .ok none

/-- Loads the settings. -/
def SettingsBoard.load (board : SettingsBoard) : Except SettingsError Unit × SettingsBoard :=
  match Settings.load board.host board.folder with
  | (.ok settings, host) => (.ok (), { board with host, settings := some settings })
  | (.error error, host) => (.error error, { board with host })

/-- Performs a step that needs loaded settings. -/
def SettingsBoard.performOn (board : SettingsBoard) (settings : Settings) :
    SettingsStep → Except SettingsError SettingsAnswer × SettingsBoard
  | .get key fallback => (.ok (.value ((settings.get? key).getD fallback)), board)
  | .set key value =>
    let (result, settings, host) := settings.set board.host key value
    (result.map fun _ => .done, { board with host, settings := some settings })
  | .all => (.ok (.values settings.values), board)
  | .environment => (settings.environment.map .pairs, board)
  | .rewrites => (settings.rewrites.map .pairs, board)
  | .file => ((settingsFileText board.host settings.folder).map .fileText, board)
  | .host _ | .load => (.ok .done, board)

/-- Performs a step. -/
def SettingsBoard.perform (board : SettingsBoard) (step : SettingsStep) :
    Except SettingsFailure SettingsAnswer × SettingsBoard :=
  match step with
  | .host step => (.ok .done, { board with host := step.apply board.host })
  | .load =>
    let (result, board) := board.load
    ((result.map fun _ => .done).mapError .settings, board)
  | step =>
    match board.settings with
    | none => (.error .notLoaded, board)
    | some settings =>
      let (result, board) := board.performOn settings step
      (result.mapError .settings, board)

/-- What a step answered, and the log lines since the step before. -/
structure SettingsReport where
  /-- The answer. -/
  outcome : Except SettingsFailure SettingsAnswer
  /-- The log lines. -/
  log : List LogLine

/-- Performs steps one after the other; the first report takes the log lines from the first
`logged` on. -/
def takeSettingsSteps : List SettingsStep → Nat → SettingsBoard → List SettingsReport
  | [], _, _ => []
  | step :: rest, logged, board =>
    let (outcome, board) := board.perform step
    ⟨outcome, board.host.journal.drop logged⟩ ::
      takeSettingsSteps rest board.host.journal.length board

/-- A whole scenario: whether the settings could be loaded, and the steps after that. -/
def playSettings (host : Host) (folder : Option String) (steps : List SettingsStep) :
    Except SettingsError Unit × List SettingsReport :=
  let (result, board) := SettingsBoard.load { host, folder }
  (result, takeSettingsSteps steps 0 board)

end AsmScope.Scenario
