import AsmScope.Main
import AsmScope.Proofs.Acts
import AsmScope.Scenario.EngineSteps
import AsmScope.Scenario.ExplorerSteps
import AsmScope.Scenario.LocateSteps
import AsmScope.Scenario.SettingsSteps
import AsmScope.Scenario.SinkSteps
import AsmScope.Scenario.TokenSteps
import AsmScope.Scenario.WatchSteps
import AsmScope.Proofs.Timeline
import AsmScope.Proofs.Runs
import AsmScope.Proofs.Tidiness
import AsmScope.Proofs.Sparing
import AsmScope.Proofs.Reachability
import AsmScope.Proofs.CancelledRuns
import AsmScope.Proofs.CompletedRuns
import AsmScope.Proofs.UndisturbedRuns
import AsmScope.Proofs.Paths
import AsmScope.Proofs.Directories
import AsmScope.Proofs.Quoting
import AsmScope.Proofs.Deeds
import AsmScope.Proofs.Slots
import AsmScope.Proofs.Scenes
import AsmScope.Proofs.SingleFlight
import AsmScope.Proofs.Tally
import AsmScope.Proofs.Registrations
import AsmScope.Proofs.Lifecycle
import AsmScope.Proofs.Watching
import AsmScope.Proofs.Following
import AsmScope.Proofs.Lookup
import AsmScope.Proofs.Encoding
import AsmScope.Proofs.Nesting
import AsmScope.Proofs.Loading
import AsmScope.Proofs.Silence
import AsmScope.Proofs.Entries
import AsmScope.Proofs.Launches
import AsmScope.Proofs.Vectors
import AsmScope.Proofs.Chronicle
import AsmScope.Proofs.ExplorerRequests
import AsmScope.Proofs.Compiling
import AsmScope.Proofs.Editing
import AsmScope.Proofs.Visits
import AsmScope.Proofs.Screens
import AsmScope.Proofs.Submitting
import AsmScope.Proofs.Wards
import AsmScope.Proofs.Relaying
import AsmScope.Proofs.Lexing
import AsmScope.Proofs.Locating
import AsmScope.Proofs.Scalars
import AsmScope.Proofs.Rereading
import AsmScope.Proofs.Saving
import AsmScope.Proofs.Lockstep
import AsmScope.Proofs.LockstepRuns
import AsmScope.Proofs.Agreement
import AsmScope.Proofs.BuildFlags
import AsmScope.Proofs.Expansion
import AsmScope.Proofs.Workspaces
import AsmScope.Proofs.Histories
import AsmScope.Proofs.Callbacks
import AsmScope.Proofs.TokenSessions
import AsmScope.Proofs.Directives
import AsmScope.Proofs.Buffering
import AsmScope.Proofs.Fallback
import AsmScope.Proofs.Debouncing
