import AsmScope.Explorer.Steps
/-! # Scenarios of the explorer

A sequence of steps of one explorer. Every step is reported with what is on the screen after it and
what it wrote, said and started. -/

namespace AsmScope.Scenario

/-- What a step left on the screen. -/
structure ScreenReport where
  /-- Whether the step failed. -/
  outcome : Except Failure Unit
  /-- The explorer after the step, with the lines and notes of this step. -/
  explorer : Explorer
  /-- The number of processes started meanwhile. -/
  processes : Nat

/-- Takes one step and reports it. -/
def takeExplorerStep (step : ExplorerStep) (stage : ExplorerStage) : ScreenReport × ExplorerStage :=
  let stage := ExplorerStage.modifyFront
    (fun explorer => { explorer with logLines := [], notes := [] }) stage
  let started := stage.host.processes.length
  let fire := ExplorerStage.interference stage.front.scripts.length
  let (outcome, stage) := (ExplorerStage.take fire step).run.run stage
  (⟨outcome, stage.front, stage.host.processes.length - started⟩, stage)

/-- Takes steps one after the other and reports each. -/
def takeExplorerSteps : List ExplorerStep → ExplorerStage → List ScreenReport
  | [], _ => []
  | step :: rest, stage =>
    let (report, stage) := takeExplorerStep step stage
    report :: takeExplorerSteps rest stage

/-- A whole scenario on a fresh explorer, with its title, or why there is none. -/
def playExplorer (host : Host) (source : String) (workspace : Option String)
    (override : List String) (scripts : List (Script ExplorerStep)) (steps : List ExplorerStep) :
    Except SettingsError (String × List ScreenReport) :=
  (ExplorerStage.create host source workspace override scripts).1.map fun stage =>
    (ExplorerStage.title stage.front.source, takeExplorerSteps steps stage)

end AsmScope.Scenario
