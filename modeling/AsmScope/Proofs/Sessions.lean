import AsmScope.Proofs.Acts
/-! # Sessions

The stages of a session: what its steps leave behind, one after the other. -/

namespace AsmScope.Scenario

open Engine

/-- The stage after some steps. -/
def afterSteps (steps : List EngineStep) (stage : Stage) : Stage :=
  steps.foldl (fun stage step => (takeStep step stage).2) stage

section Steps

variable {R : Stage → Stage → Prop} [IsPreorder Stage R]

/-- Reporting a step empties the sink, and the rest of it is about the ledger. -/
theorem Admits.respects_takeStep (admits : Admits R)
    (requests : ∀ depth step, Respects R (perform (interference depth) step)) (step : EngineStep)
    (stage : Stage) : R stage (takeStep step stage).2 := by
  generalize hlater : stage.after (perform (interference stage.front.scripts.length) step) = later
  have hrequest : R stage later := hlater ▸ requests _ step stage
  have hemptied : R later { later with sink := emptiedSink later.sink } :=
    admits.deed _ _ (.aside ⟨rfl, rfl, rfl, rfl, rfl, rfl, rfl, rfl, rfl, rfl, rfl⟩)
  have hreported : R { later with sink := emptiedSink later.sink } (takeStep step stage).2 := by
    subst hlater
    exact admits.front _ _ rfl
  exact IsTrans.trans _ _ _ hrequest (IsTrans.trans _ _ _ hemptied hreported)

/-- What requests respect, sessions respect. -/
theorem Admits.respects_afterSteps (admits : Admits R)
    (requests : ∀ depth step, Respects R (perform (interference depth) step))
    (steps : List EngineStep) (stage : Stage) : R stage (afterSteps steps stage) := by
  induction steps generalizing stage with
  | nil => exact Std.Refl.refl stage
  | cons step steps ih =>
    exact IsTrans.trans _ _ _ (admits.respects_takeStep requests step stage) (ih _)

/-- A session respects a relation that each of its requests respects. -/
theorem respects_afterSteps (changes : ∀ before after : Stage, Change before after → R before after)
    (requests : ∀ depth step, Respects R (perform (interference depth) step))
    (steps : List EngineStep) (stage : Stage) : R stage (afterSteps steps stage) :=
  (Admits.of_changes changes).respects_afterSteps requests steps stage

end Steps

/-- A workspace with one source, `a`, whose compiler writes its assembly in two chunks. -/
def sampleStage : Stage :=
  { host := { programs := [("g++", { output := some [[97], [98]] }), ("c++filt", {})] }
    workspace := "/"
    settings := ⟨"/", []⟩
    sink := .buffer {}
    locator := {}
    environment := []
    rewrites := []
    watching := false
    databases := [{ location := "/c", commands := [("a", ⟨"/", "a", ["g++"]⟩)], attached := true }]
    front := {} }

/-- The run of the one source gives both chunks. -/
example : sampleStage.result (run (interference 0) 0 "a" none) = .ok "ab" := by decide +kernel

end AsmScope.Scenario
