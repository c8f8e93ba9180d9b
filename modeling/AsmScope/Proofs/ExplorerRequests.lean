import AsmScope.Explorer.Steps
import AsmScope.Proofs.Acts
import AsmScope.Proofs.Chronicle
/-! # Steps of the explorer as chains of deeds

A step of the explorer is made of requests to the engine, whose deeds do not touch the explorer, of
the events that happen to the explorer meanwhile, and of the runs of its workers. A plain step takes
no worker out of the queue, cancels nothing and leaves no message, so for it two events are enough:
a run is asked for, or something changes that is not about runs (`respects_plain`).

What stands before the engine has no influence on runs. So a relation that does not look at it, and
contains the deeds and the runs, is respected by every step (`respects_perform`, `respects_take`) and
by the scripts that are played during runs, however deep these nest (`respects_interference`). -/

namespace AsmScope

/-- A step that runs and cancels nothing and leaves no message. -/
def ExplorerStep.Plain : ExplorerStep → Prop
  | .work | .cancel | .submit | .message _ => False
  | _ => True

namespace ExplorerStage

open Engine

variable {R : ExplorerStage → ExplorerStage → Prop} [IsPreorder ExplorerStage R]

section Requests

variable (deeds : ∀ before after : ExplorerStage, Deed (fun _ => True) before after →
  R before after)

include deeds in
/-- Looking the build's own command up may open its database. -/
theorem respects_entryArguments : Respects R entryArguments := by
  intro stage
  rw [entryArguments, after_get_bind]
  refine Respects.bind (fun stage => ?_) (fun outcome => ?_) stage
  · exact respects_databaseFor deeds _ stage
  · split
    · exact .of_after_eq fun _ => rfl
    · split <;> exact .of_after_eq fun _ => rfl

variable (outside : ∀ before after : ExplorerStage, Outside before after → R before after)
variable (observes : ∀ (stage : ExplorerStage) (observers : Observers Listener),
  R stage { stage with observers })

section Plain

variable (fronts : ∀ (stage : ExplorerStage) (event : Explorer.Event) (explorer : Explorer),
  event = .refreshed ∨ event = .elsewhere → Explorer.Happens event stage.front explorer →
    R stage { stage with front := explorer })

include fronts

omit [IsPreorder ExplorerStage R] in
/-- A refresh is something that the explorer does by itself, so it is related. -/
theorem relates_refresh (stage : ExplorerStage) : R stage (modifyFront Explorer.refresh stage) :=
  fronts stage .refreshed _ (.inl rfl) .refreshed

omit [IsPreorder ExplorerStage R] in
/-- What is done to the palette, the log view and the notes is related. -/
theorem relates_elsewhere (stage : ExplorerStage) (palette : Palette) (logVisible : Bool)
    (logLines notes : List String) :
    R stage { stage with front := { stage.front with palette, logVisible, logLines, notes } } :=
  fronts stage .elsewhere _ (.inr rfl)
    (.elsewhere palette logVisible logLines notes (List.Subset.refl _))

include observes in
/-- Putting the explorer on the screen respects the relation. -/
theorem respects_mount : Respects R mount := by
  have hrefresh : Respects R (modify (modifyFront Explorer.refresh) : Action Explorer PUnit) :=
    .modify_of (relates_refresh fronts)
  intro stage
  rw [mount, after_get_bind]
  split
  · split
    · next observers _ => exact IsTrans.trans _ _ _ (observes stage observers) (hrefresh _)
    · exact Std.Refl.refl stage
  · exact hrefresh stage

include deeds

/-- Taking the lines out of the sink and into the log is related. -/
theorem relates_flush (stage : ExplorerStage) : R stage (flush stage) := by
  unfold flush
  split
  · exact Std.Refl.refl stage
  · -- the sink is emptied, and what was in it goes to the log
    have hdrained : ∀ sink : Sink, R stage { stage with sink } := fun _ =>
      deeds _ _ (.aside ⟨rfl, rfl, rfl, rfl, rfl, rfl, rfl, rfl, rfl, rfl, rfl⟩)
    exact IsTrans.trans _ _ _ (hdrained _) (relates_elsewhere fronts _ stage.front.palette _ _
      stage.front.notes)

include outside observes

/-- **Plain steps are chains of deeds**, during which runs are asked for. -/
theorem respects_plain {fire : Interference Explorer} {step : ExplorerStep} (plain : step.Plain) :
    Respects R (perform fire step) := by
  cases step with
  | host step => exact Engine.respects_hostStep deeds outside (relates_refresh fronts) step
  | mount => exact respects_mount observes fronts
  | unmount =>
    refine .modify_of fun stage => ?_
    exact IsTrans.trans _ _ _ (observes stage (stage.observers.erase .source))
      (deeds _ _ (.closed fun _ => trivial))
  | refresh => exact .modify_of (relates_refresh fronts)
  | toggleLog => exact .modify_of fun stage => relates_elsewhere fronts stage _ _ _ _
  | toggleCommand =>
    exact .bind (respects_entryArguments deeds) fun _ =>
      .modify_of fun stage => relates_elsewhere fronts stage _ _ _ _
  | flush => exact .modify_of (relates_flush deeds fronts)
  | type | editEntry | escape =>
    exact .modify_of fun stage => relates_elsewhere fronts stage _ _ _ _
  | work | cancel | submit | message => exact plain.elim

end Plain

/-! ### Workers -/

/-- What a worker has to say about the answer to its request. -/
def report (outcome : Except Failure String) : Action Explorer Unit :=
  match outcomeMessage outcome, outcome with
  | some message, _ => modify (modifyFront fun explorer => explorer.post message)
  | none, .error failure => throw failure
  | none, .ok _ => return

/-- A worker that is taken out of the queue asks and reports. -/
theorem work_of_queue {stage : ExplorerStage} (fire : Interference Explorer)
    {override : List String} {queue : List (List String)}
    (next : stage.front.queue = override :: queue) :
    let asking := modifyFront (fun explorer => { explorer with queue }) stage
    let request := Engine.compile fire stage.front.source
      (if override.isEmpty then none else some override)
    stage.result (work fire) = asking.result (observe request >>= report) ∧
      stage.after (work fire) = asking.after (observe request >>= report) := by
  intro asking request
  rw [work, result_get_bind, after_get_bind, next]
  exact ⟨rfl, rfl⟩

/-- When a worker has asked and reported, the messages are handled. -/
theorem after_take_of_queue {stage : ExplorerStage} {fire : Interference Explorer}
    {override : List String} {queue : List (List String)}
    (next : stage.front.queue = override :: queue) :
    let asking := modifyFront (fun explorer => { explorer with queue }) stage
    let request := Engine.compile fire stage.front.source
      (if override.isEmpty then none else some override)
    stage.after (take fire .work) = (asking.after request).after
      (report (asking.result request) >>= fun _ => modify (modifyFront Explorer.handleAll)) := by
  intro asking request
  obtain ⟨hresult, hafter⟩ := work_of_queue fire next
  have htake : take fire .work =
      work fire >>= fun _ => modify (modifyFront Explorer.handleAll) := rfl
  rw [htake, after_bind, hresult, hafter, ← after_bind, bind_assoc, after_bind, result_observe,
    after_observe]

/-- A worker fails where its report does. -/
theorem result_take_of_queue {stage : ExplorerStage} {fire : Interference Explorer}
    {override : List String} {queue : List (List String)}
    (next : stage.front.queue = override :: queue) :
    let asking := modifyFront (fun explorer => { explorer with queue }) stage
    let request := Engine.compile fire stage.front.source
      (if override.isEmpty then none else some override)
    stage.result (take fire .work) = (asking.after request).result
      (report (asking.result request) >>= fun _ => modify (modifyFront Explorer.handleAll)) := by
  intro asking request
  obtain ⟨hresult, hafter⟩ := work_of_queue fire next
  have htake : take fire .work =
      work fire >>= fun _ => modify (modifyFront Explorer.handleAll) := rfl
  rw [htake, result_bind, hresult, hafter, ← result_bind, bind_assoc, result_bind, result_observe,
    after_observe]

/-! ### Steps behind any front -/

section Fronts

variable (fronts : ∀ (stage : ExplorerStage) (explorer : Explorer),
  R stage { stage with front := explorer })
variable {fire : Interference Explorer}
  (runs : ∀ id source override, Respects R (run fire id source override))

include deeds fronts

/-- The cancel of a user respects the relation. -/
theorem respects_cancel : Respects R cancel := by
  intro stage
  rw [cancel, after_get_bind]
  refine Respects.bind (Engine.respects_cancel deeds (fun _ => trivial) _) (fun found => ?_) stage
  split <;> exact .modify_of fun _ => fronts _ _

include runs

/-- The work of the next worker respects the relation, if runs do. -/
theorem respects_work : Respects R (work fire) := by
  intro stage
  rw [work, after_get_bind]
  split
  · exact Std.Refl.refl stage
  · next override queue _ =>
    rw [after_set_bind]
    -- the worker is taken out of the queue, and then it compiles
    refine IsTrans.trans _ _ _ (fronts stage { stage.front with queue }) ?_
    refine Respects.bind (fun stage => ?_) (fun outcome => ?_) _
    · exact Engine.respects_compile deeds (fun id => runs id _ _) stage
    · split
      · exact .modify_of fun _ => fronts _ _
      · exact .of_after_eq fun _ => rfl
      · exact .pure_of _

include outside observes

/-- **Every step is a chain of deeds and runs.** -/
theorem respects_perform (step : ExplorerStep) : Respects R (perform fire step) := by
  cases step with
  | work => exact respects_work deeds fronts runs
  | cancel => exact respects_cancel deeds fronts
  | submit | message => exact .modify_of fun _ => fronts _ _
  | host | mount | unmount | refresh | toggleLog | toggleCommand | flush | type | editEntry
  | escape => exact respects_plain deeds outside observes (fun _ _ _ _ _ => fronts _ _) trivial

/-- Every step of an explorer respects the relation, if runs do. -/
theorem respects_take (step : ExplorerStep) : Respects R (take fire step) :=
  .bind (respects_perform deeds outside observes fronts runs step) fun _ =>
    .modify_of fun _ => fronts _ _

end Fronts

end Requests

/-! ### Scripts -/

/-- What a script does is related if each of its steps respects the relation. -/
theorem relates_playScript {fire : Interference Explorer} {steps : List ExplorerStep}
    (takes : ∀ step ∈ steps, Respects R (take fire step)) (stage : ExplorerStage) :
    R stage (playScript fire steps stage) := by
  induction steps generalizing stage with
  | nil => exact Std.Refl.refl stage
  | cons step steps ih =>
    exact IsTrans.trans _ _ _ (takes step List.mem_cons_self stage)
      (ih (fun other hother => takes other (List.mem_cons_of_mem _ hother)) _)

/-- **Scripted interference is a chain of changes and runs**, however deep it nests. -/
theorem respects_interference
    (changes : ∀ before after : ExplorerStage, Change before after → R before after)
    (runs : ∀ fire : Interference Explorer, (∀ executable moment stage,
        R stage (fire executable moment stage)) →
      ∀ id source override, Respects R (run fire id source override))
    (depth : Nat) (executable : String) (moment : Moment) (stage : ExplorerStage) :
    R stage (interference depth executable moment stage) := by
  have hfront : ∀ (stage : ExplorerStage) (explorer : Explorer),
      R stage { stage with front := explorer } :=
    fun _ _ => changes _ _ (.elsewhere ⟨rfl, rfl, rfl, rfl⟩)
  refine Script.relates_interference (fun depth fires _ _ stage steps front _ => ?_) depth
    executable moment stage
  -- the runs of the script are disturbed by the scripts of the next depth only
  refine IsTrans.trans _ _ _ (hfront stage front) (relates_playScript (fun step _ => ?_) _)
  exact respects_take (respects_deed fun _ _ calm => changes _ _ calm.change)
    (fun _ _ same => changes _ _ (.elsewhere same.sameRuns))
    (fun _ _ => changes _ _ (.elsewhere ⟨rfl, rfl, rfl, rfl⟩)) hfront (runs _ fires) step

/-- **What scripts do is respected**, however deep their runs nest. -/
theorem respects_interference_from {first : Nat} (allows : Allows first R) (depth : Nat)
    (executable : String) (moment : Moment) (stage : ExplorerStage) :
    From first R stage (interference depth executable moment stage) :=
  respects_interference (Task.from_of_change allows)
    (fun _ fires => Task.respects_run allows fires) depth executable moment stage

end ExplorerStage

end AsmScope
