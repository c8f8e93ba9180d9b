import AsmScope.Proofs.Reachability
/-! # Cancelled runs

A run whose token is cancelled while it is undecided fails as cancelled once both of its programs
have been started: whatever its programs do then, the token is looked at before any other failure
(`Task.Step.doomed`). What is left is the time between the two starts, when the compiler has been
started and the demangler cannot be: then the run fails for want of a demangler, although it was
cancelled. `Scenario.result_run_of_cancelled` says exactly how a cancelled run ends. -/

namespace AsmScope

open Engine

/-- Both programs have been started, or the run is going to end as cancelled. -/
def Point.Doomed : Point → Prop
  | register _ | translating .. => True
  | point => point.outcome? = some (.error .cancelled)

/-- No program has been started. -/
def Point.Preparing : Point → Prop
  | prepare | startCompiler .. => True
  | _ => False

/-- Why the step that starts the demangler is going to fail, if it is. -/
def Engine.demanglerFailure? {α : Type} (engine : Engine α) : Point → Option Failure
  | .startDemangler _ demangler _ =>
    match demangler.text? with
    | none => some .settingNotText
    | some name =>
      match engine.host.start name [] none none true with
      | .error error => some (.spawn .demangler name error)
      | .ok _ => none
  | _ => none

/-- A demangler that cannot be started is another failure than a cancellation. -/
theorem Engine.demanglerFailure?_ne_cancelled {α : Type} {engine : Engine α} {point : Point}
    {failure : Failure} (h : engine.demanglerFailure? point = some failure) :
    failure ≠ .cancelled := by
  rintro rfl
  unfold demanglerFailure? at h
  split at h
  · split at h
    · cases h
    · split at h <;> cases h
  · cases h

namespace Task

variable {α : Type} {task : Task α} {point next : Point} {engine later : Engine α}

/-- While both processes are registered, a cancelled run fails as cancelled or goes on. -/
theorem PassageStep.doomed {pair : Pair} {passage : Passage}
    (step : task.PassageStep pair passage engine next later)
    (cancelled : engine.isCancelled task.token) : next.Doomed := by
  cases step with
  | endedCancelled | cancelled => rfl
  | refused going | compilerFailed going | demanglerFailed going | demanglerDone going =>
    rw [cancelled] at going
    cases going
  | _ => trivial

/-- A doomed run stays doomed, step by step, as long as its token is cancelled. -/
theorem Step.doomed (step : task.Step point engine next later) (h : point.Doomed)
    (cancelled : engine.isCancelled task.token) : next.Doomed := by
  cases step with
  | register => trivial
  | translating step => exact step.doomed cancelled
  | unregister | stopDemangler | stopCompiler | finished => exact h
  | _ => cases h

/-- The demangler is started, or it is known why not. -/
theorem Step.startDemangler {compilerName : String} {demangler : Json} {compiler : ProcessId}
    (step : task.Step (.startDemangler compilerName demangler compiler) engine next later) :
    (∃ failure, engine.demanglerFailure? (.startDemangler compilerName demangler compiler) =
      some failure ∧ next.outcome? = some (.error failure)) ∨
      engine.demanglerFailure? (.startDemangler compilerName demangler compiler) = none ∧
        next.Doomed := by
  cases step with
  | nameNotText noText => exact .inl ⟨_, by simp [demanglerFailure?, noText], rfl⟩
  | demanglerNotStarted text failed =>
    exact .inl ⟨_, by simp [demanglerFailure?, text, failed], rfl⟩
  | demanglerStarted text started =>
    exact .inr ⟨by simp [demanglerFailure?, text, started], trivial⟩

variable (fires : ∀ executable moment engine,
  From 0 (Spares 0) engine (task.fire executable moment engine))
include fires

/-- A doomed run is doomed at every later moment, if its token is cancelled at the earlier one. -/
theorem timeline_doomed {begun : Engine α} {n m : Nat} (hle : n ≤ m)
    (h : (task.timeline begun n).1.Doomed)
    (cancelled : (task.timeline begun n).2.isCancelled task.token) :
    (task.timeline begun m).1.Doomed := by
  induction hle with
  | refl => exact h
  | @step m hle ih =>
    exact (timeline_step task begun m).doomed ih (timeline_cancelled fires hle cancelled)

/-- Once both programs have been started, a cancelled run fails as cancelled. -/
theorem result_compile_of_doomed {begun : Engine α} {n : Nat}
    (h : (task.timeline begun n).1.Doomed)
    (cancelled : (task.timeline begun n).2.isCancelled task.token) :
    begun.result task.compile = .error .cancelled := by
  obtain ⟨last, hlast⟩ := exists_timeline_finished task begun
  have hend := timeline_doomed fires (Nat.le_max_left n last) h cancelled
  rw [timeline_eq_of_le hlast (Nat.le_max_right n last)] at hend
  exact Option.some.inj hend

/-- **How a run ends that was cancelled while it was undecided.** -/
theorem result_compile_of_cancelled {begun : Engine α} {n : Nat}
    (undecided : (task.timeline begun n).1.Undecided)
    (underway : ¬(task.timeline begun n).1.Preparing)
    (cancelled : (task.timeline begun n).2.isCancelled task.token) :
    begun.result task.compile =
      .error (((task.timeline begun n).2.demanglerFailure? (task.timeline begun n).1).getD
        .cancelled) := by
  have hnow : (task.timeline begun n).1.Doomed → begun.result task.compile = .error .cancelled :=
    fun h => result_compile_of_doomed fires h cancelled
  have hstep := timeline_step task begun n
  -- what is left to be decided depends on how many programs have been started
  cases hpoint : (task.timeline begun n).1 with
  | prepare | startCompiler => exact absurd (by rw [hpoint]; trivial) underway
  | startDemangler compilerName demangler compiler =>
    rw [hpoint] at hstep
    rcases hstep.startDemangler with ⟨failure, hfailure, houtcome⟩ | ⟨hnone, hdoomed⟩
    · -- the token is not looked at between the two starts
      rw [hfailure]
      exact result_compile_of_outcome? houtcome
    · rw [hnone]
      exact result_compile_of_doomed fires hdoomed
        (timeline_cancelled fires (Nat.le_succ n) cancelled)
  | register | translating => exact hnow (by rw [hpoint]; trivial)
  | unregister | stopDemangler | stopCompiler | finished =>
    rw [hpoint] at undecided
    exact undecided.elim

end Task

/-! ### Before the first start -/

namespace Task

variable {α : Type} {task : Task α} {point next : Point} {engine later : Engine α}

/-- Nobody acts before the first start. -/
theorem Step.preparing (step : task.Step point engine next later) (h : next.Preparing) :
    point.Preparing ∧ later.tokens = engine.tokens := by
  cases step with
  | prepared => exact ⟨trivial, (sameRuns_announce _ engine).tokens⟩
  | translating step => cases step <;> exact h.elim
  | _ => exact h.elim

/-- A run whose compiler has not been started is not cancelled. -/
theorem timeline_preparing {begun : Engine α} (fresh : begun.isCancelled task.token = false)
    (n : Nat) (h : (task.timeline begun n).1.Preparing) :
    (task.timeline begun n).2.isCancelled task.token = false := by
  induction n with
  | zero => exact fresh
  | succ n ih =>
    obtain ⟨hearlier, htokens⟩ := (timeline_step task begun n).preparing h
    rw [isCancelled, htokens]
    exact ih hearlier

end Task

namespace Scenario

/-- **How a run ends that was cancelled while it was undecided.** It fails as cancelled, of which
only the journal is told, unless the demangler cannot be started after the compiler was. -/
theorem result_run_of_cancelled {depth : Nat} {stage begun : Stage} {id : DatabaseId}
    {source : String} {override : Option (List String)} {task : Task Ledger} {n : Nat}
    (reachable : Reachable stage)
    (begins : stage.Begins (interference depth) id source override task begun)
    (undecided : (task.timeline begun n).1.Undecided)
    (cancelled : (task.timeline begun n).2.isCancelled task.token) :
    let moment := task.timeline begun n
    let result := stage.result (run (interference depth) id source override)
    let later := stage.after (run (interference depth) id source override)
    result = .error ((moment.2.demanglerFailure? moment.1).getD .cancelled) ∧
      (result = .error .cancelled ↔ moment.2.demanglerFailure? moment.1 = none) ∧
      (result = .error .cancelled → later.sink = (begun.after task.compile).sink ∧
        later.host.journal = (begun.after task.compile).host.journal ++
          [⟨.info, "pipeline", "Compilation of " ++ source ++ " cancelled"⟩]) := by
  have hfires : ∀ executable moment stage,
      From 0 (Spares 0) stage (task.fire executable moment stage) :=
    respects_fire (Spares.allows 0) begins.fire
  have hfresh := reachable.grounded.isCancelled_begun begins.start
  -- nobody can have cancelled the run before its compiler was started
  have hunderway : ¬(task.timeline begun n).1.Preparing := by
    intro hpreparing
    rw [Task.timeline_preparing hfresh n hpreparing] at cancelled
    cases cancelled
  have hcompile := Task.result_compile_of_cancelled hfires undecided hunderway cancelled
  have hresult := begins.result_run_of_error hcompile
  refine ⟨hresult, ?_, fun hcancelled => ?_⟩
  · rw [hresult]
    cases hfailure : (task.timeline begun n).2.demanglerFailure? (task.timeline begun n).1 with
    | none => simp
    | some failure => simpa using demanglerFailure?_ne_cancelled hfailure
  · have hreport : begun.result (timed task.compile) = .error .cancelled := by
      obtain ⟨seconds, hseconds⟩ := Option.isSome_iff_exists.1 begins.readable
      rw [hresult] at hcancelled
      rw [result_timed, hseconds, hcompile, Except.error.inj hcancelled]
    rw [begins.after_run, hreport]
    exact ⟨rfl, rfl⟩

/-- The sample without a demangler, where another thread cancels the run as its compiler starts. -/
def cancelledStage : Stage :=
  { sampleStage with
    host := { programs := [("g++", { output := some [[97], [98]] })] }
    front := { scripts := [⟨"g++", .spawned, [.cancelRun 0]⟩], numbered := [0] } }

/-- The run of the one source there. -/
def cancelledTask : Task Ledger := ⟨interference 1, 0, ⟨"/", "a", ["g++"]⟩, "a", none⟩

/-- The run of the sample begins with what its database has for the source. -/
theorem begins_cancelledTask : cancelledStage.Begins (interference 1) 0 "a" none cancelledTask
    (cancelledStage.beginCompilation 0).2 where
  command := by decide +kernel
  start := rfl
  fire := rfl
  source := rfl
  override := rfl
  readable := by decide +kernel

/-- The run is cancelled before the step that is to start its demangler. -/
theorem moment_cancelledTask :
    let moment := cancelledTask.timeline (cancelledStage.beginCompilation 0).2 2
    moment.1 = .startDemangler "g++" (.text "c++filt") 0 ∧
      moment.2.isCancelled cancelledTask.token :=
  ⟨rfl, by decide +kernel⟩

/-- The run that is cancelled as its compiler starts fails for want of a demangler. -/
theorem result_run_of_cancelled_sample :
    cancelledStage.result (run (interference 1) 0 "a" none) =
      .error (((cancelledTask.timeline (cancelledStage.beginCompilation 0).2 2).2.demanglerFailure?
        (cancelledTask.timeline (cancelledStage.beginCompilation 0).2 2).1).getD .cancelled) :=
  (result_run_of_cancelled (.fresh rfl (by simp [cancelledStage, sampleStage]))
    begins_cancelledTask (by rw [moment_cancelledTask.1]; trivial) moment_cancelledTask.2).1

/-- Not every run that is cancelled while it is undecided ends as cancelled, and the sink is told of
the other failure. -/
theorem not_all_cancelled_runs_end_cancelled :
    let begun := (cancelledStage.beginCompilation 0).2
    cancelledStage.Begins (interference 1) 0 "a" none cancelledTask begun ∧
      (cancelledTask.timeline begun 2).1.Undecided ∧
      (cancelledTask.timeline begun 2).2.isCancelled cancelledTask.token ∧
      cancelledStage.result (run (interference 1) 0 "a" none) =
        .error (.spawn .demangler "c++filt" ⟨.noEntry, some "c++filt"⟩) ∧
      sinkContent (cancelledStage.after (run (interference 1) 0 "a" none)).sink =
        (["Compiling using: g++ /a -g -S -o -", "Demangler: c++filt",
          "cannot start demangler 'c++filt': [Errno 2] No such file or directory: 'c++filt'"],
          true) := by
  refine ⟨begins_cancelledTask, ?_, moment_cancelledTask.2, by decide +kernel, by decide +kernel⟩
  rw [moment_cancelledTask.1]
  trivial

end Scenario

end AsmScope
