import AsmScope.Proofs.CancelledRuns
import Mathlib.Logic.Relation
/-! # What a cancelled run still says

Lines reach the sink from a run itself and from whatever else acts during it. `Unheard` is what a
run does without a word of its own: the rest of the program acts, and the run leaves sink and
journal alone. After its announcement a run only speaks up at the end of a wait, where it passes on
what the process said on its error channel (`Task.Step.unheard_or_reports`).

The token is looked at after that report, and not at all between the close of the demangler's input
and the end of the wait for it. So a cancelled run falls silent unless it was cancelled on the way
to such a wait: then it reports that one process before it fails
(`Scenario.reports_of_cancelled_run`). -/

namespace AsmScope

namespace Engine

variable {α : Type}

/-- One thing that happens without a word of the run. -/
inductive Hush (fire : Interference α) : Engine α → Engine α → Prop
  /-- The rest of the program acts. -/
  | other {engine : Engine α} (executable : String) (moment : Moment) :
      Hush fire engine (fire executable moment engine)
  /-- The run leaves sink and journal alone. -/
  | still {before after : Engine α} (sink : after.sink = before.sink)
      (journal : after.host.journal = before.host.journal) : Hush fire before after

/-- What happens without a word of the run, one thing after the other. -/
def Unheard (fire : Interference α) : Engine α → Engine α → Prop :=
  Relation.ReflTransGen (Hush fire)

instance (fire : Interference α) : IsPreorder (Engine α) (Unheard fire) where
  refl _ := .refl
  trans _ _ _ := .trans

/-- What others do at a moment is not a word of the run. -/
theorem unheard_fire (fire : Interference α) (executable : String) (moment : Moment)
    (engine : Engine α) : Unheard fire engine (fire executable moment engine) :=
  .single (.other executable moment)

/-- Where sink and journal are the same nothing was said. -/
theorem Unheard.still {fire : Interference α} {before after : Engine α}
    (sink : after.sink = before.sink) (journal : after.host.journal = before.host.journal) :
    Unheard fire before after := .single (.still sink journal)

/-- What a process says on its error channel. -/
def diagnostics (engine : Engine α) (id : ProcessId) : Bytes :=
  ((engine.host.process? id).map fun process => process.program.diagnostics).getD []

/-- The wait for a process, without a word of the run until it is over, and the report of what the
process said, if it said something. -/
def Reports (fire : Interference α) (id : ProcessId) (before after : Engine α) : Prop :=
  let waited := before.after (awaitExit fire id)
  Unheard fire before waited ∧ after =
    if (waited.diagnostics id).isEmpty then waited
    else (waited.appendLine (Utf8.decodeReplacing (waited.diagnostics id))).showOutput

/-- A process that said nothing on its error channel is not reported on, and what another one said
is written out and shown. -/
theorem after_reportDiagnostics (engine : Engine α) (id : ProcessId) :
    engine.after (reportDiagnostics id) =
      if (engine.diagnostics id).isEmpty then engine
      else (engine.appendLine (Utf8.decodeReplacing (engine.diagnostics id))).showOutput := by
  rw [reportDiagnostics, after_get_bind]
  unfold diagnostics
  dsimp only
  generalize ((engine.host.process? id).map fun p => p.program.diagnostics).getD [] = bytes
  cases bytes <;> rfl

/-- Registering the processes of a run is done without a word. -/
theorem hush_registerRun (fire : Interference α) (engine : Engine α) (token : TokenId)
    (run : RunProcesses) : Hush fire engine (engine.registerRun token run) := by
  unfold registerRun
  split
  · exact .still rfl rfl
  · refine .still rfl ?_
    dsimp only
    split <;> rfl

/-- A process is started without a word of the run. -/
theorem Starts.unheard {fire : Interference α} {before after : Engine α}
    (start : Starts before after) : Unheard fire before after := by
  obtain ⟨process, rfl⟩ := start
  exact .still rfl rfl

end Engine

open Engine

/-- The wait that a run may reach without looking at its token: in how many steps, and for which
process. -/
def Point.wait? : Point → Option (Nat × ProcessId)
  | translating pair .awaitCompiler => some (0, pair.compiler)
  | translating pair .closing => some (2, pair.demangler)
  | translating pair .close => some (1, pair.demangler)
  | translating pair .awaitDemangler => some (0, pair.demangler)
  | _ => none

namespace Task

variable {α : Type} {task : Task α} {pair : Pair} {passage : Passage} {point next : Point}
  {engine later : Engine α}

/-- A process is stopped without a word of the run. -/
theorem unheard_cleanUp (fire : Interference α) (id : ProcessId) (engine : Engine α) :
    Unheard fire engine ((cleanUp fire id).run engine).2 :=
  respects_cleanUp (unheard_fire fire) id (.still rfl rfl)

/-- A step of the translation is done without a word, but where it waits for a process and reports
what it said. -/
theorem PassageStep.unheard_or_reports
    (step : task.PassageStep pair passage engine next later) :
    Unheard task.fire engine later ∨ ∃ id,
      (Point.translating pair passage).wait? = some (0, id) ∧
        Reports task.fire id engine later := by
  have hfires := unheard_fire task.fire
  cases step with
  | readEnd | readChunk | closing => exact .inl (respects_interfereWhileRunning hfires _ _ _)
  | write => exact .inl (respects_interfere hfires _ _ _)
  | taken | ended | endedCancelled | closed => exact .inl (.still rfl rfl)
  | awaitCompiler waited =>
    subst waited
    exact .inr ⟨_, rfl, respects_awaitExit hfires _ _, after_reportDiagnostics _ _⟩
  | awaitDemangler waited =>
    subst waited
    exact .inr ⟨_, rfl, respects_awaitExit hfires _ _, after_reportDiagnostics _ _⟩
  | _ => exact .inl (Std.Refl.refl _)

/-- **After the announcement, a run only speaks up at the end of a wait.** -/
theorem Step.unheard_or_reports (step : task.Step point engine next later)
    (announced : point ≠ .prepare) :
    Unheard task.fire engine later ∨ ∃ id, point.wait? = some (0, id) ∧
      Reports task.fire id engine later := by
  have hfires := unheard_fire task.fire
  cases step with
  | empty | notLocated | prepared => exact absurd rfl announced
  | translating step => exact step.unheard_or_reports
  | compilerStarted started =>
    exact .inl ((starts_of_start started).2.unheard.trans (respects_interfere hfires _ _ _))
  | demanglerStarted text started =>
    exact .inl ((starts_of_start started).2.unheard.trans (respects_interfere hfires _ _ _))
  | register registered =>
    subst registered
    exact .inl (.single (hush_registerRun _ _ _ _))
  | unregister => exact .inl (.still rfl rfl)
  | stopDemangler | stopCompiler => exact .inl (unheard_cleanUp _ _ _)
  | _ => exact .inl (Std.Refl.refl _)

/-- Whoever is on the way to a wait and cancelled has been on the way to it a step before. -/
theorem Step.wait?_eq (step : task.Step point engine next later)
    (cancelled : later.isCancelled task.token) {k : Nat} {id : ProcessId}
    (h : next.wait? = some (k, id)) : point.wait? = some (k + 1, id) := by
  cases step with
  | translating step =>
    cases step with
    | closing | closed =>
      cases h
      rfl
    | ended going | compilerDone going =>
      -- the way to a wait begins with a look at the token
      exact absurd (going.symm.trans cancelled) Bool.false_ne_true
    | _ => cases h
  | _ => cases h

/-- Nobody acts while a run is prepared. -/
theorem timeline_ne_prepare {begun : Engine α} (fresh : begun.isCancelled task.token = false)
    {n : Nat} (cancelled : (task.timeline begun (n + 1)).2.isCancelled task.token) :
    (task.timeline begun n).1 ≠ .prepare := by
  intro hprepare
  have hstep := timeline_step task begun n
  have hbefore := timeline_preparing fresh n (by rw [hprepare]; trivial)
  rw [hprepare] at hstep
  have htokens : (task.timeline begun (n + 1)).2.tokens = (task.timeline begun n).2.tokens := by
    generalize (task.timeline begun (n + 1)).1 = next at hstep
    generalize (task.timeline begun (n + 1)).2 = later at hstep
    cases hstep with
    | empty => rfl
    | notLocated | prepared => exact (sameRuns_announce _ _).tokens
  rw [isCancelled, htokens] at cancelled
  exact absurd (hbefore.symm.trans cancelled) Bool.false_ne_true

variable (fires : ∀ executable moment engine,
  From 0 (Spares 0) engine (task.fire executable moment engine))
include fires

/-- A cancelled run does not set out for another wait. -/
theorem wait?_timeline_of_cancelled {begun : Engine α} {n m : Nat} (hle : n ≤ m)
    (cancelled : (task.timeline begun (n + 1)).2.isCancelled task.token) {k : Nat} {id : ProcessId}
    (h : (task.timeline begun m).1.wait? = some (k, id)) :
    (task.timeline begun n).1.wait? = some (k + (m - n), id) := by
  -- from the later point one step back at a time
  induction hle generalizing k with
  | refl => simpa using h
  | @step m hle ih =>
    have hcancelled := timeline_cancelled fires (Nat.succ_le_succ hle) cancelled
    rw [Nat.succ_sub hle, Nat.add_succ, ← Nat.succ_add]
    exact ih ((timeline_step task begun m).wait?_eq hcancelled h)

/-- **What a cancelled run still says**: the report at the end of the wait on the way to which it
was cancelled. -/
theorem timeline_unheard_or_reports {begun : Engine α}
    (fresh : begun.isCancelled task.token = false) {n m : Nat} (hle : n ≤ m)
    (cancelled : (task.timeline begun (n + 1)).2.isCancelled task.token) :
    Unheard task.fire (task.timeline begun m).2 (task.timeline begun (m + 1)).2 ∨
      ∃ id, (task.timeline begun n).1.wait? = some (m - n, id) ∧
        Reports task.fire id (task.timeline begun m).2 (task.timeline begun (m + 1)).2 := by
  have hannounced := timeline_ne_prepare fresh
    (timeline_cancelled fires (Nat.succ_le_succ hle) cancelled)
  rcases (timeline_step task begun m).unheard_or_reports hannounced with
    hunheard | ⟨id, hwait, hreports⟩
  · exact .inl hunheard
  · have hbefore := wait?_timeline_of_cancelled fires hle cancelled hwait
    exact .inr ⟨id, by rwa [Nat.zero_add] at hbefore, hreports⟩

end Task

namespace Scenario

/-- **A cancelled run falls silent unless it was cancelled on the way to a wait.** From the step in
which it is cancelled on it says nothing of its own, but for the report on the process of that wait;
its end is told to the journal only. -/
theorem reports_of_cancelled_run {depth : Nat} {stage begun : Stage} {id : DatabaseId}
    {source : String} {override : Option (List String)} {task : Task Ledger} {n : Nat}
    (reachable : Reachable stage)
    (begins : stage.Begins (interference depth) id source override task begun)
    (ended : stage.result (run (interference depth) id source override) = .error .cancelled)
    (cancelled : (task.timeline begun (n + 1)).2.isCancelled task.token) :
    (∀ m, n ≤ m →
      Unheard task.fire (task.timeline begun m).2 (task.timeline begun (m + 1)).2 ∨
        ∃ id, (task.timeline begun n).1.wait? = some (m - n, id) ∧
          Reports task.fire id (task.timeline begun m).2 (task.timeline begun (m + 1)).2) ∧
      let later := stage.after (run (interference depth) id source override)
      later.sink = (begun.after task.compile).sink ∧
        later.host.journal = (begun.after task.compile).host.journal ++
          [⟨.info, "pipeline", "Compilation of " ++ source ++ " cancelled"⟩] := by
  have hfires : ∀ executable moment stage,
      From 0 (Spares 0) stage (task.fire executable moment stage) :=
    respects_fire (Spares.allows 0) begins.fire
  have hfresh := reachable.grounded.isCancelled_begun begins.start
  refine ⟨fun m hle => Task.timeline_unheard_or_reports hfires hfresh hle cancelled, ?_⟩
  have hreport : begun.result (timed task.compile) = .error .cancelled := by
    rw [begins.result_run] at ended
    cases htimed : begun.result (timed task.compile) with
    | error failure =>
      rw [htimed] at ended
      exact congrArg _ (Except.error.inj ended)
    | ok timing =>
      rw [htimed] at ended
      cases ended
  rw [begins.after_run, hreport]
  exact ⟨rfl, rfl⟩

/-- The sample where the compiler warns, and another thread cancels the run when the compiler is
waited for. -/
def warnedStage : Stage :=
  { sampleStage with
    host := { programs := [("g++", { output := some [], diagnostics := [119] }), ("c++filt", {})] }
    front := { scripts := [⟨"g++", .waiting, [.cancelRun 0]⟩], numbered := [0] } }

/-- The run of the sample begins with what its database has for the source. -/
theorem begins_warnedStage : warnedStage.Begins (interference 1) 0 "a" none cancelledTask
    (warnedStage.beginCompilation 0).2 where
  command := by decide +kernel
  start := rfl
  fire := rfl
  source := rfl
  override := rfl
  readable := by decide +kernel

/-- What the run there still says is the report on its compiler. -/
theorem reports_of_cancelled_run_sample :
    let begun := (warnedStage.beginCompilation 0).2
    ∀ m, 6 ≤ m →
      Unheard cancelledTask.fire (cancelledTask.timeline begun m).2
          (cancelledTask.timeline begun (m + 1)).2 ∨
        ∃ id, (cancelledTask.timeline begun 6).1.wait? = some (m - 6, id) ∧
          Reports cancelledTask.fire id (cancelledTask.timeline begun m).2
            (cancelledTask.timeline begun (m + 1)).2 :=
  (reports_of_cancelled_run (.fresh rfl (by simp [warnedStage, sampleStage])) begins_warnedStage
    (by decide +kernel) (by decide +kernel)).1

/-- Not every run that ends as cancelled falls silent when it is cancelled: after the wait in which
it is cancelled it reports the warning of its compiler and asks for it to be shown. -/
theorem not_all_cancelled_runs_fall_silent :
    let begun := (warnedStage.beginCompilation 0).2
    let waited := (cancelledTask.timeline begun 6).2.after (awaitExit cancelledTask.fire 0)
    warnedStage.Begins (interference 1) 0 "a" none cancelledTask begun ∧
      warnedStage.result (run (interference 1) 0 "a" none) = .error .cancelled ∧
      waited.isCancelled cancelledTask.token ∧
      sinkContent waited.sink =
        (["Compiling using: g++ /a -g -S -o -", "Demangler: c++filt"], false) ∧
      (cancelledTask.timeline begun 7).2 = waited.after (reportDiagnostics 0) ∧
      sinkContent (waited.after (reportDiagnostics 0)).sink =
        (["Compiling using: g++ /a -g -S -o -", "Demangler: c++filt", "w"], true) ∧
      sinkContent (warnedStage.after (run (interference 1) 0 "a" none)).sink =
        (["Compiling using: g++ /a -g -S -o -", "Demangler: c++filt", "w"], true) :=
  ⟨begins_warnedStage, by decide +kernel, by decide +kernel, by decide +kernel, rfl,
    by decide +kernel, by decide +kernel⟩

end Scenario

end AsmScope
