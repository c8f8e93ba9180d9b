import AsmScope.Proofs.Visits
/-! # What the screen says about the runs

The counter, the indicator, the two views and the memory of a cancel are changed by four handlers,
whose messages may come in any order. What they say together is what the history of the explorer says
(`screen_of_history`, `cancelRequested_of_history`), and every explorer that a session may show has
one. -/

namespace AsmScope

namespace Explorer

variable {history : List Event} {explorer : Explorer}

/-- An event that settles a run and clears no cancel is a failure that is no cancellation. -/
theorem Event.exists_failed {event : Event} (settles : event.settles) (keeps : event.clears = false) :
    ∃ error, event = .handled (.failed error false) := by
  cases event with
  | handled message =>
    cases message with
    | finished asm => cases keeps
    | failed error cancelled =>
      cases cancelled with
      | true => cases keeps
      | false => exact ⟨error, rfl⟩
    | commandChanged arguments => cases settles
  | _ => cases settles

/-- The outcomes that were handled in two histories in a row are those of the one and of the
other. -/
theorem settled_append (earlier later : List Event) :
    settled (earlier ++ later) = settled earlier + settled later :=
  List.countP_append

/-- The runs that were started in two histories in a row are those of the one and of the other. -/
theorem started_append (earlier later : List Event) :
    started (earlier ++ later) = started earlier + started later :=
  List.countP_append

/-- A cancel that is still pending when no run is outstanding was followed by a failure that is no
cancellation: the run that was found to cancel has ended like that. -/
theorem Pending.exists_failed (pending : Pending history) (attended : Attended history)
    (settled : settled history = started history) :
    ∃ earlier later error, history = earlier ++ .cancelled :: later ∧
      .handled (.failed error false) ∈ later ∧ ∀ event ∈ later, event.clears = false := by
  obtain ⟨earlier, later, rfl, hlater⟩ := pending
  have houtstanding := attended earlier .cancelled later rfl rfl
  -- more outcomes than runs come after the cancel
  have hsettled : 0 < Explorer.settled later := by
    rw [← List.singleton_append, settled_append, settled_append, started_append, started_append]
      at settled
    have hcancelled : Explorer.settled [.cancelled] = 0 := rfl
    omega
  obtain ⟨event, hevent, hsettles⟩ := List.countP_pos_iff.1 hsettled
  obtain ⟨error, rfl⟩ := Event.exists_failed hsettles (hlater event hevent)
  exact ⟨earlier, later, error, rfl, hevent, hlater⟩

end Explorer

namespace ExplorerStage

open Engine Explorer

/-- **The screen says what the history says.** As long as outcomes are handled only while a run is
outstanding, the counter is the number of runs whose outcome was not handled, the indicator is shown
as long as there are such runs, and of the two views exactly one is shown, with the last outcome that
was not a cancellation. Nothing else changes a view. Every explorer that a session passes through has
such a history, if no outcome is made up, and so has every one that is reported after a step: each
outcome is that of a worker that was taken out of the queue and has done its work. -/
theorem screen_of_history :
    (∀ history explorer, Lives history explorer → Balanced history →
      explorer.running + settled history = started history ∧
        explorer.busy = decide (settled history < started history) ∧
        explorer.Displays (lastShown history)) ∧
    (∀ event before after, Happens event before after → event.shown? = none →
      after.asm = before.asm ∧ after.error = before.error) ∧
    (∀ working stage, Visited ExplorerStep.Genuine working stage →
      ∃ history, Lives history stage.front ∧ Balanced history ∧
        settled history + working ≤ dequeued history) ∧
    ∀ host source workspace override scripts steps title reports,
      Scenario.playExplorer host source workspace override scripts steps = .ok (title, reports) →
      (∀ script ∈ scripts, ∀ step ∈ script.steps, step.Genuine) →
      (∀ step ∈ steps, step.Genuine) →
      ∀ report ∈ reports, ∃ history, Lives history report.explorer ∧ Balanced history ∧
        settled history ≤ dequeued history := by
  -- the chronicle of a visited stage is the history that is asked for
  have hvisited : ∀ working stage, Visited ExplorerStep.Genuine working stage →
      ∃ history, Lives history stage.front ∧ Balanced history ∧
        settled history + working ≤ dequeued history := by
    intro working stage visited
    obtain ⟨history, hchronicle, -⟩ := visited.chronicle
    obtain ⟨hbalanced, -, hworking⟩ := hchronicle.fair fun _ => id
    exact ⟨history, hchronicle.lives, hbalanced, hworking⟩
  refine ⟨fun history explorer lives balanced => ?_, ?_, hvisited, ?_⟩
  · have hrunning := lives.running_add balanced
    refine ⟨hrunning, ?_, lives.displays⟩
    rw [lives.busy_eq, decide_eq_decide]
    omega
  · intro event before after happens
    exact happens.effect.still
  · intro _ _ _ _ _ _ _ _ played scripted genuine report reported
    obtain ⟨stage, hstage, hshown⟩ :=
      exists_visited_of_playExplorer played scripted genuine reported
    rw [hshown]
    exact hvisited 0 stage hstage

/-- **A cancel is remembered until a result or a cancelled outcome is handled.** A cancelled outcome is
announced exactly while a cancel of the user is pending. When no run is outstanding, a cancel is still
pending only where a failure that is no cancellation was handled after it, and nothing that makes it
forgotten: then the next run that a newer one replaces is announced as cancelled. In a session without
made-up outcomes every explorer has a history of this kind. -/
theorem cancelRequested_of_history (stage : ExplorerStage) :
    (∀ history, Lives history stage.front →
      (stage.front.cancelRequested = true ↔ Pending history) ∧
      (∀ error, (Pending history →
          (stage.front.handle (.failed error true)).notes = stage.front.notes ++ [error]) ∧
        (¬Pending history → (stage.front.handle (.failed error true)).notes = stage.front.notes)) ∧
      (Balanced history → Attended history → stage.front.running = 0 →
        (stage.front.cancelRequested = true ↔
          ∃ earlier later error, history = earlier ++ .cancelled :: later ∧
            .handled (.failed error false) ∈ later ∧ ∀ event ∈ later, event.clears = false))) ∧
    ∀ working, Visited ExplorerStep.Genuine working stage →
      ∃ history, Lives history stage.front ∧ Balanced history ∧ Attended history := by
  refine ⟨fun history lives => ?_, fun working visited => ?_⟩
  · have hpending := lives.cancelRequested_iff
    refine ⟨hpending, fun error => ⟨fun h => ?_, fun h => ?_⟩, fun balanced attended still => ?_⟩
    · rw [handle_cancelled, hpending.2 h]
      rfl
    · rw [handle_cancelled, Bool.eq_false_iff.2 fun hrequested => h (hpending.1 hrequested)]
      exact List.append_nil _
    · rw [hpending]
      constructor
      · -- all runs are over, so their outcomes were handled
        intro h
        have hrunning := lives.running_add balanced
        exact h.exists_failed attended (by omega)
      · rintro ⟨earlier, later, error, heq, -, hlater⟩
        exact ⟨earlier, later, heq, hlater⟩
  · obtain ⟨history, hchronicle, -⟩ := visited.chronicle
    obtain ⟨hbalanced, hattended, -⟩ := hchronicle.fair fun _ => id
    exact ⟨history, hchronicle.lives, hbalanced, hattended⟩

/-- A machine on which the compiler of the one entry has a demangler that cannot be started. -/
def refusedHost : Host :=
  let index := "[\x7b\"directory\":\"/\",\"file\":\"a\",\"arguments\":[\"/o/g\"]\x7d]"
  { tree := ⟨[([['a']], .file { content := [] }),
      ([Engine.indexName.toList], .file { content := Utf8.encode index }), ([['o']], .directory),
      ([['o'], "c++filt".toList], .file { content := [], executable := true })], []⟩
    programs := [("/o/g", { output := some [] }), ("/g", { output := some [], exitCode := 1 }),
      ("c++filt", {})] }

/-- The user cancels when the compiler of the entry has been started. When another compiler has been
started, the next worker runs. -/
def refusedScripts : List (Script ExplorerStep) :=
  [⟨"/o/g", .spawned, [.cancel]⟩, ⟨"/g", .spawned, [.work]⟩]

/-- The explorer of the source on this machine can be made. -/
theorem created_refused : (create refusedHost "/a" none [] refusedScripts).1.toOption.isSome := by
  decide +kernel

/-- The explorer of the source on this machine, which has compiled it once. -/
def refusedStage : ExplorerStage :=
  playScript (interference 2) [.mount, .work]
    ((create refusedHost "/a" none [] refusedScripts).1.toOption.get created_refused)

/-- The one run of the sample has failed at the start of the demangler. -/
theorem refusedStage_front :
    refusedStage.front.running = 0 ∧ refusedStage.front.cancelRequested = true ∧
      refusedStage.front.notes = [] ∧
      refusedStage.front.error = ⟨true, "cannot start demangler '/o/c++filt': [Errno 2] " ++
        "No such file or directory: '/o/c++filt'"⟩ := by
  decide +kernel

/-- The sample is a stage that an explorer visits. -/
theorem visited_refusedStage : Visited ExplorerStep.Genuine 0 refusedStage := by
  have hscripts : ∀ script ∈ refusedScripts, ∀ step ∈ script.steps, step.Genuine := by decide
  exact (Visited.created (ok_get_toOption created_refused) hscripts).playScript 2 (by decide)

/-- The run of the explorer has a history that leaves the failure of the demangler on the screen. -/
theorem screen_of_history_sample :
    ∃ history, Lives history refusedStage.front ∧ Balanced history ∧
      settled history = started history ∧ lastShown history = .error refusedStage.front.error.text := by
  obtain ⟨hscreen, -, hvisited, -⟩ := screen_of_history
  obtain ⟨history, lives, balanced, -⟩ := hvisited 0 refusedStage visited_refusedStage
  obtain ⟨hrunning, -, hdisplays⟩ := hscreen history refusedStage.front lives balanced
  obtain ⟨hstill, -, -, herror⟩ := refusedStage_front
  refine ⟨history, lives, balanced, by omega, ?_⟩
  cases hlast : lastShown history with
  | ok asm =>
    -- the error view is shown, so it was no result
    rw [hlast] at hdisplays
    have hhidden := hdisplays.2
    rw [herror] at hhidden
    cases hhidden
  | error error =>
    rw [hlast] at hdisplays
    rw [hdisplays.1]

/-- The user has cancelled the run, which has failed after that. -/
theorem cancelRequested_of_history_sample :
    refusedStage.front.running = 0 ∧ refusedStage.front.cancelRequested = true ∧
      ∃ earlier later error, Lives (earlier ++ .cancelled :: later) refusedStage.front ∧
        .handled (.failed error false) ∈ later ∧ ∀ event ∈ later, event.clears = false := by
  obtain ⟨hremembers, hvisited⟩ := cancelRequested_of_history refusedStage
  obtain ⟨history, lives, balanced, attended⟩ := hvisited 0 visited_refusedStage
  obtain ⟨hstill, hrequested, -⟩ := refusedStage_front
  obtain ⟨-, -, hiff⟩ := hremembers history lives
  obtain ⟨earlier, later, error, rfl, hfailed, hlater⟩ :=
    (hiff balanced attended hstill).1 hrequested
  exact ⟨hstill, hrequested, earlier, later, error, lives, hfailed, hlater⟩

/-- **Not every cancel is forgotten when all runs have ended.** In a session without made-up outcomes
the one run was cancelled by the user and has failed, and no run is outstanding. Then two runs are
asked for, of which the second one replaces the first, and the user cancels neither: what is left of
the scripts is to let the next worker run. Still the first one is announced as cancelled. -/
theorem not_all_cancels_are_forgotten :
    Visited ExplorerStep.Genuine 0 refusedStage ∧
      (∃ history, Lives history refusedStage.front ∧ Balanced history ∧ Attended history) ∧
      refusedStage.front.running = 0 ∧ refusedStage.front.cancelRequested = true ∧
      refusedStage.front.notes = [] ∧
      (refusedStage.front.scripts.all fun script => script.steps matches [.work]) ∧
      (playScript (interference 1) [.type "/g", .submit, .refresh, .work] refusedStage).front.notes =
        ["Compilation cancelled"] := by
  obtain ⟨history, hchronicle, -⟩ := visited_refusedStage.chronicle
  obtain ⟨hbalanced, hattended, -⟩ := hchronicle.fair fun _ => id
  obtain ⟨hstill, hrequested, hnotes, -⟩ := refusedStage_front
  exact ⟨visited_refusedStage, ⟨history, hchronicle.lives, hbalanced, hattended⟩, hstill, hrequested,
    hnotes, by decide +kernel⟩

end ExplorerStage

end AsmScope
