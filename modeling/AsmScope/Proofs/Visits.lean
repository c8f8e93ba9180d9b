import AsmScope.Proofs.Editing
import AsmScope.Proofs.Slots
import AsmScope.Scenario.ExplorerSteps
/-! # Stages that an explorer visits

`Visited kind working stage` says that a session of an explorer, in which all steps are of a kind,
may pass through this stage while so many workers are at work: between its steps, at the moments of
the runs of its workers, and between the steps of the scripts that are played there.

A stage that is visited has a history (`Visited.chronicle`): the explorer has gone through it, no
message waits, and if no outcome is made up, outcomes were handled and runs were found to cancel only
while a run was outstanding. For a run is found in the slot of a database, slots are filled by the
runs of workers only, and the outcome of a worker is handled when its run is over. -/

namespace AsmScope

/-- A step that makes up no outcome of a run. -/
def ExplorerStep.Genuine : ExplorerStep → Prop
  | .message (.finished _) | .message (.failed _ _) => False
  | _ => True

instance : DecidablePred ExplorerStep.Genuine
  | .message (.finished _) | .message (.failed _ _) => isFalse id
  | .message (.commandChanged _) | .host _ | .mount | .unmount | .work | .refresh | .cancel
  | .toggleLog | .toggleCommand | .flush | .type _ | .submit | .editEntry | .escape => isTrue trivial

/-! ### Slots of runs that end -/

namespace Engine

variable {α : Type}

/-- No slot is filled that was empty. -/
def Drains (before after : Engine α) : Prop :=
  ∀ id, after.slot id = before.slot id ∨ after.slot id = none

instance : IsPreorder (Engine α) Drains where
  refl _ _ := .inl rfl
  trans _ _ _ hab hbc id := by
    rcases hbc id with h | h
    · rw [h]
      exact hab id
    · exact .inr h

/-- What leaves the slots fills none. -/
theorem Drains.of_slots {before after : Engine α} (h : ∀ id, after.slot id = before.slot id) :
    Drains before after :=
  fun id => .inl (h id)

/-- A calm change fills no slot. -/
theorem drains_calm (before after : Engine α) (calm : Calm before after) : Drains before after := by
  cases calm with
  | elsewhere same => exact .of_slots (slot_congr same.active)
  | opened database idle => exact .of_slots (slot_addDatabase before idle)
  | cancelled token => exact .of_slots (slot_cancelToken before token)

/-- What a run does to its processes leaves the slots. -/
theorem Act.slot_eq {first : Nat} {before after : Engine α} (act : Act first before after)
    (id : DatabaseId) : after.slot id = before.slot id := by
  rw [slot, database?, act.databases_eq]
  rfl

/-- The start of a process leaves the slots. -/
theorem Starts.slot_eq {before after : Engine α} (start : Starts before after) (id : DatabaseId) :
    after.slot id = before.slot id := by
  obtain ⟨process, rfl⟩ := start
  rfl

/-- **A run leaves no slot filled that was empty**: it takes the slot of its database when it begins,
and gives it back when it ends. -/
theorem drains_run {fire : Interference α}
    (fires : ∀ executable moment engine, Drains engine (fire executable moment engine))
    (grows : ∀ executable moment engine, Grows engine (fire executable moment engine))
    (id : DatabaseId) (source : String) (override : Option (List String)) :
    Respects Drains (run fire id source override) := by
  refine Task.respects_run_bracketed (S := fun _ => Drains)
    (fun _ _ _ same => drains_calm _ _ (.elsewhere same.sameRuns)) ?_ ?_ id source override
  · intro id engine later there between other
    rw [slot_endCompilation]
    have hother := between other
    have hown := between id
    rw [slot_beginCompilation there] at hother hown
    rw [if_pos rfl] at hown
    rw [fst_beginCompilation]
    by_cases hid : id = other
    · subst hid
      -- the run is still in the slot and leaves it, or the slot is empty already
      rcases hown with h | h
      · exact .inr (if_pos ⟨rfl, h⟩)
      · rw [h]
        exact .inr (by simp)
    · rw [if_neg hid] at hother
      rwa [if_neg fun h => hid h.1]
  · rintro task rfl
    exact Task.respects_programs (fun _ _ same => drains_calm _ _ (.elsewhere same.sameRuns))
      (fun _ _ act => .of_slots act.slot_eq) (fun _ _ start => .of_slots start.slot_eq) fires grows

/-- A run that is found to be cancelled is in a slot. -/
theorem exists_slot_of_cancel {engine : Engine α} {source : String}
    (found : engine.result (cancel source) = .ok true) : ∃ id, (engine.slot id).isSome := by
  rw [cancel, result_get_bind] at found
  cases hlocation : engine.indexLocation source with
  | error failure =>
    rw [hlocation] at found
    cases found
  | ok location =>
    have hgoes (next : String → Action α Bool) :
        engine.result ((.ok location : Except Failure String) >>= next) =
          engine.result (next location) := rfl
    rw [hlocation, hgoes, result_get_bind] at found
    cases hregistered : engine.registered? location with
    | none =>
      rw [hregistered] at found
      cases found
    | some id =>
      rw [hregistered] at found
      -- a cancel answers whether a run held the slot
      have hcancelled : (engine.cancelCompilation id).1 = true := Except.ok.inj found
      exact ⟨id, by rwa [found_cancelCompilation] at hcancelled⟩

end Engine

/-! ### Chronicles -/

namespace Explorer

/-- What is known of an explorer between its steps, while so many workers are at work: it has a
history, no message waits, and all scripts consist of steps of a kind. If these make up no outcome,
the history is fair: outcomes are those of workers that have done their work. -/
structure Chronicle (kind : ExplorerStep → Prop) (working : Nat) (history : List Event)
    (explorer : Explorer) : Prop where
  lives : Lives history explorer
  quiet : explorer.inbox = []
  scripts : ∀ script ∈ explorer.scripts, ∀ step ∈ script.steps, kind step
  fair : (∀ step, kind step → step.Genuine) →
    Balanced history ∧ Attended history ∧ settled history + working ≤ dequeued history

namespace Chronicle

variable {kind : ExplorerStep → Prop} {working : Nat} {history : List Event} {before after : Explorer}
  {event : Event}

/-- What happens is added to the history. Outcomes and cancels that were found are fair only while a
worker is at work. -/
theorem next (h : Chronicle kind working history before) (happens : Happens event before after)
    {later : Nat} (fair : (∀ step, kind step → step.Genuine) →
      (event.settles ∨ event = .cancelled → 0 < working) ∧
        later + event.settles.toNat ≤ working + (decide (event = .dequeued)).toNat) :
    Chronicle kind later (history ++ [event]) after := by
  have heffect := happens.effect
  refine ⟨h.lives.next happens, heffect.inbox.trans h.quiet,
    fun script hscript => h.scripts script (heffect.scripts hscript), fun genuine => ?_⟩
  obtain ⟨hbalanced, hattended, hworking⟩ := h.fair genuine
  obtain ⟨hevent, hlater⟩ := fair genuine
  -- all workers that are at work were asked for
  have hqueue := h.lives.length_queue_add
  refine ⟨onlyOutstanding_concat.2 ⟨hbalanced, fun hsettles => ?_⟩,
    onlyOutstanding_concat.2 ⟨hattended, fun hcancelled => ?_⟩, ?_⟩
  · have hpositive := hevent (.inl hsettles)
    omega
  · have hpositive := hevent (.inr hcancelled)
    omega
  · rw [settled_concat, dequeued_concat]
    omega

/-- What is no outcome and cancels nothing is always fair. -/
theorem next_quiet (h : Chronicle kind working history before) (happens : Happens event before after)
    (quiet : (∀ step, kind step → step.Genuine) → event.settles = false ∧ event ≠ .cancelled) :
    Chronicle kind working (history ++ [event]) after := by
  refine h.next happens fun genuine => ?_
  obtain ⟨hsettles, hcancelled⟩ := quiet genuine
  rw [hsettles]
  refine ⟨?_, Nat.le_add_right _ _⟩
  rintro (h | h)
  · cases h
  · exact absurd h hcancelled

/-- A worker that is taken out of the queue is at work. -/
theorem next_dequeued (h : Chronicle kind working history before) {override : List String}
    {queue : List (List String)} (next : before.queue = override :: queue) :
    Chronicle kind (working + 1) (history ++ [.dequeued]) { before with queue } :=
  h.next (.dequeued next) fun _ => ⟨by simp [Event.settles], by simp [Event.settles]⟩

/-- A worker that is at work may as well be done. -/
theorem resting (h : Chronicle kind (working + 1) history before) :
    Chronicle kind working history before := by
  refine ⟨h.lives, h.quiet, h.scripts, fun genuine => ?_⟩
  obtain ⟨hbalanced, hattended, hworking⟩ := h.fair genuine
  exact ⟨hbalanced, hattended, by omega⟩

end Chronicle

end Explorer

namespace ExplorerStage

open Engine Explorer

variable {kind : ExplorerStep → Prop} {working : Nat}

/-- What is told of an explorer goes on, with so many workers at work. -/
def Tells (kind : ExplorerStep → Prop) (working : Nat) (before after : ExplorerStage) : Prop :=
  ∀ history, Chronicle kind working history before.front →
    ∃ later, history <+: later ∧ Chronicle kind working later after.front

instance : IsPreorder ExplorerStage (Tells kind working) where
  refl _ history h := ⟨history, List.prefix_rfl, h⟩
  trans _ _ _ hab hbc history h := by
    obtain ⟨between, hbetween, hb⟩ := hab history h
    obtain ⟨later, hlater, hc⟩ := hbc between hb
    exact ⟨later, hbetween.trans hlater, hc⟩

/-- Nothing is told where the explorer stays as it is. -/
theorem tells_of_front {before after : ExplorerStage} (same : after.front = before.front) :
    Tells kind working before after :=
  fun history h => ⟨history, List.prefix_rfl, same ▸ h⟩

/-- What is told of an explorer goes on through a deed. -/
theorem tells_deed (before after : ExplorerStage) (deed : Deed (fun _ => True) before after) :
    Tells kind working before after :=
  tells_of_front deed.front_eq

/-- What is told of an explorer goes on through a refresh, and through what is done to the palette,
the log view and the notes. -/
theorem tells_quiet (stage : ExplorerStage) (event : Event) (explorer : Explorer)
    (quiet : event = .refreshed ∨ event = .elsewhere) (happens : Happens event stage.front explorer) :
    Tells kind working stage { stage with front := explorer } :=
  fun _ h => ⟨_, List.prefix_append _ _, h.next_quiet happens fun _ => by
    rcases quiet with rfl | rfl <;> exact ⟨rfl, nofun⟩⟩

/-- Between steps no message waits, so handling all of them changes nothing. -/
theorem tells_handleAll (stage : ExplorerStage) :
    Tells kind working stage (modifyFront Explorer.handleAll stage) := by
  intro history h
  have hstill : stage.front.handleAll = stage.front := handleAll_of_inbox h.quiet
  exact ⟨history, List.prefix_rfl, by rwa [modifyFront, hstill]⟩

/-- What is told of an explorer goes on through every plain step. -/
theorem tells_take_plain {fire : Interference Explorer} {step : ExplorerStep}
    (plain : step.Plain) : Respects (Tells kind working) (take fire step) :=
  .bind (respects_plain tells_deed (fun _ _ same => tells_of_front same.front)
    (fun _ _ => tells_of_front rfl) tells_quiet plain) fun _ => .modify_of tells_handleAll

/-- A message that is left is handled at once. -/
theorem tells_post (stage : ExplorerStage) {message : Message}
    (quiet : (∀ step, kind step → step.Genuine) → Event.settles (.handled message) = false) :
    Tells kind working stage
      (modifyFront (fun explorer => (explorer.post message).handleAll) stage) := by
  intro history h
  have hhandled : (stage.front.post message).handleAll = stage.front.handle message :=
    handleAll_post h.quiet message
  refine ⟨history ++ [.handled message], List.prefix_append _ _, ?_⟩
  rw [modifyFront, hhandled]
  exact h.next_quiet (.handled message) fun genuine => ⟨quiet genuine, nofun⟩

/-- What is told of an explorer goes on through the submission of a line. -/
theorem tells_submit (stage : ExplorerStage) :
    Tells kind working stage (modifyFront (fun explorer => explorer.submit.handleAll) stage) := by
  -- the palette says what it has to say, and the arguments that it wants are taken
  have hpalette : ∀ palette : Palette,
      Tells kind working stage { stage with front := { stage.front with palette } } :=
    fun palette => relates_elsewhere tells_quiet stage palette _ _ _
  rw [modifyFront, Explorer.submit]
  split
  · exact IsTrans.trans _ _ _ (hpalette _) (tells_handleAll _)
  · exact IsTrans.trans _ _ _ (hpalette _) (tells_post _ fun _ => rfl)

/-- A cancel counts only if a worker is at work: otherwise all slots are empty. -/
theorem tells_cancel {stage : ExplorerStage}
    (attended : 0 < working ∨ ∀ id, stage.slot id = none) :
    Tells kind working stage (stage.after cancel) := by
  rw [cancel, after_get_bind]
  refine Respects.after_bind_of (Engine.respects_cancel tells_deed (fun _ => trivial) _ stage) ?_
  intro found hfound
  cases found with
  | true =>
    obtain ⟨id, hslot⟩ := exists_slot_of_cancel hfound
    have hworking : 0 < working := attended.resolve_right fun hempty => by
      rw [hempty id] at hslot
      cases hslot
    intro history h
    exact ⟨_, List.prefix_append _ _, h.next .cancelled fun _ => ⟨fun _ => hworking, by
      simp [Event.settles]⟩⟩
  | false => exact relates_elsewhere tells_quiet _ _ _ _ _

/-- The outcome of a worker is handled when its run is over, and then the worker has done its work. -/
theorem chronicle_report {history : List Event} {stage : ExplorerStage}
    (outcome : Except Failure String) (h : Chronicle kind (working + 1) history stage.front) :
    ∃ later, history <+: later ∧ Chronicle kind working later
      (stage.after (report outcome >>= fun _ => modify (modifyFront Explorer.handleAll))).front := by
  unfold report
  split
  · next message _ =>
    refine ⟨history ++ [.handled message], List.prefix_append _ _, ?_⟩
    have hhandled : (stage.front.post message).handleAll = stage.front.handle message :=
      handleAll_post h.quiet message
    have hnext : Chronicle kind working (history ++ [.handled message])
        (stage.front.handle message) := by
      refine h.next (.handled message) fun _ => ⟨fun _ => Nat.succ_pos working, ?_⟩
      exact Nat.add_le_add_left (Bool.toNat_le _) working
    rw [← hhandled] at hnext
    exact hnext
  · exact ⟨history, List.prefix_rfl, h.resting⟩
  · exact tells_handleAll stage history h.resting

section Work

variable {fire : Interference Explorer}
  (fires : ∀ executable moment stage,
    Tells kind (working + 1) stage (fire executable moment stage))
  (grows : ∀ executable moment (stage : ExplorerStage), Grows stage (fire executable moment stage))
include fires grows

/-- What is told of an explorer goes on through a request to compile, with one more worker at
work. -/
theorem tells_compile (source : String) (override : Option (List String)) :
    Respects (Tells kind (working + 1)) (Engine.compile fire source override) := by
  have hasides : ∀ before after : ExplorerStage, Aside before after →
      Tells kind (working + 1) before after := fun _ _ same => tells_of_front same.front
  refine Engine.respects_compile tells_deed fun id => ?_
  refine Task.respects_run_bracketed (S := fun _ => Tells kind (working + 1)) (fun _ => hasides) ?_ ?_
    id source override
  · intro id stage later _ between
    have hbegun : Tells kind (working + 1) stage (stage.beginCompilation id).2 :=
      tells_of_front (front_beginCompilation stage id)
    exact IsTrans.trans _ _ _ (IsTrans.trans _ _ _ hbegun between) (tells_of_front rfl)
  · rintro task rfl
    exact Task.respects_programs hasides (fun _ _ act => tells_of_front act.front_eq)
      (fun _ _ start => tells_of_front start.front_eq) fires grows

/-- What is told of an explorer goes on through the work of the next worker. -/
theorem tells_work (stage : ExplorerStage) :
    Tells kind working stage (stage.after (take fire .work)) := by
  cases hqueue : stage.front.queue with
  -- an empty queue leaves messages to be handled only
  | nil =>
    have hidle : stage.after (take fire .work) = modifyFront Explorer.handleAll stage := by
      have hwork : stage.after (work fire) = stage ∧ stage.result (work fire) = .ok () := by
        rw [work, after_get_bind, result_get_bind, hqueue]
        exact ⟨rfl, rfl⟩
      have htake : take fire .work =
          work fire >>= fun _ => modify (modifyFront Explorer.handleAll) := rfl
      rw [htake, after_bind, hwork.1, hwork.2]
      rfl
    rw [hidle]
    exact tells_handleAll stage
  | cons override queue =>
    rw [after_take_of_queue hqueue]
    intro history h
    -- the request leaves the queue, is compiled, and its outcome is reported
    obtain ⟨between, hbetween, hasked⟩ := tells_compile fires grows stage.front.source
      (if override.isEmpty then none else some override)
      (stage.withQueue queue) _ (h.next_dequeued hqueue)
    obtain ⟨later, hlater, hreported⟩ := chronicle_report _ hasked
    exact ⟨later, ((List.prefix_append _ _).trans hbetween).trans hlater, hreported⟩

/-- **A step goes on with what is told of the explorer**, if all slots are empty where no worker is at
work. -/
theorem tells_take {stage : ExplorerStage} (attended : 0 < working ∨ ∀ id, stage.slot id = none)
    {step : ExplorerStep} (allowed : kind step) :
    Tells kind working stage (stage.after (take fire step)) := by
  by_cases hplain : step.Plain
  · exact tells_take_plain hplain stage
  · cases step with
    | work => exact tells_work fires grows stage
    | cancel => exact Respects.after_bind_of (tells_cancel attended) fun _ _ => tells_handleAll _
    | submit => exact tells_submit stage
    | message message =>
      refine tells_post stage fun genuine => ?_
      have hgenuine := genuine _ allowed
      cases message with
      | commandChanged => rfl
      | finished | failed => exact hgenuine.elim
    | _ => exact absurd trivial hplain

end Work

/-! ### Scripts -/

/-- What scripts do at a moment lets no process go. -/
theorem grows_interference (depth : Nat) (executable : String) (moment : Moment)
    (stage : ExplorerStage) : Grows stage (interference depth executable moment stage) :=
  (respects_interference_from (Task.allows_grows 0) depth executable moment stage
    (Nat.zero_le _)).2

/-- The script that is found is one of the explorer, and the others that are left are too. -/
theorem exists_of_takeScript {executable : String} {moment : Moment} {explorer front : Explorer}
    {steps : List ExplorerStep} (found : takeScript executable moment explorer = some (steps, front)) :
    (∃ script ∈ explorer.scripts, script.steps = steps) ∧
      ∃ rest, rest ⊆ explorer.scripts ∧ front = { explorer with scripts := rest } := by
  obtain ⟨⟨taken, rest⟩, htake, heq⟩ := Option.map_eq_some_iff.1 found
  obtain ⟨rfl, rfl⟩ := Prod.mk.inj heq
  obtain ⟨hscript, hrest⟩ := Script.subset_of_take? htake
  exact ⟨hscript, rest, hrest, rfl⟩

/-- What is told of the explorer goes on, however many workers are at work, if only one is. -/
def TellsAtWork (kind : ExplorerStep → Prop) (before after : ExplorerStage) : Prop :=
  ∀ working, Tells kind (working + 1) before after

instance : Std.Refl (TellsAtWork kind) where
  refl stage _ := Std.Refl.refl stage

/-- **Scripts go on with what is told of the explorer.** They are played while a worker is at work. -/
theorem tells_interference (depth : Nat) (executable : String) (moment : Moment)
    (stage : ExplorerStage) :
    TellsAtWork kind stage (interference depth executable moment stage) := by
  refine Script.relates_interference (fun depth fires _ _ stage steps front htaken => ?_) depth
    executable moment stage
  intro working history h
  obtain ⟨⟨script, hscript, rfl⟩, rest, hrest, rfl⟩ := exists_of_takeScript htaken
  have hfront : Tells kind (working + 1) stage
      { stage with front := { stage.front with scripts := rest } } :=
    tells_quiet stage .elsewhere _ (.inr rfl) (.elsewhere _ _ _ _ hrest)
  -- the steps of the script are taken while a worker is at work, so all of them may cancel
  have hplayed := relates_playScript (R := Tells kind (working + 1))
    (fun step hstep stage => tells_take (fun executable moment stage =>
        fires executable moment stage (working + 1)) (grows_interference depth)
      (.inl (Nat.succ_pos working)) (h.scripts script hscript step hstep))
    { stage with front := { stage.front with scripts := rest } }
  exact IsTrans.trans _ _ _ hfront hplayed history h

/-- A step of an explorer fills no slot that was empty, if what others do meanwhile fills none. -/
theorem drains_take {fire : Interference Explorer}
    (fires : ∀ executable moment stage, Drains stage (fire executable moment stage))
    (grows : ∀ executable moment (stage : ExplorerStage), Grows stage (fire executable moment stage))
    (step : ExplorerStep) : Respects Drains (take fire step) :=
  respects_take (respects_deed drains_calm)
    (fun _ _ same => drains_calm _ _ (.elsewhere same.sameRuns))
    (fun _ _ => .of_slots fun _ => rfl) (fun _ _ => .of_slots fun _ => rfl)
    (drains_run fires grows) step

/-- Scripts leave no slot filled that was empty. -/
theorem drains_interference (depth : Nat) (executable : String) (moment : Moment)
    (stage : ExplorerStage) : Drains stage (interference depth executable moment stage) := by
  refine Script.relates_interference (fun depth fires _ _ stage steps front _ => ?_) depth
    executable moment stage
  have hfront : Drains stage { stage with front } := .of_slots fun _ => rfl
  exact IsTrans.trans _ _ _ hfront
    (relates_playScript (fun step _ => drains_take fires (grows_interference depth) step) _)

/-! ### Stages that are visited -/

/-- What was made is what it gives. -/
theorem ok_get_toOption {ε β : Type} {made : Except ε β} (there : made.toOption.isSome) :
    made = .ok (made.toOption.get there) := by
  cases made with
  | error => cases there
  | ok value => rfl

/-- A session of an explorer may pass through this stage while so many workers are at work. -/
inductive Visited (kind : ExplorerStep → Prop) : Nat → ExplorerStage → Prop
  /-- The explorer is made, with scripts of such steps. -/
  | created {host : Host} {source : String} {workspace : Option String} {override : List String}
      {scripts : List (Script ExplorerStep)} {stage : ExplorerStage}
      (made : (create host source workspace override scripts).1 = .ok stage)
      (scripted : ∀ script ∈ scripts, ∀ step ∈ script.steps, kind step) : Visited kind 0 stage
  /-- A step is taken, by the user or by a script. -/
  | taken {working : Nat} {stage : ExplorerStage} {step : ExplorerStep}
      (earlier : Visited kind working stage) (depth : Nat) (allowed : kind step) :
      Visited kind working (stage.after (take (interference depth) step))
  /-- A worker is taken out of the queue. -/
  | dequeued {working : Nat} {stage : ExplorerStage} {override : List String}
      {queue : List (List String)} (earlier : Visited kind working stage)
      (next : stage.front.queue = override :: queue) :
      Visited kind (working + 1) (stage.withQueue queue)
  /-- The database of the source is looked for. -/
  | deed {working : Nat} {before after : ExplorerStage} (earlier : Visited kind working before)
      (deed : Deed (fun _ => True) before after) : Visited kind working after
  /-- The run of a worker begins. -/
  | begun {working : Nat} {stage : ExplorerStage} (earlier : Visited kind (working + 1) stage)
      (id : DatabaseId) : Visited kind (working + 1) (stage.beginCompilation id).2
  /-- A run does something to processes. -/
  | act {working : Nat} {before after : ExplorerStage} (earlier : Visited kind working before)
      (act : Act 0 before after) : Visited kind working after
  /-- A run starts a process. -/
  | start {working : Nat} {before after : ExplorerStage} (earlier : Visited kind working before)
      (start : Starts before after) : Visited kind working after
  /-- A script is found for a moment of a process. -/
  | scripted {working : Nat} {stage : ExplorerStage} {executable : String} {moment : Moment}
      {steps : List ExplorerStep} {front : Explorer} (earlier : Visited kind working stage)
      (found : takeScript executable moment stage.front = some (steps, front)) :
      Visited kind working { stage with front }
  /-- What a step wrote and said was read. -/
  | reported {working : Nat} {stage : ExplorerStage} (earlier : Visited kind working stage) :
      Visited kind working
        (modifyFront (fun explorer => { explorer with logLines := [], notes := [] }) stage)

namespace Visited

variable {stage : ExplorerStage}

/-- Whenever all slots are empty unless a worker is at work, what is told of the explorer goes on. -/
theorem next {before after : ExplorerStage} {history : List Event}
    (tells : Tells kind working before after) (drains : Drains before after)
    (h : Chronicle kind working history before.front ∧
      (0 < working ∨ ∀ id, before.slot id = none)) :
    ∃ history, Chronicle kind working history after.front ∧
      (0 < working ∨ ∀ id, after.slot id = none) := by
  obtain ⟨hchronicle, hslots⟩ := h
  obtain ⟨later, -, hlater⟩ := tells history hchronicle
  refine ⟨later, hlater, hslots.imp_right fun hempty id => ?_⟩
  rcases drains id with h | h
  · rw [h, hempty id]
  · exact h

/-- **Whatever stage is visited, its explorer has a history.** -/
theorem chronicle (visited : Visited kind working stage) :
    ∃ history, Chronicle kind working history stage.front ∧
      (0 < working ∨ ∀ id, stage.slot id = none) := by
  -- that the slots are empty while no worker is at work is what makes the cancels of a step fair
  induction visited with
  | @created _ _ _ override scripts stage made scripted =>
    have hfront := front_of_create made
    have hfresh := fresh_of_create made
    refine ⟨[], ?_, .inr fun id => ?_⟩
    · rw [hfront]
      exact ⟨.fresh _ override scripts, rfl, scripted, fun _ =>
        ⟨onlyOutstanding_nil, onlyOutstanding_nil, Nat.le_refl 0⟩⟩
    · rw [slot, database?, hfresh.databases]
      rfl
  | taken earlier depth allowed ih =>
    obtain ⟨history, h⟩ := ih
    exact next (tells_take (fun executable moment stage =>
      tells_interference depth executable moment stage _) (grows_interference depth) h.2 allowed)
      (drains_take (drains_interference depth) (grows_interference depth) _ _) h
  | dequeued earlier hqueue ih =>
    obtain ⟨history, h, -⟩ := ih
    exact ⟨_, h.next_dequeued hqueue, .inl (Nat.succ_pos _)⟩
  | deed earlier deed ih =>
    obtain ⟨history, h⟩ := ih
    exact next (tells_deed _ _ deed) (respects_deed drains_calm _ _ deed) h
  | @begun working stage earlier id ih =>
    obtain ⟨history, h, -⟩ := ih
    rw [← front_beginCompilation stage id] at h
    exact ⟨history, h, .inl (Nat.succ_pos working)⟩
  | act earlier act ih =>
    obtain ⟨history, h⟩ := ih
    exact next (tells_of_front act.front_eq) (.of_slots act.slot_eq) h
  | start earlier start ih =>
    obtain ⟨history, h⟩ := ih
    exact next (tells_of_front start.front_eq) (.of_slots start.slot_eq) h
  | scripted earlier found ih =>
    obtain ⟨history, h⟩ := ih
    obtain ⟨-, rest, hrest, rfl⟩ := exists_of_takeScript found
    exact next (tells_quiet _ .elsewhere _ (.inr rfl) (.elsewhere _ _ _ _ hrest))
      (.of_slots fun _ => rfl) h
  | reported earlier ih =>
    obtain ⟨history, h⟩ := ih
    exact next (relates_elsewhere tells_quiet _ _ _ _ _) (.of_slots fun _ => rfl) h

/-- What a script does leads on to a stage that a session may pass through. -/
theorem playScript (visited : Visited kind working stage) (depth : Nat) {steps : List ExplorerStep}
    (allowed : ∀ step ∈ steps, kind step) :
    Visited kind working (ExplorerStage.playScript (interference depth) steps stage) :=
  relates_playScript (R := Maintains (Visited kind working))
    (fun step hstep _ h => h.taken depth (allowed step hstep)) stage visited

/-- What scripts leave behind is visited, however deep their runs nest. -/
theorem interference (visited : Visited kind working stage) (depth : Nat) (executable : String)
    (moment : Moment) :
    Visited kind working (ExplorerStage.interference depth executable moment stage) := by
  refine Script.relates_interference (R := Maintains (Visited kind working))
    (fun depth _ _ _ stage steps front htaken h => ?_) depth executable moment stage visited
  obtain ⟨history, hchronicle, -⟩ := h.chronicle
  obtain ⟨⟨script, hscript, rfl⟩, -⟩ := exists_of_takeScript htaken
  exact (h.scripted htaken).playScript depth (hchronicle.scripts script hscript)

/-- **The stages at all moments of the run of a worker are visited.** -/
theorem timeline {override : List String} {queue : List (List String)} {source : String}
    (visited : Visited kind working stage) (next : stage.front.queue = override :: queue)
    {depth : Nat} {id : DatabaseId} {task : Task Explorer} {begun : ExplorerStage}
    (begins : (((stage.withQueue queue).after (databaseFor source)).log .info "engine"
        ("Compiling " ++ source)).Begins (ExplorerStage.interference depth) id source
      (if override.isEmpty then none else some override) task begun) (n : Nat) :
    Visited kind (working + 1) (task.timeline begun n).2 := by
  have hopened : Visited kind (working + 1) ((stage.withQueue queue).after (databaseFor source)) :=
    respects_databaseFor (R := Maintains (Visited kind (working + 1)))
      (fun _ _ deed h => h.deed deed) source _ (visited.dequeued next)
  have hbegun : Visited kind (working + 1) begun := by
    have hlogged := hopened.deed (.aside (aside_log _ .info "engine" ("Compiling " ++ source)))
    have h := hlogged.begun id
    rwa [begins.start] at h
  refine Task.respects_timeline (R := Maintains (Visited kind (working + 1)))
    (fun _ _ same h => h.deed (.aside same)) (fun _ _ act h => h.act act)
    (fun _ _ start h => h.start start) ?_ ?_ begun n hbegun
  · rw [begins.fire]
    exact fun executable moment _ h => h.interference depth executable moment
  · rw [begins.fire]
    exact grows_interference depth

/-- **Whatever a session reports was seen on a stage that is visited.** -/
theorem reports (visited : Visited kind working stage) {steps : List ExplorerStep}
    (allowed : ∀ step ∈ steps, kind step) {report : Scenario.ScreenReport}
    (reported : report ∈ Scenario.takeExplorerSteps steps stage) :
    ∃ later, Visited kind working later ∧ report.explorer = later.front := by
  induction steps generalizing stage with
  | nil => cases reported
  | cons step steps ih =>
    have hstep := visited.reported.taken stage.front.scripts.length (allowed step List.mem_cons_self)
    rcases List.mem_cons.1 reported with rfl | hlater
    · exact ⟨_, hstep, rfl⟩
    · exact ih hstep (fun other hother => allowed other (List.mem_cons_of_mem _ hother)) hlater

end Visited

/-- **So is whatever a whole scenario reports.** -/
theorem exists_visited_of_playExplorer {host : Host} {source title : String}
    {workspace : Option String} {override : List String} {scripts : List (Script ExplorerStep)}
    {steps : List ExplorerStep} {reports : List Scenario.ScreenReport}
    (played : Scenario.playExplorer host source workspace override scripts steps =
      .ok (title, reports))
    (scripted : ∀ script ∈ scripts, ∀ step ∈ script.steps, kind step)
    (allowed : ∀ step ∈ steps, kind step) {report : Scenario.ScreenReport}
    (reported : report ∈ reports) :
    ∃ stage, Visited kind 0 stage ∧ report.explorer = stage.front := by
  rw [Scenario.playExplorer] at played
  cases hmade : (create host source workspace override scripts).1 with
  | error error =>
    rw [hmade] at played
    cases played
  | ok stage =>
    rw [hmade] at played
    obtain ⟨-, rfl⟩ := Prod.mk.inj (Except.ok.inj played)
    exact (Visited.created hmade scripted).reports allowed reported

end ExplorerStage

end AsmScope
