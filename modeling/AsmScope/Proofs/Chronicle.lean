import AsmScope.Explorer.State
import AsmScope.Proofs.Tally
/-! # The history of an explorer

What happens to an explorer between its steps, one event after the other: runs are asked for, workers
are taken out of the queue, messages are handled, the engine finds a run to cancel. `Lives history
explorer` says that a fresh explorer has gone through these events. What is on the screen follows
from the history alone, and so do the counters, as long as outcomes are handled only while a run is
outstanding (`Lives.running_add`, `Lives.displays`). A cancel of the user is pending until a result or
a cancelled outcome is handled (`Lives.cancelRequested_iff`). -/

namespace AsmScope

namespace Explorer

/-- Something that happens to an explorer. -/
inductive Event
  /-- A run is asked for with the present override. -/
  | refreshed
  /-- A worker is taken out of the queue. -/
  | dequeued
  /-- A message is handled. -/
  | handled (message : Message)
  /-- The engine has found a run that the user wants cancelled. -/
  | cancelled
  /-- Something that has nothing to do with runs. -/
  | elsewhere
  deriving DecidableEq, Repr

namespace Event

/-- A run is started. -/
def starts : Event → Bool
  | .refreshed | .handled (.commandChanged _) => true
  | _ => false

/-- The outcome of a run is handled. -/
def settles : Event → Bool
  | .handled (.finished _) | .handled (.failed _ _) => true
  | _ => false

/-- What is shown from then on, if that changes: an assembly or an error. -/
def shown? : Event → Option (Except String String)
  | .handled (.finished asm) => some (.ok asm)
  | .handled (.failed error false) => some (.error error)
  | _ => none

/-- A cancel of the user is forgotten. -/
def clears : Event → Bool
  | .handled (.finished _) | .handled (.failed _ true) => true
  | _ => false

end Event

/-- What an event does to an explorer in which no message waits. -/
inductive Happens : Event → Explorer → Explorer → Prop
  | refreshed {explorer : Explorer} : Happens .refreshed explorer explorer.refresh
  | dequeued {explorer : Explorer} {override : List String} {queue : List (List String)}
      (next : explorer.queue = override :: queue) :
      Happens .dequeued explorer { explorer with queue }
  | handled {explorer : Explorer} (message : Message) :
      Happens (.handled message) explorer (explorer.handle message)
  | cancelled {explorer : Explorer} :
      Happens .cancelled explorer { explorer with cancelRequested := true }
  /-- The palette, the log and the notes are not about runs, and scripts are only taken away. -/
  | elsewhere {explorer : Explorer} (palette : Palette) (logVisible : Bool)
      (logLines notes : List String) {scripts : List (Script ExplorerStep)}
      (fewer : scripts ⊆ explorer.scripts) :
      Happens .elsewhere explorer
        { explorer with palette, logVisible, logLines, notes, scripts }

/-- A fresh explorer has gone through these events. -/
inductive Lives : List Event → Explorer → Prop
  | fresh (source : String) (override : List String) (scripts : List (Script ExplorerStep)) :
      Lives [] { source, override, scripts }
  | next {history : List Event} {event : Event} {before after : Explorer}
      (earlier : Lives history before) (happens : Happens event before after) :
      Lives (history ++ [event]) after

/-! ### What a history says -/

section Histories

variable (history : List Event) (event : Event)

/-- How many runs were started. -/
def started : Nat := history.countP Event.starts

/-- How many outcomes were handled. -/
def settled : Nat := history.countP Event.settles

/-- How many workers were taken out of the queue. -/
def dequeued : Nat := history.count .dequeued

/-- What was shown last; nothing but an empty assembly at first. -/
def lastShown : Except String String := (history.filterMap Event.shown?).getLast?.getD (.ok "")

/-- Events of a kind happen only while a run is outstanding. -/
def OnlyOutstanding (kind : Event → Prop) : Prop :=
  ∀ earlier event later, history = earlier ++ event :: later → kind event →
    settled earlier < started earlier

/-- Outcomes are handled only while a run is outstanding. -/
def Balanced : Prop := OnlyOutstanding history fun event => event.settles

/-- The engine finds a run to cancel only while a run is outstanding. -/
def Attended : Prop := OnlyOutstanding history fun event => event = .cancelled

/-- A cancel of the user that no later outcome has made forgotten. -/
def Pending : Prop :=
  ∃ earlier later, history = earlier ++ .cancelled :: later ∧ ∀ event ∈ later, event.clears = false

/-- One more event adds a started run, if it starts one. -/
@[simp] theorem started_concat :
    started (history ++ [event]) = started history + event.starts.toNat := by
  cases h : event.starts <;> simp [started, h]

/-- One more event adds a handled outcome, if it is one. -/
@[simp] theorem settled_concat :
    settled (history ++ [event]) = settled history + event.settles.toNat := by
  cases h : event.settles <;> simp [settled, h]

/-- One more event adds a worker that was taken out of the queue, if it is that. -/
@[simp] theorem dequeued_concat :
    dequeued (history ++ [event]) = dequeued history + (decide (event = .dequeued)).toNat := by
  by_cases h : event = .dequeued <;> simp [dequeued, h]

/-- What was shown last is what the last event shows, or else what was shown before. -/
theorem lastShown_concat :
    lastShown (history ++ [event]) = event.shown?.getD (lastShown history) := by
  cases h : event.shown? <;> simp [lastShown, h]

variable {history event}

/-- Where nothing has happened nothing has happened out of order. -/
theorem onlyOutstanding_nil {kind : Event → Prop} : OnlyOutstanding [] kind := by
  intro earlier event later heq
  simp at heq

/-- One more event keeps the order if it is of another kind or a run is outstanding. -/
theorem onlyOutstanding_concat {kind : Event → Prop} :
    OnlyOutstanding (history ++ [event]) kind ↔
      OnlyOutstanding history kind ∧ (kind event → settled history < started history) := by
  constructor
  · refine fun h => ⟨fun earlier other later heq => ?_, h history event [] rfl⟩
    exact h earlier other (later ++ [event]) (by simp [heq])
  · rintro ⟨hhistory, hevent⟩ earlier other later heq hkind
    rcases concat_eq_append_cons_iff.1 heq with ⟨rfl, rfl, -⟩ | ⟨between, -, hbetween⟩
    · exact hevent hkind
    · exact hhistory earlier other between hbetween hkind

/-- At first no cancel is remembered. -/
theorem not_pending_nil : ¬Pending [] := by
  rintro ⟨earlier, later, heq, -⟩
  simp at heq

/-- A cancel is remembered after one more event if this is one, or if it makes none forgotten that
was. -/
theorem pending_concat :
    Pending (history ++ [event]) ↔
      event = .cancelled ∨ (Pending history ∧ event.clears = false) := by
  constructor
  · rintro ⟨earlier, later, heq, hlater⟩
    rcases concat_eq_append_cons_iff.1 heq with ⟨-, rfl, -⟩ | ⟨between, rfl, rfl⟩
    · exact .inl rfl
    · refine .inr ⟨⟨earlier, between, rfl, fun other hother => ?_⟩, ?_⟩
      · exact hlater other (List.mem_append_left _ hother)
      · exact hlater event (List.mem_append_right _ (List.mem_singleton_self event))
  · rintro (rfl | ⟨⟨earlier, later, rfl, hlater⟩, hevent⟩)
    · exact ⟨history, [], rfl, nofun⟩
    · refine ⟨earlier, later ++ [event], by simp, fun other hother => ?_⟩
      rcases List.mem_append.1 hother with hold | hnew
      · exact hlater other hold
      · rwa [List.mem_singleton.1 hnew]

end Histories

/-! ### One event -/

/-- One view is shown, with this content. -/
def Displays (explorer : Explorer) : Except String String → Prop
  | .ok asm => explorer.asm = { visible := true, text := asm } ∧ explorer.error.visible = false
  | .error error => explorer.error = { visible := true, text := error } ∧
      explorer.asm.visible = false

/-- Taking other arguments asks for a run with them. -/
theorem handle_commandChanged (explorer : Explorer) (arguments : List String) :
    ∃ notes, explorer.handle (.commandChanged arguments) =
      ({ explorer with override := arguments, notes } : Explorer).refresh := by
  simp only [handle, changeCommand]
  split
  · exact ⟨_, rfl⟩
  · exact ⟨explorer.notes, rfl⟩

/-- A cancelled outcome only takes the cancel of the user back, and announces that. -/
theorem handle_cancelled (explorer : Explorer) (error : String) :
    explorer.handle (.failed error true) =
      { explorer.dropRun with
        cancelRequested := false
        notes := explorer.notes ++ if explorer.cancelRequested then [error] else [] } := by
  rw [handle, acceptCancellation]
  cases h : explorer.cancelRequested with
  | true => simp [dropRun, setRunning, notify, h]
  | false => simp [dropRun, setRunning, h]

/-- Where no message waits there is nothing to handle. -/
theorem handleAll_of_inbox {explorer : Explorer} (quiet : explorer.inbox = []) :
    explorer.handleAll = explorer := by
  rw [handleAll, quiet, List.foldl_nil, ← quiet]

/-- The one message that waits is handled. -/
theorem handleAll_post {explorer : Explorer} (quiet : explorer.inbox = []) (message : Message) :
    (explorer.post message).handleAll = explorer.handle message := by
  rw [handleAll, post, quiet, List.nil_append, List.foldl_cons, List.foldl_nil, ← quiet]

/-- What an event does to the counters, to what is shown and to the memory of a cancel. -/
structure Effect (event : Event) (before after : Explorer) : Prop where
  running : after.running = before.running + event.starts.toNat - event.settles.toNat
  busy : before.busy = decide (0 < before.running) → after.busy = decide (0 < after.running)
  queue : after.queue.length + (decide (event = .dequeued)).toNat =
    before.queue.length + event.starts.toNat
  still : event.shown? = none → after.asm = before.asm ∧ after.error = before.error
  shown : ∀ content, event.shown? = some content → after.Displays content
  cancelRequested : after.cancelRequested = true ↔
    event = .cancelled ∨ before.cancelRequested = true ∧ event.clears = false
  inbox : after.inbox = before.inbox
  scripts : after.scripts ⊆ before.scripts

/-- A run that is asked for is counted and waits in the queue. -/
theorem effect_refresh (explorer : Explorer) (override notes : List String) {event : Event}
    (asks : event = .refreshed ∨ ∃ arguments, event = .handled (.commandChanged arguments)) :
    Effect event explorer ({ explorer with override, notes } : Explorer).refresh := by
  rcases asks with rfl | ⟨arguments, rfl⟩ <;>
    exact ⟨rfl, fun _ => rfl, by simp [refresh, addRun, setRunning, Event.starts],
      fun _ => ⟨rfl, rfl⟩, nofun, by simp [refresh, addRun, setRunning, Event.clears], rfl,
      List.Subset.refl _⟩

/-- **What each event does.** -/
theorem Happens.effect {event : Event} {before after : Explorer}
    (happens : Happens event before after) : Effect event before after := by
  cases happens with
  -- a refresh starts a run
  | refreshed => exact effect_refresh before before.override before.notes (.inl rfl)
  -- the next three leave every counter and view as it is
  | dequeued next =>
    exact ⟨rfl, id, by simp [next, Event.starts], fun _ => ⟨rfl, rfl⟩, nofun,
      by simp [Event.clears], rfl, List.Subset.refl _⟩
  | cancelled =>
    exact ⟨rfl, id, rfl, fun _ => ⟨rfl, rfl⟩, nofun, by simp, rfl, List.Subset.refl _⟩
  | elsewhere _ _ _ _ fewer =>
    exact ⟨rfl, id, rfl, fun _ => ⟨rfl, rfl⟩, nofun, by simp [Event.clears], rfl, fewer⟩
  | handled message =>
    cases message with
    -- of the messages, an assembly and a failure end a run and replace the views
    | finished asm =>
      refine ⟨rfl, fun _ => rfl, rfl, nofun, ?_, by simp [handle, showAssembly, Event.clears], rfl,
        List.Subset.refl _⟩
      rintro content ⟨⟩
      exact ⟨rfl, rfl⟩
    | failed error cancelled =>
      cases cancelled with
      | false =>
        refine ⟨rfl, fun _ => rfl, rfl, nofun, ?_, ?_, rfl, List.Subset.refl _⟩
        · rintro content ⟨⟩
          exact ⟨rfl, rfl⟩
        · simp [handle, showError, dropRun, setRunning, Event.clears]
      | true =>
        rw [handle_cancelled]
        exact ⟨rfl, fun _ => rfl, rfl, fun _ => ⟨rfl, rfl⟩, nofun, by simp [Event.clears], rfl,
          List.Subset.refl _⟩
    -- other arguments are one more refresh
    | commandChanged arguments =>
      obtain ⟨notes, hhandle⟩ := handle_commandChanged before arguments
      rw [hhandle]
      exact effect_refresh before arguments notes (.inr ⟨_, rfl⟩)

/-! ### A whole history -/

namespace Lives

variable {history : List Event} {explorer : Explorer}

/-- Every run that was asked for waits in the queue or has been taken out of it. -/
theorem length_queue_add (lives : Lives history explorer) :
    explorer.queue.length + dequeued history = started history := by
  induction lives with
  | fresh => rfl
  | next earlier happens ih =>
    have hqueue := happens.effect.queue
    rw [dequeued_concat, started_concat]
    omega

/-- **The counter counts the outstanding runs**, so it is never cut off at zero. -/
theorem running_add (lives : Lives history explorer) (balanced : Balanced history) :
    explorer.running + settled history = started history := by
  induction lives with
  | fresh => rfl
  | @next history event before after earlier happens ih =>
    obtain ⟨hbalanced, hevent⟩ := onlyOutstanding_concat.1 balanced
    have hbefore := ih hbalanced
    have hrunning := happens.effect.running
    rw [settled_concat, started_concat]
    cases hsettles : event.settles with
    | true =>
      -- there is a run whose outcome it is
      have houtstanding := hevent hsettles
      rw [hsettles] at hrunning
      simp only [Bool.toNat_true] at *
      omega
    | false =>
      rw [hsettles] at hrunning
      simp only [Bool.toNat_false] at *
      omega

/-- The indicator is on exactly while runs are counted. -/
theorem busy_eq (lives : Lives history explorer) :
    explorer.busy = decide (0 < explorer.running) := by
  induction lives with
  | fresh => rfl
  | next earlier happens ih => exact happens.effect.busy ih

/-- **The screen shows the last outcome that was not a cancellation.** -/
theorem displays (lives : Lives history explorer) : explorer.Displays (lastShown history) := by
  induction lives with
  | fresh => exact ⟨rfl, rfl⟩
  | @next history event before after earlier happens ih =>
    rw [lastShown_concat]
    cases hshown : event.shown? with
    | some shown => exact happens.effect.shown shown hshown
    | none =>
      obtain ⟨hasm, herror⟩ := happens.effect.still hshown
      rw [Option.getD_none]
      cases hlast : lastShown history with
      | ok asm => rw [hlast] at ih; rwa [Displays, hasm, herror]
      | error error => rw [hlast] at ih; rwa [Displays, hasm, herror]

/-- **A cancel of the user is remembered as long as it is pending.** -/
theorem cancelRequested_iff (lives : Lives history explorer) :
    explorer.cancelRequested = true ↔ Pending history := by
  induction lives with
  | fresh => exact iff_of_false Bool.false_ne_true not_pending_nil
  | next earlier happens ih => rw [happens.effect.cancelRequested, pending_concat, ih]

end Lives

end Explorer

end AsmScope
