import AsmScope.Scenario.TokenSteps
import Mathlib
/-! # Histories of a cancellation token

What happens to one token, event after event: callbacks are registered and withdrawn, all of them
are disposed of, cancellation is requested, and callbacks run. A history has a shape (`Shape`):
nothing runs before the first cancellation, which runs what waits then in order of registration, and
after it every callback that is registered runs at once (`Prompt`), also those that a running
callback registers. If no callback is registered twice, what runs and when follows from the shape
(`Shape.nodup_ran`, `Shape.ran_iff_of_early`, `Shape.immediate_ran`, `filter_ran_of_cancelled`). -/

namespace AsmScope.Scenario

/-- Something that happens to a token. -/
inductive TokenEvent
  /-- A callback is registered. -/
  | registered (callback : String)
  /-- What takes the registration of a callback back is called. -/
  | withdrawn (callback : String)
  /-- The callbacks that wait are disposed of. -/
  | disposed
  /-- Cancellation is requested. -/
  | cancelled
  /-- A callback begins to run. -/
  | ran (callback : String)
  deriving DecidableEq, Repr

namespace TokenEvent

/-- The callback that is registered. -/
def registered? : TokenEvent → Option String
  | .registered callback => some callback
  | _ => none

/-- The callback that begins to run. -/
def ran? : TokenEvent → Option String
  | .ran callback => some callback
  | _ => none

/-- Whether the event may come before any cancellation. -/
def isStill : TokenEvent → Bool
  | .cancelled | .ran _ => false
  | _ => true

/-- The callbacks that wait after an event of a token that is not cancelled. -/
def wait (waiting : List String) : TokenEvent → List String
  | .registered callback => waiting ++ [callback]
  | .withdrawn callback => waiting.erase callback
  | .disposed => []
  | .cancelled | .ran _ => waiting

end TokenEvent

/-- The callbacks that were registered. -/
def registeredIn (history : List TokenEvent) : List String :=
  history.filterMap TokenEvent.registered?

/-- The callbacks that ran. -/
def ranIn (history : List TokenEvent) : List String := history.filterMap TokenEvent.ran?

/-- The callbacks that wait after events before any cancellation. -/
def waitingAfter (history : List TokenEvent) : List String := history.foldl TokenEvent.wait []

section Append

variable (front back : List TokenEvent)

/-- What is registered in two histories in a row is what is registered in the one and then in the
other. -/
@[simp] theorem registeredIn_append :
    registeredIn (front ++ back) = registeredIn front ++ registeredIn back :=
  List.filterMap_append

/-- What runs in two histories in a row is what runs in the one and then in the other. -/
@[simp] theorem ranIn_append : ranIn (front ++ back) = ranIn front ++ ranIn back :=
  List.filterMap_append

/-- A cancellation registers nothing. -/
theorem registeredIn_cancelled :
    registeredIn (front ++ .cancelled :: back) = registeredIn front ++ registeredIn back :=
  registeredIn_append _ _

/-- What waits after one more event is told by what waits before it. -/
theorem waitingAfter_concat (event : TokenEvent) :
    waitingAfter (front ++ [event]) = event.wait (waitingAfter front) := by
  rw [waitingAfter, List.foldl_append]
  rfl

/-- A callback is among those that ran if it ran at some event. -/
theorem mem_ranIn_iff {history : List TokenEvent} {callback : String} :
    callback ∈ ranIn history ↔ .ran callback ∈ history := by
  rw [ranIn, List.mem_filterMap]
  constructor
  · rintro ⟨event, hevent, hran⟩
    cases event <;> cases hran
    exact hevent
  · exact fun h => ⟨_, h, rfl⟩

/-- A callback is among those that were registered if it was registered at some event. -/
theorem mem_registeredIn_iff {history : List TokenEvent} {callback : String} :
    callback ∈ registeredIn history ↔ .registered callback ∈ history := by
  rw [registeredIn, List.mem_filterMap]
  constructor
  · rintro ⟨event, hevent, hregistered⟩
    cases event <;> cases hregistered
    exact hevent
  · exact fun h => ⟨_, h, rfl⟩

end Append

/-! ### Before the first cancellation -/

/-- Neither is cancellation requested nor does a callback run. -/
def Still (history : List TokenEvent) : Prop :=
  .cancelled ∉ history ∧ ∀ callback, .ran callback ∉ history

/-- Where nothing has happened all is still. -/
theorem still_nil : Still [] := by simp [Still]

/-- A still history stays still with one more event that may come before any cancellation. -/
theorem Still.concat {history : List TokenEvent} (h : Still history) {event : TokenEvent}
    (still : event.isStill = true) : Still (history ++ [event]) := by
  cases event with
  | cancelled => cases still
  | ran callback => cases still
  | registered callback => simpa [Still] using h
  | withdrawn callback => simpa [Still] using h
  | disposed => simpa [Still] using h

/-- What waits was registered, in this order. -/
theorem waitingAfter_sublist (history : List TokenEvent) :
    (waitingAfter history).Sublist (registeredIn history) := by
  induction history using List.reverseRecOn with
  | nil => exact .slnil
  | append_singleton history event ih =>
    rw [waitingAfter_concat, registeredIn_append]
    cases event with
    | registered callback => exact ih.append (.refl _)
    | withdrawn callback =>
      exact (List.erase_sublist.trans ih).trans (List.sublist_append_left _ _)
    | disposed => exact List.nil_sublist _
    | cancelled => exact ih.trans (List.sublist_append_left _ _)
    | ran callback => exact ih.trans (List.sublist_append_left _ _)

/-- **What waits** was registered and neither withdrawn nor disposed of since. -/
theorem mem_waitingAfter_iff {front back : List TokenEvent} {callback : String}
    (distinct : (registeredIn (front ++ .registered callback :: back)).Nodup) :
    callback ∈ waitingAfter (front ++ .registered callback :: back) ↔
      .withdrawn callback ∉ back ∧ .disposed ∉ back := by
  -- What waits changes with the last event, so the induction is on what came since, from the end.
  induction back using List.reverseRecOn with
  | nil => simp [waitingAfter_concat, TokenEvent.wait]
  | append_singleton back event ih =>
    rw [← List.cons_append, ← List.append_assoc] at distinct ⊢
    generalize hearlier : front ++ .registered callback :: back = earlier at distinct ih ⊢
    have hregistered : callback ∈ registeredIn earlier := by
      rw [mem_registeredIn_iff, ← hearlier]
      simp
    rw [registeredIn_append] at distinct
    have hearlierNodup : (registeredIn earlier).Nodup := distinct.of_append_left
    rw [waitingAfter_concat, List.mem_append, List.mem_append, List.mem_singleton,
      List.mem_singleton]
    cases event with
    | registered other =>
      have hother : callback ≠ other :=
        (List.nodup_append.1 distinct).2.2 callback hregistered other List.mem_cons_self
      simp [TokenEvent.wait, hother, ih hearlierNodup]
    | withdrawn other =>
      have hwaiting := hearlierNodup.sublist (waitingAfter_sublist earlier)
      by_cases hother : callback = other
      · simp [TokenEvent.wait, hother, hwaiting.mem_erase_iff]
      · simp [TokenEvent.wait, hother, hwaiting.mem_erase_iff, ih hearlierNodup]
    | disposed => simp [TokenEvent.wait]
    | cancelled => simp [TokenEvent.wait, ih hearlierNodup]
    | ran other => simp [TokenEvent.wait, ih hearlierNodup]

/-! ### From the first cancellation on -/

/-- Every callback that is registered runs at once, and no other one runs. -/
inductive Prompt : List TokenEvent → Prop
  | nil : Prompt []
  | registered {callback : String} {later : List TokenEvent} (prompt : Prompt later) :
      Prompt (.registered callback :: .ran callback :: later)
  | withdrawn {callback : String} {later : List TokenEvent} (prompt : Prompt later) :
      Prompt (.withdrawn callback :: later)
  | disposed {later : List TokenEvent} (prompt : Prompt later) : Prompt (.disposed :: later)
  | cancelled {later : List TokenEvent} (prompt : Prompt later) : Prompt (.cancelled :: later)

/-- These callbacks run one after the other, each with what it does itself. -/
inductive Runs : List String → List TokenEvent → Prop
  | nil : Runs [] []
  | cons {callback : String} {own later : List TokenEvent} {callbacks : List String}
      (prompt : Prompt own) (rest : Runs callbacks later) :
      Runs (callback :: callbacks) (.ran callback :: (own ++ later))

namespace Prompt

variable {history : List TokenEvent}

/-- Two prompt histories in a row are prompt. -/
theorem append (h : Prompt history) {more : List TokenEvent} (h' : Prompt more) :
    Prompt (history ++ more) := by
  induction h with
  | nil => exact h'
  | registered _ ih => exact .registered ih
  | withdrawn _ ih => exact .withdrawn ih
  | disposed _ ih => exact .disposed ih
  | cancelled _ ih => exact .cancelled ih

/-- In a prompt history what is registered is what runs, in the same order. -/
theorem ranIn_eq (h : Prompt history) : ranIn history = registeredIn history := by
  induction h with
  | nil => rfl
  | registered _ ih => exact congrArg _ ih
  | withdrawn _ ih => exact ih
  | disposed _ ih => exact ih
  | cancelled _ ih => exact ih

end Prompt

/-- A callback that is registered runs next. -/
def Immediate (history : List TokenEvent) : Prop :=
  ∀ front callback back, history = front ++ .registered callback :: back →
    ∃ later, back = .ran callback :: later

/-- Where nothing has happened every registered callback ran at once. -/
theorem immediate_nil : Immediate [] := by
  intro front callback back h
  simp at h

/-- An event that is no registration leaves it to the later ones. -/
theorem Immediate.cons {event : TokenEvent} (other : event.registered? = none)
    {later : List TokenEvent} (h : Immediate later) : Immediate (event :: later) := by
  intro front callback back heq
  cases front with
  | nil =>
    obtain ⟨rfl, -⟩ := List.cons.inj heq
    cases other
  | cons first front => exact h front callback back (List.cons.inj heq).2

/-- If callbacks run at once in two histories they do so in both in a row. -/
theorem Immediate.append {history more : List TokenEvent} (h : Immediate history)
    (h' : Immediate more) : Immediate (history ++ more) := by
  intro front callback back heq
  rcases List.append_eq_append_iff.1 heq with ⟨middle, rfl, hmore⟩ | ⟨middle, rfl, hback⟩
  · exact h' middle callback back hmore
  · cases middle with
    | nil => exact h' [] callback back hback.symm
    | cons event middle =>
      obtain ⟨rfl, rfl⟩ := List.cons.inj hback
      obtain ⟨later, rfl⟩ := h front callback middle rfl
      exact ⟨later ++ more, rfl⟩

/-- In a prompt history callbacks run at once. -/
theorem Prompt.immediate {history : List TokenEvent} (h : Prompt history) : Immediate history := by
  induction h with
  | nil => exact immediate_nil
  | @registered callback later _ ih =>
    intro front other back heq
    cases front with
    | nil =>
      obtain ⟨hsame, rfl⟩ := List.cons.inj heq
      obtain rfl := TokenEvent.registered.inj hsame
      exact ⟨later, rfl⟩
    | cons first front => exact (ih.cons rfl) front other back (List.cons.inj heq).2
  | withdrawn _ ih => exact ih.cons rfl
  | disposed _ ih => exact ih.cons rfl
  | cancelled _ ih => exact ih.cons rfl

namespace Runs

variable {callbacks : List String} {history : List TokenEvent}

/-- While callbacks that waited run, each that is registered runs at once. -/
theorem immediate (h : Runs callbacks history) : Immediate history := by
  induction h with
  | nil => exact immediate_nil
  | cons prompt _ ih => exact (prompt.immediate.append ih).cons rfl

/-- What runs with a callback is the callback, what it registers itself, and what runs later. -/
theorem ranIn_run {callback : String} {own : List TokenEvent} (prompt : Prompt own)
    (later : List TokenEvent) :
    ranIn (.ran callback :: (own ++ later)) = callback :: (registeredIn own ++ ranIn later) := by
  rw [← prompt.ranIn_eq, ← ranIn_append]
  rfl

/-- What is registered with it is what it registers itself and what is registered later. -/
theorem registeredIn_run (callback : String) (own later : List TokenEvent) :
    registeredIn (.ran callback :: (own ++ later)) = registeredIn own ++ registeredIn later := by
  rw [← registeredIn_append]
  rfl

/-- What runs are these callbacks, and those that are registered meanwhile. -/
theorem ranIn_perm (h : Runs callbacks history) :
    (ranIn history).Perm (callbacks ++ registeredIn history) := by
  induction h with
  | nil => exact .nil
  | @cons callback own later callbacks prompt _ ih =>
    rw [ranIn_run prompt, registeredIn_run]
    refine .cons callback ((ih.append_left _).trans ?_)
    exact List.perm_append_comm_assoc _ _ _

/-- Without those that are registered meanwhile, these callbacks run in their order. -/
theorem filter_ranIn (h : Runs callbacks history) {known : List String}
    (hknown : callbacks ⊆ known) (hnew : ∀ callback ∈ registeredIn history, callback ∉ known) :
    (ranIn history).filter (· ∈ known) = callbacks := by
  induction h with
  | nil => rfl
  | @cons callback own later callbacks prompt _ ih =>
    obtain ⟨hcallback, hcallbacks⟩ := List.cons_subset.1 hknown
    rw [registeredIn_run, List.forall_mem_append] at hnew
    have hown : (registeredIn own).filter (· ∈ known) = [] :=
      List.filter_eq_nil_iff.2 fun other hother => by simpa using hnew.1 other hother
    rw [ranIn_run prompt, List.filter_cons_of_pos (by simpa using hcallback), List.filter_append,
      hown, List.nil_append, ih hcallbacks hnew.2]

end Runs

/-! ### Whole histories -/

/-- Two places of one list are the same one, or one of them comes first. -/
theorem append_cons_eq_append_cons {β : Type} {front later before back : List β} {a b : β}
    (h : front ++ a :: later = before ++ b :: back) :
    (front = before ∧ a = b ∧ later = back) ∨
      (∃ middle, before = front ++ a :: middle ∧ later = middle ++ b :: back) ∨
      ∃ middle, front = before ++ b :: middle ∧ back = middle ++ a :: later := by
  rcases List.append_eq_append_iff.1 h with ⟨middle, rfl, hmiddle⟩ | ⟨middle, rfl, hmiddle⟩
  · cases middle with
    | nil =>
      obtain ⟨rfl, rfl⟩ := List.cons.inj hmiddle
      exact .inl ⟨(List.append_nil _).symm, rfl, rfl⟩
    | cons c middle =>
      obtain ⟨rfl, rfl⟩ := List.cons.inj hmiddle
      exact .inr (.inl ⟨middle, rfl, rfl⟩)
  · cases middle with
    | nil =>
      obtain ⟨rfl, rfl⟩ := List.cons.inj hmiddle
      exact .inl ⟨List.append_nil _, rfl, rfl⟩
    | cons c middle =>
      obtain ⟨rfl, rfl⟩ := List.cons.inj hmiddle
      exact .inr (.inr ⟨middle, rfl, rfl⟩)

/-- The first place of an element is one. -/
theorem eq_of_append_cons_eq {β : Type} {front later before back : List β} {a : β}
    (h : front ++ a :: later = before ++ a :: back) (first : a ∉ front) (first' : a ∉ before) :
    front = before ∧ later = back := by
  rcases append_cons_eq_append_cons h with ⟨hfront, -, hlater⟩ | ⟨_, rfl, -⟩ | ⟨_, rfl, -⟩
  · exact ⟨hfront, hlater⟩
  · exact absurd (by simp) first'
  · exact absurd (by simp) first

/-- Nothing runs before the first cancellation, which runs what waits; after it every callback runs
at once. -/
inductive Shape : List TokenEvent → Prop
  | still {history : List TokenEvent} (still : Still history) : Shape history
  | cancelled {front handed back : List TokenEvent} (still : Still front)
      (runs : Runs (waitingAfter front) handed) (prompt : Prompt back) :
      Shape (front ++ .cancelled :: (handed ++ back))

/-- Where all is still nothing runs. -/
theorem Still.ranIn_eq {history : List TokenEvent} (h : Still history) : ranIn history = [] := by
  rw [List.eq_nil_iff_forall_not_mem]
  exact fun callback hran => h.2 callback (mem_ranIn_iff.1 hran)

/-- A sublist consists of its members in the list. -/
theorem filter_mem_of_sublist {sub whole : List String} (h : sub.Sublist whole)
    (nodup : whole.Nodup) : whole.filter (· ∈ sub) = sub := by
  have hsub : sub.Sublist (whole.filter (· ∈ sub)) := by
    have hfilter := h.filter fun callback => decide (callback ∈ sub)
    rwa [List.filter_eq_self.2 fun callback hcallback => decide_eq_true hcallback] at hfilter
  have hmembers : whole.filter (· ∈ sub) ⊆ sub := fun callback hcallback => by
    simpa using (List.mem_filter.1 hcallback).2
  exact (hsub.eq_of_length_le (List.subperm_of_subset (nodup.filter _) hmembers).length_le).symm

section FirstCancellation

variable {front handed back : List TokenEvent}

/-- Of the callbacks that came before the first cancellation, those run that wait then. -/
theorem ran_iff_waiting (still : Still front) (runs : Runs (waitingAfter front) handed)
    (prompt : Prompt back) {callback : String}
    (old : callback ∉ registeredIn (handed ++ back)) :
    .ran callback ∈ front ++ .cancelled :: (handed ++ back) ↔ callback ∈ waitingAfter front := by
  rw [registeredIn_append, List.mem_append, not_or] at old
  rw [← mem_ranIn_iff, ranIn_append, still.ranIn_eq]
  change callback ∈ ranIn (handed ++ back) ↔ _
  rw [ranIn_append, prompt.ranIn_eq, List.mem_append, or_iff_left old.2, runs.ranIn_perm.mem_iff,
    List.mem_append, or_iff_left old.1]

/-- **The first cancellation runs, in order of registration, what was registered before it and runs
at all.** -/
theorem filter_ran_of_cancelled (still : Still front) (runs : Runs (waitingAfter front) handed)
    (prompt : Prompt back)
    (distinct : (registeredIn (front ++ .cancelled :: (handed ++ back))).Nodup) :
    (ranIn handed).filter (· ∈ registeredIn front) =
      (registeredIn front).filter (.ran · ∈ front ++ .cancelled :: (handed ++ back)) := by
  rw [registeredIn_cancelled] at distinct
  have hold : ∀ callback ∈ registeredIn front, callback ∉ registeredIn (handed ++ back) :=
    fun _ hearly => List.disjoint_of_nodup_append distinct hearly
  have hnew : ∀ callback ∈ registeredIn handed, callback ∉ registeredIn front :=
    fun callback hlate hearly => hold callback hearly (by simp [hlate])
  have hwaiting := waitingAfter_sublist front
  calc (ranIn handed).filter (· ∈ registeredIn front)
      = waitingAfter front := runs.filter_ranIn hwaiting.subset hnew
    _ = (registeredIn front).filter (· ∈ waitingAfter front) :=
        (filter_mem_of_sublist hwaiting distinct.of_append_left).symm
    _ = (registeredIn front).filter (.ran · ∈ front ++ .cancelled :: (handed ++ back)) :=
        List.filter_congr fun callback hcallback => decide_eq_decide.2
          (ran_iff_waiting still runs prompt (hold callback hcallback)).symm

end FirstCancellation

/-- The callback is registered until the first cancellation: it is neither withdrawn nor disposed of
before. -/
def LastsToCancel (callback : String) (back : List TokenEvent) : Prop :=
  ∃ middle later, back = middle ++ .cancelled :: later ∧ .cancelled ∉ middle ∧
    .withdrawn callback ∉ middle ∧ .disposed ∉ middle

namespace Shape

variable {history : List TokenEvent}

/-- After the first cancellation a history goes on promptly. -/
theorem append_prompt (h : Shape history) (cancelled : .cancelled ∈ history)
    {more : List TokenEvent} (prompt : Prompt more) : Shape (history ++ more) := by
  cases h with
  | still still => exact absurd cancelled still.1
  | cancelled still runs earlier =>
    rw [List.append_assoc, List.cons_append, List.append_assoc]
    exact .cancelled still runs (earlier.append prompt)

/-- No callback runs twice. -/
theorem nodup_ran (h : Shape history) (distinct : (registeredIn history).Nodup) :
    (ranIn history).Nodup := by
  cases h with
  | still still =>
    rw [still.ranIn_eq]
    exact List.nodup_nil
  | @cancelled front handed back still runs prompt =>
    have hran : ranIn (front ++ .cancelled :: (handed ++ back)) =
        ranIn handed ++ registeredIn back := by
      rw [ranIn_append, still.ranIn_eq, ← prompt.ranIn_eq, ← ranIn_append]
      rfl
    have hperm := runs.ranIn_perm.append_right (registeredIn back)
    rw [List.append_assoc] at hperm
    rw [registeredIn_cancelled, registeredIn_append] at distinct
    rw [hran, hperm.nodup_iff]
    exact distinct.sublist ((waitingAfter_sublist front).append (.refl _))

/-- After the first cancellation every callback that is registered runs at once. -/
theorem immediate_ran (h : Shape history) {front back : List TokenEvent} {callback : String}
    (registered : history = front ++ .registered callback :: back) (late : .cancelled ∈ front) :
    ∃ later, back = .ran callback :: later := by
  cases h with
  | still still =>
    rw [registered] at still
    exact absurd (List.mem_append_left _ late) still.1
  | @cancelled earlier handed later still runs prompt =>
    rcases append_cons_eq_append_cons registered with
      ⟨-, hsame, -⟩ | ⟨middle, -, hmiddle⟩ | ⟨middle, hearlier, -⟩
    · cases hsame
    · exact (runs.immediate.append prompt.immediate) middle callback back hmiddle
    · rw [hearlier] at still
      exact absurd (List.mem_append_left _ late) still.1

/-- A callback that is registered before the first cancellation runs exactly if it lasts to it. -/
theorem ran_iff_of_early (h : Shape history) (distinct : (registeredIn history).Nodup)
    {front back : List TokenEvent} {callback : String}
    (registered : history = front ++ .registered callback :: back) (early : .cancelled ∉ front) :
    .ran callback ∈ history ↔ LastsToCancel callback back := by
  cases h with
  | still still =>
    refine iff_of_false (still.2 callback) ?_
    rintro ⟨middle, later, rfl, -⟩
    exact still.1 (by simp [registered])
  | @cancelled earlier handed later still runs prompt =>
    rcases append_cons_eq_append_cons registered with
      ⟨-, hsame, -⟩ | ⟨middle, rfl, -⟩ | ⟨middle, rfl, rfl⟩
    · cases hsame
    · exact absurd (by simp) early
    -- Here the registration is one of those before the first cancellation.
    · rw [registeredIn_cancelled] at distinct
      have hwaits := mem_waitingAfter_iff distinct.of_append_left
      have hold : callback ∉ registeredIn (handed ++ later) :=
        List.disjoint_of_nodup_append distinct (mem_registeredIn_iff.2 (by simp))
      have hran := ran_iff_waiting still runs prompt hold
      have hmiddle : .cancelled ∉ middle := fun hin => still.1 (by simp [hin])
      rw [hran, hwaits]
      constructor
      · exact fun hlasts => ⟨middle, handed ++ later, rfl, hmiddle, hlasts⟩
      · rintro ⟨between, after, heq, hfirst, hlasts⟩
        rw [(eq_of_append_cons_eq heq hmiddle hfirst).1]
        exact hlasts

end Shape

end AsmScope.Scenario
