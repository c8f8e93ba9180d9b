import AsmScope.Watch
/-! # What a handler makes of an event

For the handler of a file every event is a change of this file, or none, or it cannot be told which,
since a path that has to be read for this is no text. A change is reported if the clock allows it
(`react_of_isChangeOf`). What cannot be told fails (`react_of_isUnreadable`). Nothing else touches
the handler (`react_of_still`), but what tells that the file has left its path is reported as a
deletion. -/

namespace AsmScope

/-! ### What events say about a file -/

namespace EventPath

/-- The path leads to the file with this canonical path. Bytes that are no text lead nowhere. -/
def Reaches (path : EventPath) (host : Host) (target : String) : Prop :=
  ∃ text, path.text? = some text ∧ host.canonical text = target

variable {path : EventPath} {host : Host} {target other : String}

/-- A path leads to a file if the canonical form of its text is that of the file. -/
theorem reaches_iff : path.Reaches host target ↔ path.text?.map host.canonical = some target := by
  rw [Reaches, Option.map_eq_some_iff]

instance (path : EventPath) (host : Host) (target : String) :
    Decidable (path.Reaches host target) :=
  decidable_of_iff _ reaches_iff.symm

/-- A path leads to one file only. -/
theorem Reaches.unique (h : path.Reaches host target) (h' : path.Reaches host other) :
    target = other := by
  rw [reaches_iff] at h h'
  exact Option.some.inj (h.symm.trans h')

/-- A path that leads somewhere is a text. -/
theorem Reaches.text?_ne_none (h : path.Reaches host target) : path.text? ≠ none := by
  obtain ⟨text, htext, -⟩ := h
  rw [htext]
  exact Option.some_ne_none text

end EventPath

namespace FileEvent

/-- The file was written or created, or another file was moved onto it. -/
def IsChangeOf (event : FileEvent) (host : Host) (target : String) : Prop :=
  event.isDirectory = false ∧
    match event.kind with
    | .modified | .created => event.path.Reaches host target
    | .deleted => False
    | .moved destination => destination.Reaches host target

/-- The file was deleted, or it was moved away: its new path does not lead to it. -/
def IsDeletionOf (event : FileEvent) (host : Host) (target : String) : Prop :=
  event.isDirectory = false ∧ event.path.Reaches host target ∧
    match event.kind with
    | .modified | .created => False
    | .deleted => True
    | .moved destination => ¬destination.Reaches host target

/-- What the event says about the file cannot be told: a path that has to be read for this is no
text. The path from which a file was moved is of no account if it was moved onto this one. -/
def IsUnreadable (event : FileEvent) (host : Host) (target : String) : Prop :=
  event.isDirectory = false ∧
    match event.kind with
    | .modified | .created | .deleted => event.path.text? = none
    | .moved destination =>
      destination.text? = none ∨ ¬destination.Reaches host target ∧ event.path.text? = none

variable {event : FileEvent} {host : Host} {target other : String}

instance (event : FileEvent) (host : Host) (target : String) :
    Decidable (event.IsChangeOf host target) :=
  match event with
  | ⟨.modified, path, isDirectory⟩ =>
    inferInstanceAs (Decidable (isDirectory = false ∧ path.Reaches host target))
  | ⟨.created, path, isDirectory⟩ =>
    inferInstanceAs (Decidable (isDirectory = false ∧ path.Reaches host target))
  | ⟨.deleted, _, isDirectory⟩ => inferInstanceAs (Decidable (isDirectory = false ∧ False))
  | ⟨.moved destination, _, isDirectory⟩ =>
    inferInstanceAs (Decidable (isDirectory = false ∧ destination.Reaches host target))

/-- An event is a change of one file only. -/
theorem IsChangeOf.unique (h : event.IsChangeOf host target) (h' : event.IsChangeOf host other) :
    target = other := by
  obtain ⟨kind, path, isDirectory⟩ := event
  obtain ⟨-, hkind⟩ := h
  obtain ⟨-, hkind'⟩ := h'
  cases kind with
  | modified | created | moved => exact EventPath.Reaches.unique hkind hkind'
  | deleted => exact hkind.elim

/-- What tells that a file is gone is no change of it. -/
theorem IsDeletionOf.not_isChangeOf (h : event.IsDeletionOf host target) :
    ¬event.IsChangeOf host target := by
  obtain ⟨kind, path, isDirectory⟩ := event
  rintro ⟨-, hchange⟩
  obtain ⟨-, -, hkind⟩ := h
  cases kind with
  | modified | created => exact hkind
  | deleted => exact hchange
  | moved destination => exact hkind hchange

end FileEvent

/-! ### What is made of them -/

namespace Handler

variable {handler : Handler} {host : Host} {event : FileEvent} {path : EventPath}

/-- A path that is a text is compared with that of the file. -/
theorem isTarget_of_text (readable : path.text? ≠ none) :
    handler.isTarget host path = .ok (decide (path.Reaches host handler.target)) := by
  obtain ⟨text, htext⟩ := Option.ne_none_iff_exists'.1 readable
  have hreaches : path.Reaches host handler.target ↔ host.canonical text = handler.target := by
    rw [EventPath.reaches_iff, htext, Option.map_some, Option.some.injEq]
  rw [isTarget, htext, decide_eq_decide.2 hreaches]
  rfl

/-- A path that leads to the file is told to. -/
theorem isTarget_of_reaches (reaches : path.Reaches host handler.target) :
    handler.isTarget host path = .ok true := by
  rw [isTarget_of_text reaches.text?_ne_none, decide_eq_true reaches]

/-- A path that is no text cannot be told to lead anywhere. -/
theorem isTarget_of_text_eq_none (unreadable : path.text? = none) :
    handler.isTarget host path = .error .undecodable := by
  rw [isTarget, unreadable]

/-- If a path that is a text is found to be that of the file, a deletion is reported. -/
theorem isTarget_bind_deletion (readable : path.text? ≠ none) :
    (do
      if ← handler.isTarget host path then return (handler, handler.deletion)
      else return (handler, none) : Except EventError (Handler × Option Signal)) =
      .ok (handler, if path.Reaches host handler.target then handler.deletion else none) := by
  rw [isTarget_of_text readable]
  by_cases hreaches : path.Reaches host handler.target
  · rw [decide_eq_true hreaches, if_pos hreaches]
    rfl
  · rw [decide_eq_false hreaches, if_neg hreaches]
    rfl

/-- A change of the file is a change for its handler, whatever the event calls it. -/
theorem react_of_isChangeOf (change : event.IsChangeOf host handler.target) :
    handler.react host event = handler.change host.now := by
  obtain ⟨kind, path, isDirectory⟩ := event
  obtain ⟨rfl, hkind⟩ := change
  rw [react, if_neg Bool.false_ne_true]
  cases kind with
  | modified | created | moved =>
    dsimp only
    rw [isTarget_of_reaches hkind]
    rfl
  | deleted => exact hkind.elim

/-- What cannot be read fails, before anything is reported. -/
theorem react_of_isUnreadable (unreadable : event.IsUnreadable host handler.target) :
    handler.react host event = .error .undecodable := by
  obtain ⟨kind, path, isDirectory⟩ := event
  obtain ⟨rfl, hkind⟩ := unreadable
  rw [react, if_neg Bool.false_ne_true]
  cases kind with
  | modified | created | deleted =>
    dsimp only
    rw [isTarget_of_text_eq_none hkind]
    rfl
  | moved destination =>
    dsimp only
    by_cases hdestination : destination.text? = none
    · rw [isTarget_of_text_eq_none hdestination]
      rfl
    · -- the destination is another file, so the path is read as well
      obtain ⟨hother, hpath⟩ := hkind.resolve_left hdestination
      rw [isTarget_of_text hdestination, decide_eq_false hother, isTarget_of_text_eq_none hpath]
      rfl

/-- Every other event that can be read leaves the handler as it is. What has happened at the path of
its file is then a deletion. -/
theorem react_of_still (still : ¬event.IsChangeOf host handler.target)
    (readable : ¬event.IsUnreadable host handler.target) :
    handler.react host event = .ok (handler,
      if event.isDirectory = false ∧ event.path.Reaches host handler.target then handler.deletion
      else none) := by
  obtain ⟨kind, path, isDirectory⟩ := event
  cases isDirectory with
  | true => rfl
  | false =>
    simp only [FileEvent.IsChangeOf, FileEvent.IsUnreadable, true_and] at still readable ⊢
    rw [react, if_neg Bool.false_ne_true]
    cases kind with
    | modified | created =>
      dsimp only
      rw [isTarget_of_text readable, decide_eq_false still, if_neg still]
      rfl
    | deleted => exact isTarget_bind_deletion readable
    | moved destination =>
      -- moved onto another file; it may be moved away from this one
      obtain ⟨hdestination, hpath⟩ := not_or.1 readable
      dsimp only
      rw [isTarget_of_text hdestination, decide_eq_false still]
      exact isTarget_bind_deletion fun hnone => hpath ⟨still, hnone⟩

/-- A deletion is not reported as a change. -/
theorem deletion_ne_changed (handler : Handler) : handler.deletion ≠ some .changed := by
  unfold deletion
  split <;> nofun

/-- A change fails only where the time since the last report cannot be told. -/
theorem change_error {now : Number} {error : EventError} (h : handler.change now = .error error) :
    error = .beyondFormat ∧ handler.elapsed? now = none := by
  rw [change] at h
  split at h
  · next helapsed =>
    cases h
    exact ⟨rfl, helapsed⟩
  · split at h <;> cases h

/-- A change is reported and remembered, or neither. -/
theorem change_cases {now : Number} {next : Handler} {signal : Option Signal}
    (h : handler.change now = .ok (next, signal)) :
    (next = handler ∧ signal = none) ∨
      (next = { handler with lastTriggered := now } ∧ signal = some .changed) := by
  rw [change] at h
  split at h
  · cases h
  · split at h <;> cases h
    · exact .inr ⟨rfl, rfl⟩
    · exact .inl ⟨rfl, rfl⟩

/-- A handler changes only when it reports a change, and then it remembers the clock. -/
theorem react_cases {next : Handler} {signal : Option Signal}
    (h : handler.react host event = .ok (next, signal)) :
    (next = handler ∧ signal ≠ some .changed) ∨
      (next = { handler with lastTriggered := host.now } ∧ signal = some .changed ∧
        event.IsChangeOf host handler.target) := by
  by_cases hchange : event.IsChangeOf host handler.target
  · rw [react_of_isChangeOf hchange] at h
    rcases change_cases h with ⟨hnext, rfl⟩ | ⟨hnext, hsignal⟩
    · exact .inl ⟨hnext, nofun⟩
    · exact .inr ⟨hnext, hsignal, hchange⟩
  · by_cases hunreadable : event.IsUnreadable host handler.target
    · rw [react_of_isUnreadable hunreadable] at h
      cases h
    · rw [react_of_still hchange hunreadable] at h
      cases h
      refine .inl ⟨rfl, ?_⟩
      split
      · exact deletion_ne_changed handler
      · nofun

/-- **When a handler fails**: at an event that cannot be read, or at a change if the time since the
last report cannot be told. -/
theorem react_error {error : EventError} (h : handler.react host event = .error error) :
    (error = .undecodable ∧ event.IsUnreadable host handler.target) ∨
      (error = .beyondFormat ∧ event.IsChangeOf host handler.target ∧
        handler.elapsed? host.now = none) := by
  by_cases hchange : event.IsChangeOf host handler.target
  · rw [react_of_isChangeOf hchange] at h
    obtain ⟨herror, helapsed⟩ := change_error h
    exact .inr ⟨herror, hchange, helapsed⟩
  · by_cases hunreadable : event.IsUnreadable host handler.target
    · rw [react_of_isUnreadable hunreadable] at h
      cases h
      exact .inl ⟨rfl, hunreadable⟩
    · rw [react_of_still hchange hunreadable] at h
      cases h

end Handler

end AsmScope
