import AsmScope.Proofs.Watching
/-! # How the index follows its file

A deed changes the commands of a database only by reading its file again (`HasIndex.deed`). An event
that changes the file has its observer do so, unless the clock stands before the last change that
was reported: such a change is dropped (`Poised.notify_changes`). As an event reaches the observers
one after the other, and what one of them does is about its own database, a whole delivery does to
an index what its observer does. No other event and no other step of the machine touches the
commands. -/

namespace AsmScope

namespace Engine

variable {α : Type}

/-! ### What changes an index -/

/-- The database has this location and these commands. -/
def HasIndex (id : DatabaseId) (location : String) (commands : CommandIndex) (engine : Engine α) :
    Prop :=
  ∃ database, engine.database? id = some database ∧ database.location = location ∧
    database.commands = commands

/-- The index of a file that is read again: what it holds, or what was there if it holds none. -/
def refreshed (host : Host) (location : String) (commands : CommandIndex) : CommandIndex :=
  match CommandIndex.ofFile host location with
  | .ok fresh => fresh
  | .error _ => commands

/-- Reading a file again that holds an index gives this one. -/
theorem refreshed_of_ok {host : Host} {location : String} {fresh : CommandIndex}
    (loaded : CommandIndex.ofFile host location = .ok fresh) (commands : CommandIndex) :
    refreshed host location commands = fresh := by
  rw [refreshed, loaded]

/-- Reading a file again that holds none gives what was there. -/
theorem refreshed_of_error {host : Host} {location : String} {error : LoadError}
    (failed : CommandIndex.ofFile host location = .error error) (commands : CommandIndex) :
    refreshed host location commands = commands := by
  rw [refreshed, failed]

namespace HasIndex

variable {before after engine : Engine α} {id : DatabaseId} {location : String}
  {commands : CommandIndex}

/-- An index depends on nothing but the databases. -/
theorem of_databases (same : after.databases = before.databases)
    (h : HasIndex id location commands before) : HasIndex id location commands after := by
  obtain ⟨database, hdatabase, hindex⟩ := h
  refine ⟨database, ?_, hindex⟩
  rw [database?, same]
  exact hdatabase

/-- What is done to a database, but for its location and its commands. -/
theorem modify (h : HasIndex id location commands engine) (other : DatabaseId)
    {f : Database → Database}
    (keeps : ∀ database, (f database).location = database.location ∧
      (f database).commands = database.commands) :
    HasIndex id location commands (engine.modifyDatabase other f) := by
  obtain ⟨database, hdatabase, hlocation, hcommands⟩ := h
  rw [HasIndex, database?_modifyDatabase, hdatabase]
  split
  · exact ⟨_, rfl, (keeps database).1.trans hlocation, (keeps database).2.trans hcommands⟩
  · exact ⟨_, rfl, hlocation, hcommands⟩

/-- Disposing of a database leaves every index as it is. -/
theorem dispose (h : HasIndex id location commands engine) (other : DatabaseId) :
    HasIndex id location commands (engine.disposeDatabase other) := by
  have hcancelled : HasIndex id location commands (engine.cancelCompilation other).2 :=
    h.of_databases (cancelCompilation_books engine other).1
  exact hcancelled.modify other fun _ => ⟨rfl, rfl⟩

/-- Retiring a database leaves every index as it is. -/
theorem retire (h : HasIndex id location commands engine) (other : DatabaseId) :
    HasIndex id location commands (engine.retire other) := by
  have hdispose : ∀ engine : Engine α,
      Maintains (HasIndex id location commands) engine (engine.disposeDatabase other) :=
    fun _ h => h.dispose other
  exact relates_retire (fun _ _ h => h) hdispose engine h

/-- Closing all databases leaves every index as it is. -/
theorem closeAll (h : HasIndex id location commands engine) :
    HasIndex id location commands engine.closeAll := by
  have hdispose : ∀ (engine : Engine α) (other : DatabaseId),
      Maintains (HasIndex id location commands) engine (engine.disposeDatabase other) :=
    fun _ other h => h.dispose other
  exact relates_closeAll (fun _ _ h => h) hdispose engine h

/-- What follows from the deletion of a file leaves every index as it is. -/
theorem databaseDeleted (h : HasIndex id location commands engine) (other : DatabaseId)
    (path : String) : HasIndex id location commands (engine.databaseDeleted other path) := by
  have hlogged : HasIndex id location commands
      (engine.log .info "database" ("Compilation database deleted: " ++ path)) := h
  simp only [Engine.databaseDeleted]
  split
  · exact hlogged.retire other
  · exact hlogged.dispose other

/-- **What a deed does to an index**: none but a reload of this database touches it, and that puts
there what the file holds. -/
theorem deed {who : DatabaseId → Prop} (deed : Deed who before after)
    (h : HasIndex id location commands before) :
    HasIndex id location commands after ∨
      who id ∧ ∃ fresh, CommandIndex.ofFile before.host location = .ok fresh ∧
        HasIndex id location fresh after := by
  obtain ⟨database, hdatabase, hindex⟩ := h
  cases deed with
  | aside same => exact .inl (of_databases same.databases ⟨database, hdatabase, hindex⟩)
  | added | entered => exact .inl ⟨database, Orderly.found_of_append hdatabase, hindex⟩
  | @reloaded other found mine fresh there loaded =>
    by_cases hid : other = id
    · -- this one is read again
      subst hid
      rw [hdatabase, Option.some.injEq] at there
      subst there
      rw [hindex.1] at loaded
      refine .inr ⟨mine, fresh, loaded, { database with commands := fresh }, ?_, hindex.1, rfl⟩
      rw [database?_modifyDatabase, if_pos rfl, hdatabase]
      rfl
    · refine .inl ⟨database, ?_, hindex⟩
      rw [database?_modifyDatabase, if_neg hid]
      exact hdatabase
  | noted => exact .inl ⟨database, hdatabase, hindex⟩
  | cancelled =>
    exact .inl (of_databases (cancelCompilation_books _ _).1 ⟨database, hdatabase, hindex⟩)
  | retired => exact .inl (retire ⟨database, hdatabase, hindex⟩ _)
  | disposed => exact .inl (dispose ⟨database, hdatabase, hindex⟩ _)
  | closed => exact .inl (closeAll ⟨database, hdatabase, hindex⟩)

/-- What is done about other databases leaves an index alone. -/
theorem deed_other (deed : Deed (fun other => other ≠ id) before after)
    (h : HasIndex id location commands before) : HasIndex id location commands after := by
  rcases h.deed deed with hkept | ⟨hother, -⟩
  · exact hkept
  · exact absurd rfl hother

/-- **What anything in a session does to an index.** -/
theorem move {scene next : Scene α} (move : Move scene next)
    (h : HasIndex id location commands scene.engine) :
    HasIndex id location commands next.engine ∨
      ∃ fresh, CommandIndex.ofFile scene.engine.host location = .ok fresh ∧
        HasIndex id location fresh next.engine := by
  cases move with
  | deed deed =>
    rcases h.deed deed with hkept | ⟨-, hfresh⟩
    · exact .inl hkept
    · exact .inr hfresh
  | elsewhere same => exact .inl (h.of_databases same.databases)
  -- a begin or an end of a run writes the slot of a database, never its commands
  | @begun engine flights other there =>
    have hbegun : HasIndex id location commands (engine.modifyDatabase other fun database =>
        { database with active := some engine.tokens.length }) :=
      h.modify other fun _ => ⟨rfl, rfl⟩
    exact .inl (hbegun.of_databases (databases_beginCompilation engine other))
  | @ended engine flights flight ending =>
    have hended : HasIndex id location commands
        (engine.modifyDatabase flight.database fun database =>
          if database.active = some flight.token then { database with active := none }
          else database) := by
      refine h.modify flight.database fun database => ?_
      split <;> exact ⟨rfl, rfl⟩
    exact .inl (of_databases rfl hended)

/-- **Reading a file again** leaves the database with what the file holds, if it holds any. -/
theorem reload (h : HasIndex id location commands engine) :
    HasIndex id location (refreshed engine.host location commands)
      (engine.after (Engine.reload id)) := by
  obtain ⟨database, hdatabase, rfl, rfl⟩ := h
  have hreloading := reloading_reload engine id
  generalize engine.result (Engine.reload id) = result at hreloading
  generalize engine.after (Engine.reload id) = later at hreloading ⊢
  cases hreloading with
  | absent missing =>
    rw [hdatabase] at missing
    cases missing
  -- a fresh index replaces the commands
  | @loaded later found fresh there same loaded =>
    rw [hdatabase, Option.some.injEq] at there
    subst there
    refine ⟨{ database with commands := fresh }, ?_, rfl, ?_⟩
    · rw [database?_modifyDatabase, if_pos rfl, database?, same.databases, ← database?, hdatabase]
      rfl
    · rw [refreshed_of_ok loaded]
  -- what cannot be loaded leaves them as they are
  | kept there same failed =>
    rw [hdatabase, Option.some.injEq] at there
    subst there
    rw [refreshed_of_error failed]
    exact of_databases same.databases ⟨database, hdatabase, rfl, rfl⟩

end HasIndex

end Engine

/-! ### Which events change a file -/

/-- The file was written or created, or another file was moved onto it. -/
def FileEvent.Changes (event : FileEvent) (host : Host) (location : String) : Prop :=
  event.IsChangeOf host (host.canonical location)

/-- An event changes one file only. -/
theorem FileEvent.Changes.canonical_eq {event : FileEvent} {host : Host} {location other : String}
    (h : event.Changes host location) (h' : event.Changes host other) :
    host.canonical location = host.canonical other :=
  h.unique h'

/-- A file that is known under two names has one index. -/
theorem CommandIndex.ofFile_of_canonical_eq {host : Host} {location other : String}
    (normal : Path.Normal location) (normal' : Path.Normal other)
    (same : host.canonical location = host.canonical other) {commands : CommandIndex}
    (h : ofFile host location = .ok commands) : ofFile host other = .ok commands := by
  unfold ofFile at h ⊢
  cases hread : host.tree.read host.directory location with
  | error error =>
    rw [hread] at h
    cases h
  | ok content =>
    rw [hread] at h
    rw [host.tree.read_of_resolve_eq normal normal' same hread]
    exact h

namespace Handler

variable {handler : Handler} {host : Host} {location : String} {event : FileEvent}

/-- What a handler of a file takes for a change is what changes this file. -/
theorem isChangeOf_iff (target : handler.target = host.canonical location) :
    event.IsChangeOf host handler.target ↔ event.Changes host location := by
  rw [target]
  rfl

/-- A change of the file is a change for its handler, whatever the event calls it. -/
theorem react_of_changes (target : handler.target = host.canonical location)
    (changes : event.Changes host location) :
    handler.react host event = handler.change host.now :=
  react_of_isChangeOf ((isChangeOf_iff target).2 changes)

/-- Every other event is none, or it cannot be read. -/
theorem react_of_not_changes (target : handler.target = host.canonical location)
    (still : ¬event.Changes host location) :
    handler.react host event = .error .undecodable ∨
      ∃ signal, handler.react host event = .ok (handler, signal) ∧ signal ≠ some .changed := by
  by_cases hunreadable : event.IsUnreadable host handler.target
  · exact .inl (react_of_isUnreadable hunreadable)
  · have hreact := react_of_still (mt (isChangeOf_iff target).1 still) hunreadable
    rcases react_cases hreact with ⟨-, hsignal⟩ | ⟨-, -, hchange⟩
    · exact .inr ⟨_, hreact, hsignal⟩
    · exact absurd ((isChangeOf_iff target).1 hchange) still

/-- An event that can be read fails only where the distance from the last report cannot be told. -/
theorem react_of_elapsed (told : (handler.elapsed? host.now).isSome) (event : FileEvent) :
    handler.react host event = .error .undecodable ∨
      ∃ answer, handler.react host event = .ok answer := by
  cases hreact : handler.react host event with
  | ok answer => exact .inr ⟨answer, rfl⟩
  | error error =>
    rcases react_error hreact with ⟨rfl, -⟩ | ⟨-, -, hnone⟩
    · exact .inl rfl
    · rw [hnone] at told
      cases told

end Handler

namespace Engine

variable {α : Type}

/-! ### Delivering an event -/

/-- Where files and directory are the same an event changes the same files. -/
theorem SameFiles.changes_iff {before after : Engine α} (same : SameFiles before after)
    {event : FileEvent} {location : String} :
    event.Changes after.host location ↔ event.Changes before.host location := by
  simp only [FileEvent.Changes, FileEvent.IsChangeOf, EventPath.Reaches, same.canonical_eq]

/-- Where files and directory are the same, reading a file again gives the same. -/
theorem SameFiles.refreshed_eq {before after : Engine α} (same : SameFiles before after)
    (location : String) (commands : CommandIndex) :
    refreshed after.host location commands = refreshed before.host location commands := by
  rw [refreshed, refreshed, same.ofFile_eq]

section Notify

variable {engine : Engine α} {event : FileEvent} {listener other : Listener}

/-- An observer that is shown an event leaves the files as they are. -/
theorem sameFiles_notify (event : FileEvent) (listener : Listener) :
    Respects SameFiles (notify id event listener : Action α Unit) := by
  have hdeeds : ∀ before after : Engine α, Deed (fun _ => True) before after →
      SameFiles before after := fun _ _ deed => deed.sameFiles
  exact respects_notify hdeeds (fun _ => ⟨rfl, rfl, rfl⟩) event fun _ _ => trivial

/-- A reload leaves the observers alone. -/
theorem observers_databaseChanged (engine : Engine α) (mine : DatabaseId) (path : String) :
    (engine.after (databaseChanged mine path)).observers = engine.observers := by
  have hlogged : (engine.log .info "database"
      ("Compilation database changed: " ++ path)).observers = engine.observers := rfl
  rw [databaseChanged, after_modify_bind, ← hlogged]
  generalize engine.log .info "database" ("Compilation database changed: " ++ path) = logged
  have hreloading := reloading_reload logged mine
  generalize logged.result (reload mine) = result at hreloading
  generalize logged.after (reload mine) = later at hreloading ⊢
  cases hreloading with
  | absent => rfl
  | loaded _ same | kept _ same => exact same.observers

/-- A deletion stops one observer. -/
theorem get?_observers_databaseDeleted (engine : Engine α) {mine : DatabaseId}
    (ne : .database mine ≠ other) (path : String) :
    (engine.databaseDeleted mine path).observers.get? other = engine.observers.get? other := by
  have hdispose : ∀ later : Engine α,
      Maintains (fun later => later.observers.get? other = engine.observers.get? other) later
        (later.disposeDatabase mine) := by
    intro later h
    rw [observers_disposeDatabase, Table.get?_erase, if_neg ne]
    exact h
  simp only [databaseDeleted]
  split
  · exact relates_retire (fun _ _ h => h) hdispose _ rfl
  · exact hdispose _ rfl

/-- An observer that is shown an event does nothing to the others. -/
theorem get?_observers_notify (ne : listener ≠ other) :
    (engine.after (notify id event listener)).observers.get? other =
      engine.observers.get? other := by
  simp only [notify, after_get_bind]
  cases engine.observers.get? listener with
  | none => rfl
  | some handler =>
    dsimp only
    cases handler.react engine.host event with
    | error error => cases error <;> rfl
    | ok answer =>
      obtain ⟨next, signal⟩ := answer
      -- it may remember the time, and then do something about its own database
      have hnoted : (engine.observers.put listener next).get? other =
          engine.observers.get? other := by
        rw [Table.get?_put, if_neg ne]
      simp only [after_set_bind]
      cases signal with
      | none => exact hnoted
      | some signal =>
        refine Eq.trans ?_ hnoted
        cases listener with
        | source => cases signal <;> rfl
        | database mine =>
          cases signal with
          | changed => exact congrArg (Table.get? · other) (observers_databaseChanged _ mine _)
          | deleted => exact get?_observers_databaseDeleted _ ne _

/-- An observer that is shown an event does nothing to the index of another database. -/
theorem HasIndex.notify_other {mine : DatabaseId} {location : String} {commands : CommandIndex}
    (ne : listener ≠ .database mine) :
    Respects (Maintains (HasIndex mine location commands))
      (notify id event listener : Action α Unit) := by
  have hdeeds : ∀ before after : Engine α, Deed (fun other => other ≠ mine) before after →
      Maintains (HasIndex mine location commands) before after :=
    fun _ _ deed h => h.deed_other deed
  refine respects_notify hdeeds (fun _ h => h) event ?_
  rintro other rfl rfl
  exact ne rfl

end Notify

/-- What a change of the file leads to: the file is read again, and the observer remembers the time.
If the clock stands before the last change that the observer has reported, nothing happens. -/
def Followed (mine : DatabaseId) (location : String) (commands : CommandIndex) (handler : Handler)
    (before after : Engine α) : Prop :=
  ∃ elapsed, handler.elapsed? before.host.now = some elapsed ∧
    if (Number.binary (.zero false)).le elapsed then
      HasIndex mine location (refreshed before.host location commands) after ∧
        after.observers.get? (.database mine) =
          some { handler with lastTriggered := before.host.now }
    else
      HasIndex mine location commands after ∧
        after.observers.get? (.database mine) = some handler

/-- What comes later does not undo it, if it leaves the index and the observer alone. -/
theorem Followed.trans {mine : DatabaseId} {location : String} {commands : CommandIndex}
    {handler : Handler} {before between after : Engine α}
    (h : Followed mine location commands handler before between)
    (index : ∀ fresh, HasIndex mine location fresh between → HasIndex mine location fresh after)
    (observer : after.observers.get? (.database mine) = between.observers.get? (.database mine)) :
    Followed mine location commands handler before after := by
  obtain ⟨elapsed, helapsed, hfollowed⟩ := h
  refine ⟨elapsed, helapsed, ?_⟩
  rw [observer]
  split at hfollowed
  · next hlate =>
    rw [if_pos hlate]
    exact ⟨index _ hfollowed.1, hfollowed.2⟩
  · next hearly =>
    rw [if_neg hearly]
    exact ⟨index _ hfollowed.1, hfollowed.2⟩

/-- The observer of a database, before an event reaches it. -/
structure Poised (mine : DatabaseId) (location : String) (commands : CommandIndex)
    (handler : Handler) (start engine : Engine α) : Prop where
  files : SameFiles start engine
  index : HasIndex mine location commands engine
  handler : engine.observers.get? (.database mine) = some handler

namespace Poised

variable {start engine : Engine α} {mine : DatabaseId} {location : String}
  {commands : CommandIndex} {handler : Handler} {event : FileEvent}

/-- What other observers make of the event. -/
theorem notify_other {listener : Listener} (ne : listener ≠ .database mine) :
    Respects (Maintains (Poised mine location commands handler start))
      (notify id event listener) := by
  intro engine h
  refine ⟨?_, HasIndex.notify_other ne engine h.index, ?_⟩
  · exact IsTrans.trans _ _ _ h.files (sameFiles_notify event listener engine)
  · rw [get?_observers_notify ne]
    exact h.handler

/-- An event that does not change the file leaves the index alone. -/
theorem notify_still (h : Poised mine location commands handler start engine)
    (target : handler.target = start.host.canonical location)
    (still : ¬event.Changes start.host location) :
    HasIndex mine location commands (engine.after (notify id event (.database mine))) := by
  rw [← h.files.changes_iff] at still
  rw [← h.files.canonical_eq] at target
  rcases Handler.react_of_not_changes target still with hreact | ⟨signal, hreact, hsignal⟩
  · simp only [notify, after_get_bind, h.handler, hreact]
    exact h.index
  · simp only [notify, after_get_bind, h.handler, hreact, after_set_bind]
    have hnoted : HasIndex mine location commands
        { engine with observers := engine.observers.put (.database mine) handler } := h.index
    cases signal with
    | none => exact hnoted
    | some signal =>
      cases signal with
      | changed => exact absurd rfl hsignal
      | deleted => exact hnoted.databaseDeleted mine handler.target

/-- **An event that changes the file has it read again**, unless the clock stands before the last
change that was reported. -/
theorem notify_changes (h : Poised mine location commands handler start engine)
    (target : handler.target = start.host.canonical location)
    (debounce : handler.debounce = .binary (.zero false))
    (changes : event.Changes start.host location)
    (delivered : engine.result (notify id event (.database mine)) = .ok ()) :
    Followed mine location commands handler start
      (engine.after (notify id event (.database mine))) := by
  rw [← h.files.changes_iff] at changes
  rw [← h.files.canonical_eq] at target
  rw [Followed, ← h.files.refreshed_eq, ← h.files.now, ← debounce]
  have hreact := Handler.react_of_changes target changes
  simp only [notify, result_get_bind, after_get_bind, h.handler, hreact, Handler.change]
    at delivered ⊢
  cases helapsed : handler.elapsed? engine.host.now with
  | none =>
    rw [helapsed] at delivered
    cases delivered
  | some elapsed =>
    refine ⟨elapsed, rfl, ?_⟩
    dsimp only
    by_cases hle : handler.debounce.le elapsed = true
    · -- the observer remembers the time, the change is logged, and the file is read
      simp only [hle, if_true, after_set_bind, dispatch]
      refine ⟨?_, ?_⟩
      · rw [databaseChanged, after_modify_bind]
        exact HasIndex.reload h.index
      · rw [observers_databaseChanged, Table.get?_put_self]
    · -- the change is dropped
      simp only [hle, after_set_bind, after_pure, Bool.false_eq_true, if_false]
      exact ⟨h.index, Table.get?_put_self _ _ _⟩

/-- What a chain of other observers makes of the event. -/
theorem forM_others {listeners : List Listener} (others : .database mine ∉ listeners) :
    Respects (Maintains (Poised mine location commands handler start))
      (listeners.forM (notify id event)) :=
  Respects.forM_of fun _ hlistener =>
    notify_other fun heq => others (heq ▸ hlistener)

end Poised

section Deliver

variable {engine : Engine α} {mine : DatabaseId} {location : String} {commands : CommandIndex}
  {handler : Handler} {event : FileEvent}

/-- The others that come after it do not touch the index. -/
theorem HasIndex.forM_others {listeners : List Listener} (others : .database mine ∉ listeners)
    (h : HasIndex mine location commands engine) :
    HasIndex mine location commands (engine.after (listeners.forM (notify id event))) := by
  have hothers : Respects (Maintains (HasIndex mine location commands))
      (listeners.forM (notify id event) : Action α PUnit) :=
    Respects.forM_of fun _ hlistener => notify_other fun heq => others (heq ▸ hlistener)
  exact hothers engine h

/-- A chain of other observers that are shown an event does not touch an observer. -/
theorem get?_observers_forM {listeners : List Listener} {other : Listener}
    (others : other ∉ listeners) (engine : Engine α) :
    (engine.after (listeners.forM (notify id event))).observers.get? other =
      engine.observers.get? other := by
  have hothers : Respects
      (Maintains fun later => later.observers.get? other = engine.observers.get? other)
      (listeners.forM (notify id event) : Action α PUnit) := by
    refine Respects.forM_of fun listener hlistener later h => ?_
    have hne : listener ≠ other := by
      rintro rfl
      exact others hlistener
    exact (get?_observers_notify hne).trans h
  exact hothers engine rfl

/-- The observers that are shown an event before one of them, and those that are after. -/
theorem exists_keys_eq_append {observers : Observers Listener} (listeners : observers.keys.Nodup)
    {listener : Listener} (found : observers.get? listener = some handler) :
    ∃ earlier later : List Listener, listener ∉ earlier ∧ listener ∉ later ∧
      observers.keys = earlier ++ listener :: later := by
  have hmem : listener ∈ observers.keys := by
    rw [Table.mem_keys_iff, found]
    rfl
  obtain ⟨earlier, later, hsplit⟩ := List.append_of_mem hmem
  rw [hsplit, List.nodup_append] at listeners
  obtain ⟨-, hnodup, hapart⟩ := listeners
  refine ⟨earlier, later, fun hearlier => ?_, (List.nodup_cons.1 hnodup).1, hsplit⟩
  exact hapart listener hearlier listener List.mem_cons_self rfl

/-- Acting on a list is acting on what stands before an item, on the item, and on what stands behind
it. -/
theorem forM_append_cons {δ : Type} (earlier later : List δ) (item : δ)
    (action : δ → Action α PUnit) :
    (earlier ++ item :: later).forM action =
      earlier.forM action >>= fun _ => action item >>= fun _ => later.forM action := by
  have happend : (earlier ++ item :: later).forM action =
      earlier.forM action >>= fun _ => (item :: later).forM action := List.forM_append
  exact happend

/-- A delivery comes to the observer of a database with everything as it was, and what this one does
to the index stays; or it fails before. -/
theorem HasIndex.deliver_reaches (h : HasIndex mine location commands engine)
    (listeners : engine.observers.keys.Nodup)
    (found : engine.observers.get? (.database mine) = some handler) :
    (engine.result (deliver id event) ≠ .ok () ∧
      HasIndex mine location commands (engine.after (deliver id event))) ∨
    ∃ reached, Poised mine location commands handler engine reached ∧
      (engine.result (deliver id event) = .ok () →
        reached.result (notify id event (.database mine)) = .ok ()) ∧
      (∀ fresh, HasIndex mine location fresh (reached.after (notify id event (.database mine))) →
        HasIndex mine location fresh (engine.after (deliver id event))) ∧
      (engine.after (deliver id event)).observers.get? (.database mine) =
        (reached.after (notify id event (.database mine))).observers.get? (.database mine) := by
  obtain ⟨earlier, later, hearlier, hlater, hkeys⟩ := exists_keys_eq_append listeners found
  have hstart : Poised mine location commands handler engine engine :=
    ⟨Std.Refl.refl engine, h, found⟩
  have hpoised : Poised mine location commands handler engine
      (engine.after (earlier.forM (notify id event))) :=
    Poised.forM_others hearlier engine hstart
  rw [deliver, result_get_bind, after_get_bind, hkeys, forM_append_cons, result_bind, after_bind]
  generalize engine.after (earlier.forM (notify id event)) = reached at hpoised ⊢
  -- if an observer fails, those after it are not shown the event
  cases engine.result (earlier.forM (notify id event)) with
  | error =>
    refine .inl ⟨?_, hpoised.index⟩
    intro hok
    cases hok
  | ok =>
    dsimp only
    rw [result_bind, after_bind]
    refine .inr ⟨reached, hpoised, ?_, ?_, ?_⟩
    · intro hok
      cases hshown : reached.result (notify id event (.database mine)) with
      | error =>
        rw [hshown] at hok
        cases hok
      | ok => rfl
    · intro fresh hfresh
      cases reached.result (notify id event (.database mine)) with
      | error => exact hfresh
      | ok => exact hfresh.forM_others hlater
    · cases reached.result (notify id event (.database mine)) with
      | error => rfl
      | ok => exact get?_observers_forM hlater _

/-- **Other events** leave the index alone. -/
theorem HasIndex.deliver_still (h : HasIndex mine location commands engine)
    (listeners : engine.observers.keys.Nodup)
    (found : engine.observers.get? (.database mine) = some handler)
    (target : handler.target = engine.host.canonical location)
    (still : ¬event.Changes engine.host location) :
    HasIndex mine location commands (engine.after (deliver id event)) := by
  rcases h.deliver_reaches listeners found with ⟨-, hfailed⟩ | ⟨reached, hpoised, -, hstays, -⟩
  · exact hfailed
  · exact hstays commands (hpoised.notify_still target still)

/-- **A change that is delivered** has the file read again, unless the clock stands before the last
change that was reported. -/
theorem HasIndex.deliver_changes (h : HasIndex mine location commands engine)
    (listeners : engine.observers.keys.Nodup)
    (found : engine.observers.get? (.database mine) = some handler)
    (target : handler.target = engine.host.canonical location)
    (debounce : handler.debounce = .binary (.zero false))
    (changes : event.Changes engine.host location)
    (delivered : engine.result (deliver id event) = .ok ()) :
    Followed mine location commands handler engine (engine.after (deliver id event)) := by
  rcases h.deliver_reaches listeners found with
    ⟨hfailed, -⟩ | ⟨reached, hpoised, hshown, hstays, hobserver⟩
  · exact absurd delivered hfailed
  · have hfollowed := hpoised.notify_changes target debounce changes (hshown delivered)
    exact hfollowed.trans hstays hobserver

end Deliver

/-! ### Deliveries that succeed -/

section Succeed

variable {engine : Engine α} {location : String} {fresh : CommandIndex} {event : FileEvent}

/-- What follows from the change of a file goes well if the file can be loaded. -/
theorem result_databaseChanged {mine : DatabaseId} {database : Database}
    (found : engine.database? mine = some database)
    (loaded : CommandIndex.ofFile engine.host database.location = .ok fresh) (path : String) :
    engine.result (databaseChanged mine path) = .ok () := by
  -- the line in the log changes neither the databases nor the files
  have hfound : (engine.log .info "database" ("Compilation database changed: " ++ path)).database?
      mine = some database := found
  have hloaded : CommandIndex.ofFile (engine.log .info "database"
      ("Compilation database changed: " ++ path)).host database.location = .ok fresh := loaded
  rw [databaseChanged, result_modify_bind]
  generalize engine.log .info "database" ("Compilation database changed: " ++ path) = logged
    at hfound hloaded ⊢
  have hreloading := reloading_reload logged mine
  generalize logged.result (reload mine) = result at hreloading ⊢
  generalize logged.after (reload mine) = later at hreloading
  cases hreloading with
  | absent | loaded => rfl
  | kept there _ failed =>
    rw [hfound, Option.some.injEq] at there
    subst there
    rw [hloaded] at failed
    cases failed

/-- An observer fails at no change of a file that can be loaded: if it listens for another file, the
event is no change to it. -/
theorem result_notify (tracked : Tracked engine) (normal : Path.Normal location)
    (changes : event.Changes engine.host location)
    (loaded : CommandIndex.ofFile engine.host location = .ok fresh) {listener : Listener}
    (told : ∀ handler, engine.observers.get? listener = some handler →
      (handler.elapsed? engine.host.now).isSome) :
    engine.result (notify id event listener) = .ok () := by
  simp only [notify, result_get_bind]
  cases hhandler : engine.observers.get? listener with
  | none => rfl
  | some handler =>
    rcases Handler.react_of_elapsed (told handler hhandler) event with
      hreact | ⟨⟨next, signal⟩, hreact⟩
    · -- what cannot be read is no failure of the delivery
      simp only [hreact]
      rfl
    simp only [hreact, result_set_bind]
    cases signal with
    | none => rfl
    | some signal =>
      cases listener with
      | source => cases signal <;> rfl
      | database mine =>
        cases signal with
        | deleted => rfl
        | changed =>
          -- it listens for the file of the event, which can be loaded under any of its names
          obtain ⟨database, hdatabase, hnormal, htarget, -⟩ :=
            tracked.handlers mine handler hhandler
          have hmine : event.Changes engine.host database.location := by
            rcases Handler.react_cases hreact with ⟨-, hsignal⟩ | ⟨-, -, hchange⟩
            · exact absurd rfl hsignal
            · exact (Handler.isChangeOf_iff htarget).1 hchange
          have hsame := changes.canonical_eq hmine
          have hloaded := CommandIndex.ofFile_of_canonical_eq normal hnormal hsame loaded
          have hnoted : ({ engine with
              observers := engine.observers.put (.database mine) next } : Engine α).database? mine =
                some database := hdatabase
          exact result_databaseChanged hnoted hloaded _

/-- An observer that is shown an event leaves every observer with the file of its database. -/
theorem tracked_notify (event : FileEvent) (listener : Listener) :
    Respects (Maintains Tracked) (notify id event listener : Action α Unit) := by
  have hdeeds : ∀ before after : Engine α, Deed (fun _ => True) before after →
      Maintains Tracked before after := fun _ _ deed h => h.deed deed
  exact respects_notify hdeeds (fun _ h => h) event fun _ _ => trivial

/-- **The change of a file that can be loaded is delivered**, if the clock can be told from the
times of the last reports. -/
theorem result_deliver (tracked : Tracked engine) (listeners : engine.observers.keys.Nodup)
    (normal : Path.Normal location) (changes : event.Changes engine.host location)
    (loaded : CommandIndex.ofFile engine.host location = .ok fresh)
    (told : ∀ listener handler, engine.observers.get? listener = some handler →
      (handler.elapsed? engine.host.now).isSome) :
    engine.result (deliver id event) = .ok () := by
  -- the observers that are left stay as they are until it is their turn
  have hchain : ∀ listeners : List Listener, listeners.Nodup → ∀ engine : Engine α,
      Tracked engine → event.Changes engine.host location →
      CommandIndex.ofFile engine.host location = .ok fresh →
      (∀ listener ∈ listeners, ∀ handler, engine.observers.get? listener = some handler →
        (handler.elapsed? engine.host.now).isSome) →
      engine.result (listeners.forM (notify id event)) = .ok () := by
    intro listeners
    induction listeners with
    | nil => exact fun _ _ _ _ _ _ => rfl
    | cons listener listeners ih =>
      intro nodup engine tracked changes loaded told
      rw [List.nodup_cons] at nodup
      have hfirst := result_notify tracked normal changes loaded
        fun handler => told listener List.mem_cons_self handler
      have hfiles := sameFiles_notify event listener engine
      have htracked := tracked_notify event listener engine tracked
      have hothers : ∀ other ∈ listeners,
          (engine.after (notify id event listener)).observers.get? other =
            engine.observers.get? other := by
        intro other hother
        exact get?_observers_notify fun heq => nodup.1 (heq ▸ hother)
      -- the first one leaves the files as they are, and the others in their places
      rw [List.forM, result_bind, hfirst]
      generalize engine.after (notify id event listener) = next at hfiles htracked hothers ⊢
      refine ih nodup.2 next htracked ?_ ?_ ?_
      · rw [hfiles.changes_iff]
        exact changes
      · rw [hfiles.ofFile_eq]
        exact loaded
      · intro other hother handler hhandler
        rw [hothers other hother] at hhandler
        rw [hfiles.now]
        exact told other (List.mem_cons_of_mem _ hother) handler hhandler
  rw [deliver, result_get_bind]
  exact hchain _ listeners engine tracked changes loaded fun listener _ => told listener

end Succeed

/-- What happens outside the program does nothing to an index, but for events that change its
file. -/
theorem HasIndex.hostStep {engine : Engine α} {mine : DatabaseId} {location : String}
    {commands : CommandIndex} {handler : Handler} (h : HasIndex mine location commands engine)
    (listeners : engine.observers.keys.Nodup)
    (found : engine.observers.get? (.database mine) = some handler)
    (target : handler.target = engine.host.canonical location) {step : HostStep}
    (still : ∀ event, step = .event event → ¬event.Changes engine.host location) :
    HasIndex mine location commands (engine.after (step.perform id)) := by
  cases step with
  | event event => exact h.deliver_still listeners found target (still event rfl)
  | write | delete | setClock | changeDirectory =>
    have hsame : ∀ host : Host, HasIndex mine location commands { engine with host } := fun _ => h
    exact hsame _

end Engine

namespace Scenario

open Engine

/-- **How an index follows its file.** In a session on a fresh engine that watches its databases,
with all that scripts do while runs are in progress, a registered database has an observer. When an
event says that the file was written or created, or that another file was moved onto it, and the
file holds an index, the event is delivered if only the clock can be told from the times of the last
reports; and once it is delivered, the commands are those that the file holds and the observer
remembers the time, unless the clock stands before the time at which it has last reported a change:
then the commands stay. Nothing else that happens outside the program changes the commands, and
everything that the program does leaves them as they are or reads them from the file as it is
then. -/
theorem index_follows_file {host : Host} {workspace : String} {sink : Sink} {front : Ledger}
    {start : Stage} (created : (create host workspace sink true front).1 = .ok start)
    (scripted : Scripted EngineStep.Regular start)
    (rooted : Path.isAbsolute start.host.directory) :
    CoversSessions start ∧ ∀ scene, Moves ⟨start, []⟩ scene → ∀ mine database,
      scene.engine.Registered mine → scene.engine.database? mine = some database →
      (∃ handler, scene.engine.observers.get? (.database mine) = some handler ∧
        ∀ event : FileEvent, event.Changes scene.engine.host database.location →
          (∀ fresh, CommandIndex.ofFile scene.engine.host database.location = .ok fresh →
            (∀ listener other, scene.engine.observers.get? listener = some other →
              (other.elapsed? scene.engine.host.now).isSome) →
            scene.engine.result (deliver id event) = .ok ()) ∧
          (scene.engine.result (deliver id event) = .ok () →
            Followed mine database.location database.commands handler scene.engine
              (scene.engine.after (deliver id event)))) ∧
      (∀ step : HostStep,
        (∀ event, step = .event event → ¬event.Changes scene.engine.host database.location) →
        HasIndex mine database.location database.commands
          (scene.engine.after (step.perform id))) ∧
      ∀ next, Move scene next →
        HasIndex mine database.location database.commands next.engine ∨
          ∃ fresh, CommandIndex.ofFile scene.engine.host database.location = .ok fresh ∧
            HasIndex mine database.location fresh next.engine := by
  refine ⟨coversSessions scripted, fun scene moves mine database registered found => ?_⟩
  -- the invariants hold in a created engine and along every chain of moves
  have fresh := fresh_of_create created
  have order := Orderly.moves moves (.of_fresh fresh)
  have tracked := Tracked.moves moves (.of_fresh fresh rooted)
  have hindex : HasIndex mine database.location database.commands scene.engine :=
    ⟨database, found, rfl, rfl⟩
  obtain ⟨handler, hhandler⟩ := Option.isSome_iff_exists.1
    ((order.observed mine List.not_mem_nil).2 registered)
  obtain ⟨watched, hwatched, hnormal, htarget, hdebounce, -⟩ :=
    tracked.handlers mine handler hhandler
  -- the handler tells about this very database
  rw [found, Option.some.injEq] at hwatched
  subst hwatched
  refine ⟨⟨handler, hhandler, fun event changes => ⟨?_, ?_⟩⟩, ?_, ?_⟩
  · exact fun fresh loaded told =>
      result_deliver tracked order.listeners hnormal changes loaded told
  · exact hindex.deliver_changes order.listeners hhandler htarget hdebounce changes
  · exact fun step still => hindex.hostStep order.listeners hhandler htarget still
  · exact fun next move => hindex.move move

/-- A file with the command for one source. -/
def sampleFile : File :=
  { content := Utf8.encode
      "[\x7b\"directory\": \"/\", \"command\": \"g\", \"file\": \"a\"\x7d]" }

/-- What it holds. -/
def sampleIndex : CommandIndex := [("a", ⟨"/", "a", ["/g"]⟩)]

/-- The event that tells of a change of the file. -/
def sampleChange : FileEvent := ⟨.modified, .text "/c", false⟩

/-- A database is opened, and its file is written. -/
def rewriting : List EngineStep := [.openDatabase "/c", .host (.write "/c" sampleFile)]

/-- The event of the sample changes its file. -/
theorem changes_rewriting : sampleChange.Changes (afterSteps rewriting watchedStage).host "/c" :=
  ⟨rfl, "/c", rfl, rfl⟩

/-- A file that was written is read again when an event says so. -/
theorem index_follows_file_sample :
    HasIndex 0 "/c" [] (afterSteps rewriting watchedStage) ∧
      HasIndex 0 "/c" sampleIndex
        ((afterSteps rewriting watchedStage).after (deliver id sampleChange)) := by
  have hscripted : Scripted EngineStep.Regular watchedStage := nofun
  have hregistered : (afterSteps rewriting watchedStage).Registered 0 := ⟨"/c", by decide +kernel⟩
  have hfound : (afterSteps rewriting watchedStage).database? 0 =
      some { location := "/c", commands := [], attached := true, watched := true } := by
    decide +kernel
  have hloaded : CommandIndex.ofFile (afterSteps rewriting watchedStage).host "/c" =
      .ok sampleIndex := by
    decide +kernel
  -- the clock stands still at zero, where every observer is started
  have helapsed : ∀ listener handler,
      (afterSteps rewriting watchedStage).observers.get? listener = some handler →
        handler.elapsed? (afterSteps rewriting watchedStage).host.now =
          some (.binary (.zero false)) := by
    have hobservers : (afterSteps rewriting watchedStage).observers =
        [(.database 0, { target := "/c" })] := by
      decide +kernel
    intro listener handler hhandler
    have hmem := Table.mem_of_get? hhandler
    rw [hobservers, List.mem_singleton, Prod.mk.injEq] at hmem
    rw [hmem.2]
    decide +kernel
  obtain ⟨hsessions, hscenes⟩ := index_follows_file create_watchedStage hscripted
    (by decide +kernel)
  obtain ⟨-, hmoves⟩ := hsessions.steps rewriting (by decide)
  obtain ⟨⟨handler, hhandler, hfollows⟩, -, -⟩ := hscenes _ hmoves 0 _ hregistered hfound
  obtain ⟨hsucceeds, hindex⟩ := hfollows sampleChange changes_rewriting
  have hdelivered := hsucceeds sampleIndex hloaded fun listener other hother => by
    rw [helapsed listener other hother]
    rfl
  obtain ⟨elapsed, htold, hcommands⟩ := hindex hdelivered
  rw [helapsed _ _ hhandler, Option.some.injEq] at htold
  subst htold
  have hnone : (Number.binary (.zero false)).le (.binary (.zero false)) = true := by decide +kernel
  rw [if_pos hnone] at hcommands
  dsimp only at hcommands
  rw [refreshed_of_ok hloaded] at hcommands
  exact ⟨⟨_, hfound, rfl, rfl⟩, hcommands.1⟩

/-- A database is opened and a change of its file is reported; then the clock is set back, and the
file is written. -/
def settingBack : List EngineStep :=
  [.openDatabase "/c", .host (.setClock (.integer 2)), .host (.event sampleChange),
    .host (.setClock (.integer 1)), .host (.write "/c" sampleFile)]

/-- Not every change of a file is followed: the event is delivered without a failure, but the
commands are not those that the file holds. -/
theorem not_all_changes_are_followed :
    let stage := afterSteps settingBack watchedStage
    stage.Registered 0 ∧ sampleChange.Changes stage.host "/c" ∧
      CommandIndex.ofFile stage.host "/c" = .ok sampleIndex ∧
      stage.result (deliver id sampleChange) = .ok () ∧
      HasIndex 0 "/c" [] (stage.after (deliver id sampleChange)) ∧
      ¬HasIndex 0 "/c" sampleIndex (stage.after (deliver id sampleChange)) := by
  have hfound :
      ((afterSteps settingBack watchedStage).after (deliver id sampleChange)).database? 0 = some
        { location := "/c", commands := [], attached := true, watched := true } := by
    decide +kernel
  refine ⟨⟨"/c", by decide +kernel⟩, ⟨rfl, "/c", rfl, rfl⟩, by decide +kernel, by decide +kernel,
    ⟨_, hfound, rfl, rfl⟩, ?_⟩
  rintro ⟨database, hdatabase, -, hcommands⟩
  rw [hfound, Option.some.injEq] at hdatabase
  subst hdatabase
  cases hcommands

end Scenario

end AsmScope
