import AsmScope.Proofs.Scenes
/-! # The order of the registry

In an engine that watches its databases the keys of the registry are the locations of its databases,
and exactly the registered databases are watched, each by one observer. When databases leave the
registry, their observers are stopped after that, one after the other; `OrderlyBut pending` says
that the order is kept but for those that have yet to be disposed of. Every deed keeps the
order (`Orderly.deed`), and so does everything that happens in a session (`Orderly.moves`). -/

namespace AsmScope

/-- What the registry has to know of a database. -/
def Database.entry (database : Database) : String × Bool × Bool :=
  (database.location, database.attached, database.watched)

namespace Engine

variable {α : Type}

/-- The database is registered, under some key. -/
def Registered (engine : Engine α) (id : DatabaseId) : Prop :=
  ∃ key, engine.registered.get? key = some id

/-- The registry and the observers are in order, but for some databases that are no longer
registered and have yet to be disposed of. -/
structure OrderlyBut (pending : List DatabaseId) (engine : Engine α) : Prop where
  watching : engine.watching = true
  located : ∀ key id, engine.registered.get? key = some id →
    ∃ database, engine.database? id = some database ∧ database.location = key ∧
      database.attached = true
  keys : engine.registered.keys.Nodup
  listeners : engine.observers.keys.Nodup
  gone : ∀ id ∈ pending, ¬engine.Registered id
  watched : ∀ id database, engine.database? id = some database → id ∉ pending →
    (database.watched = true ↔ engine.Registered id)
  observed : ∀ id, id ∉ pending →
    ((engine.observers.get? (.database id)).isSome ↔ engine.Registered id)

/-- The registry and the observers are in order. -/
abbrev Orderly (engine : Engine α) : Prop := OrderlyBut [] engine

/-- Which databases are registered is told by the registry alone. -/
theorem registered_congr {before after : Engine α}
    (registered : after.registered = before.registered) (id : DatabaseId) :
    after.Registered id ↔ before.Registered id := by
  rw [Registered, Registered, registered]

/-! ### Entries -/

/-- A change of a database that the registry need not know leaves what it knows. -/
theorem entries_modifyDatabase (engine : Engine α) (id : DatabaseId) (f : Database → Database)
    (hf : ∀ database, (f database).entry = database.entry) :
    (engine.modifyDatabase id f).databases.map Database.entry =
      engine.databases.map Database.entry := by
  apply List.ext_getElem?
  intro i
  simp only [modifyDatabase, List.getElem?_map, List.getElem?_modify]
  by_cases hi : id = i <;> cases engine.databases[i]? <;> simp [hi, hf]

/-- A database that another engine has the same entries for. -/
theorem exists_of_entries {before after : Engine α}
    (entries : after.databases.map Database.entry = before.databases.map Database.entry)
    {id : DatabaseId} {database : Database} (found : after.database? id = some database) :
    ∃ old, before.database? id = some old ∧ old.entry = database.entry := by
  have hentry : (after.database? id).map Database.entry =
      (before.database? id).map Database.entry := by
    rw [database?, database?, ← List.getElem?_map, ← List.getElem?_map, entries]
  rw [found, Option.map_some] at hentry
  obtain ⟨old, hold, heq⟩ := Option.map_eq_some_iff.1 hentry.symm
  exact ⟨old, hold, heq⟩

/-! ### What is cancelled -/

/-- Cancelling a token leaves the registry and the observers as they are. -/
theorem cancelToken_books (engine : Engine α) (token : TokenId) :
    (engine.cancelToken token).registered = engine.registered ∧
      (engine.cancelToken token).observers = engine.observers ∧
      (engine.cancelToken token).watching = engine.watching := by
  unfold cancelToken
  split <;> exact ⟨rfl, rfl, rfl⟩

/-- Cancelling the run of a database leaves the databases, the registry and the observers as they
are. -/
theorem cancelCompilation_books (engine : Engine α) (id : DatabaseId) :
    (engine.cancelCompilation id).2.databases = engine.databases ∧
      (engine.cancelCompilation id).2.registered = engine.registered ∧
      (engine.cancelCompilation id).2.observers = engine.observers ∧
      (engine.cancelCompilation id).2.watching = engine.watching := by
  unfold cancelCompilation
  split
  · exact ⟨databases_cancelToken _ _, cancelToken_books _ _⟩
  · exact ⟨rfl, rfl, rfl, rfl⟩

/-- Beginning a compilation leaves the registry and the observers as they are. -/
theorem beginCompilation_books (engine : Engine α) (id : DatabaseId) :
    (engine.beginCompilation id).2.registered = engine.registered ∧
      (engine.beginCompilation id).2.observers = engine.observers ∧
      (engine.beginCompilation id).2.watching = engine.watching := by
  simp only [beginCompilation]
  split
  · exact cancelToken_books _ _
  · exact ⟨rfl, rfl, rfl⟩

/-- Disposing of a database does not touch the registry. -/
theorem registered_disposeDatabase (engine : Engine α) (id : DatabaseId) :
    (engine.disposeDatabase id).registered = engine.registered :=
  (cancelCompilation_books engine id).2.1

/-- Disposing of a database stops its observer. -/
theorem observers_disposeDatabase (engine : Engine α) (id : DatabaseId) :
    (engine.disposeDatabase id).observers = engine.observers.erase (.database id) := by
  show (engine.cancelCompilation id).2.observers.erase (.database id) = _
  rw [(cancelCompilation_books engine id).2.2.1]

/-- The database is then no longer watched, and the others are as they were. -/
theorem database?_disposeDatabase (engine : Engine α) (id other : DatabaseId) :
    (engine.disposeDatabase id).database? other =
      if id = other then
        (engine.database? other).map fun database => { database with watched := false }
      else engine.database? other := by
  rw [disposeDatabase, database?_modifyDatabase]
  have hcancelled := database?_cancelCompilation engine id other
  simp only [database?] at hcancelled ⊢
  rw [hcancelled]

/-! ### Order -/

namespace OrderlyBut

variable {before after engine : Engine α} {pending : List DatabaseId} {id : DatabaseId}

/-- What changes no entry, no registration and no observer keeps the order. -/
theorem of_entries (h : OrderlyBut pending before)
    (entries : after.databases.map Database.entry = before.databases.map Database.entry)
    (registered : after.registered = before.registered)
    (observers : after.observers.keys = before.observers.keys)
    (watching : after.watching = before.watching) : OrderlyBut pending after := by
  refine ⟨watching.trans h.watching, ?_, ?_, ?_, ?_, ?_, ?_⟩
  · intro key id hkey
    rw [registered] at hkey
    obtain ⟨old, hold, hlocation, hattached⟩ := h.located key id hkey
    obtain ⟨database, hdatabase, hentry⟩ := exists_of_entries entries.symm hold
    simp only [Database.entry, Prod.mk.injEq] at hentry
    exact ⟨database, hdatabase, hentry.1.trans hlocation, hentry.2.1.trans hattached⟩
  · rw [registered]
    exact h.keys
  · rw [observers]
    exact h.listeners
  · intro id hid
    rw [registered_congr registered]
    exact h.gone id hid
  · intro id database hdatabase hid
    obtain ⟨old, hold, hentry⟩ := exists_of_entries entries hdatabase
    simp only [Database.entry, Prod.mk.injEq] at hentry
    rw [registered_congr registered, ← hentry.2.2]
    exact h.watched id old hold hid
  · intro id hid
    rw [registered_congr registered, ← Table.mem_keys_iff, observers, Table.mem_keys_iff]
    exact h.observed id hid

/-- A database is registered under its location only. -/
theorem location_eq (h : OrderlyBut pending engine) {key : String} {database : Database}
    (registered : engine.registered.get? key = some id)
    (found : engine.database? id = some database) : database.location = key := by
  obtain ⟨other, hother, hlocation, -⟩ := h.located key id registered
  rw [found, Option.some.injEq] at hother
  rw [hother, hlocation]

/-- A database that is not registered may be disposed of. -/
theorem of_gone (h : Orderly engine) (gone : ¬engine.Registered id) : OrderlyBut [id] engine := by
  refine ⟨h.watching, h.located, h.keys, h.listeners, ?_, ?_, ?_⟩
  · intro other hother
    rw [List.mem_singleton.1 hother]
    exact gone
  · exact fun other database hdatabase _ => h.watched other database hdatabase List.not_mem_nil
  · exact fun other _ => h.observed other List.not_mem_nil

/-- **The disposal of a database settles it.** -/
theorem dispose (h : OrderlyBut (id :: pending) engine) :
    OrderlyBut pending (engine.disposeDatabase id) := by
  have hgone := h.gone id List.mem_cons_self
  have hregistered : ∀ other, (engine.disposeDatabase id).Registered other ↔
      engine.Registered other :=
    registered_congr (registered_disposeDatabase engine id)
  refine ⟨?_, ?_, ?_, ?_, ?_, ?_, ?_⟩
  · show (engine.cancelCompilation id).2.watching = true
    rw [(cancelCompilation_books engine id).2.2.2]
    exact h.watching
  -- what is registered still is another database, and that one is untouched
  · intro key other hkey
    rw [registered_disposeDatabase] at hkey
    obtain ⟨database, hdatabase, hentry⟩ := h.located key other hkey
    have hne : id ≠ other := by
      rintro rfl
      exact hgone ⟨key, hkey⟩
    refine ⟨database, ?_, hentry⟩
    rw [database?_disposeDatabase, if_neg hne]
    exact hdatabase
  · rw [registered_disposeDatabase]
    exact h.keys
  · rw [observers_disposeDatabase]
    exact Table.nodup_keys_erase h.listeners _
  · intro other hother
    rw [hregistered]
    exact h.gone other (List.mem_cons_of_mem _ hother)
  -- the disposed one is no longer watched, as it is not registered
  · intro other database hdatabase hother
    rw [hregistered]
    rw [database?_disposeDatabase] at hdatabase
    by_cases hid : id = other
    · subst hid
      rw [if_pos rfl] at hdatabase
      obtain ⟨old, -, rfl⟩ := Option.map_eq_some_iff.1 hdatabase
      simp [hgone]
    · rw [if_neg hid] at hdatabase
      refine h.watched other database hdatabase fun hmem => ?_
      rcases List.mem_cons.1 hmem with rfl | hmem
      · exact hid rfl
      · exact hother hmem
  -- and it has lost its observer
  · intro other hother
    rw [hregistered, observers_disposeDatabase, Table.get?_erase]
    by_cases hid : id = other
    · subst hid
      simp [hgone]
    · have hlistener : ¬Listener.database id = .database other := by
        rintro ⟨⟩
        exact hid rfl
      rw [if_neg hlistener]
      refine h.observed other fun hmem => ?_
      rcases List.mem_cons.1 hmem with rfl | hmem
      · exact hid rfl
      · exact hother hmem

/-- Disposing of all databases that are pending, one after the other, puts everything in order. -/
theorem disposeAll (ids : List DatabaseId) (h : OrderlyBut ids engine) :
    Orderly (ids.foldl disposeDatabase engine) := by
  induction ids generalizing engine with
  | nil => exact h
  | cons id ids ih => exact ih h.dispose

end OrderlyBut

namespace Orderly

variable {before after engine : Engine α} {id : DatabaseId}

/-- Retiring a database keeps the registry and the observers in order. -/
theorem retire (h : Orderly engine) (id : DatabaseId) : Orderly (engine.retire id) := by
  unfold Engine.retire
  cases hdatabase : engine.database? id with
  | none => exact h
  | some database =>
    dsimp only
    by_cases hlocation : engine.registered.get? database.location = some id
    · -- it leaves the registry, and nothing else does
      rw [if_pos hlocation]
      have hkey : ∀ key other,
          (engine.registered.erase database.location).get? key = some other ↔
            database.location ≠ key ∧ engine.registered.get? key = some other := by
        intro key other
        rw [Table.get?_erase]
        by_cases heq : database.location = key <;> simp [heq]
      have hregistered : ∀ other, other ≠ id →
          (Registered { engine with
            registered := engine.registered.erase database.location } other ↔
              engine.Registered other) := by
        intro other hother
        constructor
        · rintro ⟨key, hfound⟩
          exact ⟨key, ((hkey key other).1 hfound).2⟩
        · rintro ⟨key, hfound⟩
          refine ⟨key, (hkey key other).2 ⟨?_, hfound⟩⟩
          rintro rfl
          rw [hlocation, Option.some.injEq] at hfound
          exact hother hfound.symm
      refine OrderlyBut.dispose ⟨h.watching, ?_, ?_, h.listeners, ?_, ?_, ?_⟩
      · intro key other hfound
        exact h.located key other ((hkey key other).1 hfound).2
      · exact Table.nodup_keys_erase h.keys _
      · intro other hother
        rw [List.mem_singleton.1 hother]
        rintro ⟨key, hfound⟩
        obtain ⟨hne, hold⟩ := (hkey key id).1 hfound
        exact hne (h.location_eq hold hdatabase)
      · intro other found hfound hother
        rw [hregistered other fun heq => hother (List.mem_singleton.2 heq)]
        exact h.watched other found hfound List.not_mem_nil
      · intro other hother
        rw [hregistered other fun heq => hother (List.mem_singleton.2 heq)]
        exact h.observed other List.not_mem_nil
    · -- it was registered under its location if at all
      rw [if_neg hlocation]
      refine OrderlyBut.dispose (h.of_gone ?_)
      rintro ⟨key, hkey⟩
      rw [h.location_eq hkey hdatabase] at hlocation
      exact hlocation hkey

/-- Closing all databases keeps the registry and the observers in order. -/
theorem closeAll (h : Orderly engine) : Orderly engine.closeAll := by
  -- all that were registered have yet to be disposed of
  have hpending : ∀ id, engine.Registered id → id ∈ engine.registered.map Prod.snd := by
    rintro id ⟨key, hkey⟩
    exact List.mem_map.2 ⟨_, Table.mem_of_get? hkey, rfl⟩
  have hnone : ∀ id, ¬Registered { engine with registered := [] } id := by
    rintro id ⟨key, hkey⟩
    cases hkey
  refine OrderlyBut.disposeAll _
    ⟨h.watching, ?_, List.nodup_nil, h.listeners, fun id _ => hnone id, ?_, ?_⟩
  · intro key id hkey
    cases hkey
  · intro id database hdatabase hid
    have hold := h.watched id database hdatabase List.not_mem_nil
    exact ⟨fun hwatched => absurd (hpending id (hold.1 hwatched)) hid,
      fun hregistered => absurd hregistered (hnone id)⟩
  · intro id hid
    have hold := h.observed id List.not_mem_nil
    exact ⟨fun hobserved => absurd (hpending id (hold.1 hobserved)) hid,
      fun hregistered => absurd hregistered (hnone id)⟩

/-- A number that no database has is not registered. -/
theorem not_registered_length (h : Orderly engine) :
    ¬engine.Registered engine.databases.length := by
  rintro ⟨key, hkey⟩
  obtain ⟨database, hdatabase, -⟩ := h.located key _ hkey
  have hbound := (isSome_database?_iff engine _).1 (Option.isSome_iff_exists.2 ⟨_, hdatabase⟩)
  exact Nat.lt_irrefl _ hbound

/-- A new database is the one that was added, and the others are those that were there. -/
theorem eq_or_of_append {database found : Database}
    (h : (engine.databases ++ [database])[id]? = some found) :
    (id = engine.databases.length ∧ found = database) ∨ engine.database? id = some found := by
  rcases Nat.lt_trichotomy id engine.databases.length with hold | rfl | hnone
  · rw [List.getElem?_append_left hold] at h
    exact .inr h
  · rw [List.getElem?_concat_length] at h
    exact .inl ⟨rfl, (Option.some.inj h).symm⟩
  · rw [List.getElem?_eq_none (by rw [List.length_append]; exact hnone)] at h
    cases h

/-- A database that was there is still there when another one is added. -/
theorem found_of_append {database found : Database} (h : engine.database? id = some found) :
    (engine.databases ++ [database])[id]? = some found := by
  have hbound := (isSome_database?_iff engine id).1 (Option.isSome_iff_exists.2 ⟨found, h⟩)
  rw [List.getElem?_append_left hbound]
  exact h

/-- A database that is added outside of the registry keeps it in order. -/
theorem added (h : Orderly engine) (location : String) (commands : CommandIndex)
    (attached : Bool) : Orderly (engine.addDatabase { location, commands, attached }) := by
  refine ⟨h.watching, ?_, h.keys, h.listeners, h.gone, ?_, h.observed⟩
  · intro key id hkey
    obtain ⟨database, hdatabase, hentry⟩ := h.located key id hkey
    exact ⟨database, found_of_append hdatabase, hentry⟩
  · intro id database hdatabase _
    rcases eq_or_of_append hdatabase with ⟨rfl, rfl⟩ | hold
    · exact ⟨nofun, fun hregistered => absurd hregistered h.not_registered_length⟩
    · exact h.watched id database hold List.not_mem_nil

/-- **A database that enters is watched under its location.** -/
theorem entered (h : Orderly engine) {path : String} (new : engine.registered.get? path = none)
    (commands : CommandIndex) : Orderly (engine.enter path commands) := by
  have hkey : ∀ key id, (engine.registered.put path engine.databases.length).get? key = some id ↔
      path = key ∧ id = engine.databases.length ∨ engine.registered.get? key = some id := by
    intro key id
    rw [Table.get?_put]
    by_cases heq : path = key
    · subst heq
      simp [new, eq_comm]
    · simp [heq]
  -- the new database is registered, and all that were
  have hregistered : ∀ id, (engine.enter path commands).Registered id ↔
      id = engine.databases.length ∨ engine.Registered id := by
    intro id
    constructor
    · rintro ⟨key, hfound⟩
      rcases (hkey key id).1 hfound with ⟨-, heq⟩ | hold
      · exact .inl heq
      · exact .inr ⟨key, hold⟩
    · rintro (rfl | ⟨key, hold⟩)
      · exact ⟨path, (hkey path _).2 (.inl ⟨rfl, rfl⟩)⟩
      · exact ⟨key, (hkey key id).2 (.inr hold)⟩
  have hwatching := h.watching
  refine ⟨hwatching, ?_, ?_, ?_, fun _ hid => absurd hid List.not_mem_nil, ?_, ?_⟩
  · intro key id hfound
    rcases (hkey key id).1 hfound with ⟨rfl, rfl⟩ | hold
    · exact ⟨_, List.getElem?_concat_length, rfl, rfl⟩
    · obtain ⟨database, hdatabase, hentry⟩ := h.located key id hold
      exact ⟨database, found_of_append hdatabase, hentry⟩
  · exact Table.nodup_keys_put h.keys _ _
  · simp only [enter, hwatching, if_true]
    exact Table.nodup_keys_put h.listeners _ _
  · intro id database hdatabase _
    rw [hregistered]
    rcases eq_or_of_append hdatabase with ⟨rfl, rfl⟩ | hold
    · simp [hwatching]
    · have hbound := (isSome_database?_iff engine id).1
        (Option.isSome_iff_exists.2 ⟨database, hold⟩)
      have hne : id ≠ engine.databases.length := Nat.ne_of_lt hbound
      simp only [hne, false_or]
      exact h.watched id database hold List.not_mem_nil
  · intro id _
    rw [hregistered]
    simp only [enter, hwatching, if_true, Table.get?_put, Listener.database.injEq]
    by_cases hid : engine.databases.length = id
    · subst hid
      simp
    · have hne : id ≠ engine.databases.length := fun heq => hid heq.symm
      simp only [hid, if_false, hne, false_or]
      exact h.observed id List.not_mem_nil

/-- **Every deed keeps the order.** -/
theorem deed {who : DatabaseId → Prop} (deed : Deed who before after) (h : Orderly before) :
    Orderly after := by
  cases deed with
  | aside same =>
    exact h.of_entries (by rw [same.databases]) same.registered (by rw [same.observers])
      same.watching
  | added location commands attached => exact h.added location commands attached
  | entered location commands new => exact h.entered new commands
  | reloaded mine commands =>
    exact h.of_entries (entries_modifyDatabase _ _ _ fun _ => rfl) rfl rfl rfl
  | @noted listener handler mine found =>
    refine h.of_entries rfl rfl ?_ rfl
    -- the observer was there
    have hmem : listener ∈ before.observers.keys := by
      rw [Table.mem_keys_iff, found]
      rfl
    rw [Table.keys_put, if_pos hmem]
  | @cancelled id mine =>
    obtain ⟨hdatabases, hregistered, hobservers, hwatching⟩ := cancelCompilation_books before id
    exact h.of_entries (by rw [hdatabases]) hregistered (by rw [hobservers]) hwatching
  | @retired id mine => exact h.retire id
  | @disposed id mine bare =>
    -- what is registered is in the registry's care
    refine OrderlyBut.dispose (h.of_gone ?_)
    rintro ⟨key, hkey⟩
    obtain ⟨database, hdatabase, -, hattached⟩ := h.located key id hkey
    rw [hdatabase, Option.any_some, hattached] at bare
    cases bare
  | closed => exact h.closeAll

/-- **Whatever happens in a session keeps the order.** -/
theorem move {scene next : Scene α} (move : Move scene next) (h : Orderly scene.engine) :
    Orderly next.engine := by
  cases move with
  | deed deed => exact h.deed deed
  | elsewhere same =>
    exact h.of_entries (by rw [same.databases]) same.registered (by rw [same.observers])
      same.watching
  | @begun engine flights id there =>
    obtain ⟨hregistered, hobservers, hwatching⟩ := beginCompilation_books engine id
    refine h.of_entries ?_ hregistered (by rw [hobservers]) hwatching
    rw [databases_beginCompilation]
    exact entries_modifyDatabase engine id _ fun _ => rfl
  | @ended engine flights flight ending =>
    refine h.of_entries (entries_modifyDatabase engine flight.database _ fun database => ?_) rfl
      rfl rfl
    split <;> rfl

/-- In a session the registry and the observers are in order at every moment. -/
theorem moves {scene next : Scene α} (moves : Moves scene next) (h : Orderly scene.engine) :
    Orderly next.engine :=
  moves.invariant (fun _ _ move h => Orderly.move move h) h

/-- A fresh engine that watches its databases is in order. -/
theorem of_fresh (h : Fresh true engine) : Orderly engine := by
  have hnobody : ∀ key, engine.registered.get? key = none := by
    intro key
    rw [h.registered]
    rfl
  refine ⟨h.watching, ?_, ?_, ?_, fun _ hid => absurd hid List.not_mem_nil, ?_, ?_⟩
  · intro key id hkey
    rw [hnobody] at hkey
    cases hkey
  · rw [h.registered]
    exact List.nodup_nil
  · rw [h.observers]
    exact List.nodup_nil
  · intro id database hdatabase
    rw [database?, h.databases] at hdatabase
    cases hdatabase
  · intro id _
    simp [Registered, hnobody, h.observers]

end Orderly

end Engine

end AsmScope
