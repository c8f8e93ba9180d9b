import AsmScope.Proofs.Registrations
import AsmScope.Proofs.SingleFlight
/-! # The lifecycle of databases

A database enters the registry once, and once it has left it never comes back
(`Departed.moves`). When it leaves, what is in its slot is cancelled (`Deed.cancels`), so the runs
that are in progress for it then are cancelled (`cancelled_of_leaves`). What is done about it later
concerns nobody else (`leavesOthers_retire`). -/

namespace AsmScope

namespace Engine

variable {α : Type}

/-! ### What stays in a session -/

/-- No database and no token goes, and what is cancelled stays so. -/
structure Lasts (before after : Engine α) : Prop where
  databases : before.databases.length ≤ after.databases.length
  tokens : before.tokens.length ≤ after.tokens.length
  cancelled : ∀ token, before.isCancelled token → after.isCancelled token

instance : IsPreorder (Engine α) Lasts where
  refl _ := ⟨Nat.le_refl _, Nat.le_refl _, fun _ h => h⟩
  trans _ _ _ hab hbc := ⟨Nat.le_trans hab.databases hbc.databases,
    Nat.le_trans hab.tokens hbc.tokens, fun token h => hbc.cancelled token (hab.cancelled token h)⟩

/-- A calm change loses nothing: no database, no token and no cancellation. -/
theorem lasts_calm (before after : Engine α) (calm : Calm before after) : Lasts before after := by
  cases calm with
  | elsewhere same =>
    have hlength := congrArg List.length same.active
    rw [List.length_map, List.length_map] at hlength
    refine ⟨Nat.le_of_eq hlength.symm, Nat.le_of_eq (by rw [same.tokens]), fun token h => ?_⟩
    rwa [isCancelled, same.tokens]
  | opened database idle =>
    refine ⟨?_, Nat.le_refl _, fun _ h => h⟩
    rw [addDatabase, List.length_append]
    exact Nat.le_add_right _ _
  | cancelled token =>
    refine ⟨Nat.le_of_eq ?_, Nat.le_of_eq (length_cancelToken before token).symm,
      fun _ h => isCancelled_of_cancelToken token h⟩
    rw [databases_cancelToken]

/-- A deed loses no database, no token and no cancellation. -/
theorem lasts_deed {who : DatabaseId → Prop} {before after : Engine α}
    (deed : Deed who before after) : Lasts before after :=
  respects_deed lasts_calm before after deed

/-- Nothing that happens in a session with one run for each database at most loses anything. -/
theorem lasts_move {scene next : Scene α} (move : Move scene next) (one : OneEach scene) :
    Lasts scene.engine next.engine := by
  cases move with
  | deed deed => exact lasts_deed deed
  | elsewhere same =>
    have hlength := congrArg List.length same.cancelled
    rw [List.length_map, List.length_map] at hlength
    refine ⟨Nat.le_of_eq (by rw [same.databases]), Nat.le_of_eq hlength.symm, fun token h => ?_⟩
    rwa [isCancelled_congr same.cancelled]
  -- a begin adds a token and cancels one at most
  | @begun engine flights id there =>
    refine ⟨Nat.le_of_eq ?_, ?_,
      fun token h => (isCancelled_beginCompilation one.slotsMade id token).2 (.inl h)⟩
    · rw [databases_beginCompilation, List.length_modify]
    · rw [length_beginCompilation]
      exact Nat.le_succ _
  | @ended engine flights flight ending =>
    refine ⟨?_, Nat.le_of_eq (length_endCompilation _ _ _).symm, fun token h => ?_⟩
    · simp [endCompilation, modifyDatabase]
    · rwa [isCancelled_endCompilation]

/-- Nothing is lost in a session, however long it goes on. -/
theorem lasts_moves {scene later : Scene α} (moves : Moves scene later) (one : OneEach scene) :
    Lasts scene.engine later.engine := by
  induction moves with
  | refl => exact Std.Refl.refl _
  | tail earlier step ih => exact IsTrans.trans _ _ _ ih (lasts_move step (one.moves earlier))

/-! ### Leaving the registry -/

/-- Disposing of databases one after the other cancels what is in their slots. -/
theorem cancelled_foldl_dispose {ids : List DatabaseId} {engine : Engine α}
    (made : engine.SlotsMade) {id : DatabaseId} (mem : id ∈ ids) {token : TokenId}
    (slot : engine.slot id = some token) :
    (ids.foldl disposeDatabase engine).isCancelled token := by
  induction ids generalizing engine with
  | nil => cases mem
  | cons first ids ih =>
    have hmade : (engine.disposeDatabase first).SlotsMade := by
      intro other found hslot
      rw [slot_disposeDatabase] at hslot
      rw [length_disposeDatabase]
      exact made other found hslot
    rcases List.mem_cons.1 mem with rfl | hrest
    · have hfirst := (isCancelled_disposeDatabase made id token).2 (.inr slot)
      -- the others are disposed of later, and it stays cancelled
      have hlasts : Lasts (engine.disposeDatabase id) (ids.foldl disposeDatabase _) :=
        relates_foldl_dispose (respects_disposeDatabase lasts_calm) ids _
      exact hlasts.cancelled token hfirst
    · exact ih hmade hrest (by rw [slot_disposeDatabase]; exact slot)

/-- Disposing of databases does not touch the registry. -/
theorem registered_foldl_dispose (ids : List DatabaseId) (engine : Engine α) :
    (ids.foldl disposeDatabase engine).registered = engine.registered := by
  have hdispose : ∀ (later : Engine α) (id : DatabaseId),
      Maintains (fun later => later.registered = engine.registered) later
        (later.disposeDatabase id) :=
    fun later id h => (registered_disposeDatabase later id).trans h
  exact relates_foldl_dispose hdispose ids engine rfl

/-- Retiring a database takes its location out of the registry if it is the one registered there. -/
theorem registered_retire (engine : Engine α) (id : DatabaseId) :
    (engine.retire id).registered =
      match engine.database? id with
      | none => engine.registered
      | some database =>
        if engine.registered.get? database.location = some id then
          engine.registered.erase database.location
        else engine.registered := by
  unfold retire
  cases engine.database? id with
  | none => rfl
  | some database =>
    dsimp only
    rw [registered_disposeDatabase]
    split <;> rfl

/-- A retirement registers nobody. -/
theorem registered_of_retire {engine : Engine α} {id other : DatabaseId} {key : String}
    (h : (engine.retire id).registered.get? key = some other) :
    engine.registered.get? key = some other := by
  rw [registered_retire] at h
  cases hdatabase : engine.database? id with
  | none =>
    rw [hdatabase] at h
    exact h
  | some database =>
    rw [hdatabase] at h
    dsimp only at h
    split at h
    · rw [Table.get?_erase] at h
      split at h
      · cases h
      · exact h
    · exact h

/-- A retirement takes nobody else out of the registry. -/
theorem registered_retire_of_ne {engine : Engine α} {id other : DatabaseId} {key : String}
    (h : engine.registered.get? key = some other) (ne : other ≠ id) :
    (engine.retire id).registered.get? key = some other := by
  rw [registered_retire]
  cases hdatabase : engine.database? id with
  | none => exact h
  | some database =>
    dsimp only
    split
    · next hid =>
      -- what is erased is registered for the retired database
      have hkey : ¬database.location = key := by
        rintro rfl
        rw [h, Option.some.injEq] at hid
        exact ne hid
      rw [Table.get?_erase, if_neg hkey]
      exact h
    · exact h

/-- **A deed by which a database leaves the registry cancels what is in its slot.** -/
theorem Deed.cancels {who : DatabaseId → Prop} {before after : Engine α}
    (deed : Deed who before after) (order : Orderly before) (made : before.SlotsMade)
    {id : DatabaseId} (was : before.Registered id) (left : ¬after.Registered id) {token : TokenId}
    (slot : before.slot id = some token) : after.isCancelled token := by
  obtain ⟨key, hkey⟩ := was
  have hstill : after.registered = before.registered → after.isCancelled token := by
    intro hregistered
    exact absurd ⟨key, by rw [hregistered]; exact hkey⟩ left
  cases deed with
  | aside same => exact hstill same.registered
  | added | reloaded | noted => exact hstill rfl
  | entered location commands new =>
    refine absurd ⟨key, ?_⟩ left
    have hne : ¬before.host.absolute location = key := by
      rintro rfl
      rw [new] at hkey
      cases hkey
    simp only [enter, Table.get?_put, if_neg hne]
    exact hkey
  | cancelled => exact hstill (cancelCompilation_books before _).2.1
  | disposed => exact hstill (registered_disposeDatabase before _)
  | @retired other mine =>
    by_cases hid : other = id
    · -- it is the one that is retired
      subst hid
      obtain ⟨database, hdatabase, -⟩ := order.located key other hkey
      have hcancel : ∀ engine : Engine α, engine.SlotsMade → engine.slot other = some token →
          (engine.disposeDatabase other).isCancelled token :=
        fun engine hmade hslot => (isCancelled_disposeDatabase hmade other token).2 (.inr hslot)
      unfold retire
      rw [hdatabase]
      dsimp only
      split
      · exact hcancel _ made slot
      · exact hcancel _ made slot
    · exact absurd ⟨key, registered_retire_of_ne hkey fun heq => hid heq.symm⟩ left
  | closed =>
    have hmem : id ∈ before.registered.map Prod.snd :=
      List.mem_map.2 ⟨_, Table.mem_of_get? hkey, rfl⟩
    have hmade : SlotsMade { before with registered := [] } := made
    exact cancelled_foldl_dispose hmade hmem slot

/-- A database that was registered, or might have been, and is not. -/
structure Departed (engine : Engine α) (id : DatabaseId) : Prop where
  there : id < engine.databases.length
  gone : ¬engine.Registered id

namespace Departed

variable {id : DatabaseId}

/-- A database that has left the registry does not come back by any deed. -/
theorem deed {who : DatabaseId → Prop} {before after : Engine α} (deed : Deed who before after)
    (h : Departed before id) : Departed after id := by
  refine ⟨Nat.lt_of_lt_of_le h.there (lasts_deed deed).databases, ?_⟩
  have hstill : after.registered = before.registered → ¬after.Registered id := by
    intro hregistered
    rw [registered_congr hregistered]
    exact h.gone
  cases deed with
  | aside same => exact hstill same.registered
  | added | reloaded | noted => exact hstill rfl
  | cancelled => exact hstill (cancelCompilation_books before _).2.1
  | disposed => exact hstill (registered_disposeDatabase before _)
  | entered location commands =>
    -- only the new database enters
    rintro ⟨key, hkey⟩
    simp only [enter, Table.get?_put] at hkey
    split at hkey
    · cases hkey
      exact Nat.lt_irrefl _ h.there
    · exact h.gone ⟨key, hkey⟩
  | @retired other mine =>
    rintro ⟨key, hkey⟩
    exact h.gone ⟨key, registered_of_retire hkey⟩
  | closed =>
    rintro ⟨key, hkey⟩
    rw [closeAll, registered_foldl_dispose] at hkey
    cases hkey

/-- **A database that is not registered never is again.** -/
theorem moves {scene later : Scene α} (moves : Moves scene later) (one : OneEach scene)
    (h : Departed scene.engine id) : Departed later.engine id := by
  induction moves with
  | refl => exact h
  | tail earlier step ih =>
    have hlasts := lasts_move step (one.moves earlier)
    refine ⟨Nat.lt_of_lt_of_le ih.there hlasts.databases, ?_⟩
    cases step with
    | deed deed => exact (ih.deed deed).gone
    | elsewhere same =>
      rw [registered_congr same.registered]
      exact ih.gone
    | begun =>
      rw [registered_congr (beginCompilation_books _ _).1]
      exact ih.gone
    | ended => exact ih.gone

end Departed

/-- **A run that is in progress while its database leaves the registry is cancelled.** -/
theorem cancelled_of_leaves {scene later : Scene α} (moves : Moves scene later)
    (order : Orderly scene.engine) (one : OneEach scene) {flight : Flight}
    (going : flight ∈ scene.flights) (was : scene.engine.Registered flight.database)
    (still : flight ∈ later.flights) (left : ¬later.engine.Registered flight.database) :
    later.engine.isCancelled flight.token := by
  -- While the database is registered nothing needs to be shown, and a run that is in progress stays
  -- so until it ends.
  have hbound := one.made flight going
  induction moves with
  | refl => exact absurd was left
  | @tail between last earlier step ih =>
    have hone := one.moves earlier
    have hlasts := lasts_move step hone
    have hstill : flight ∈ between.flights := by
      cases step with
      | deed | elsewhere => exact still
      | begun =>
        rcases List.mem_cons.1 still with heq | hold
        · -- the run that begins has a new token
          rw [heq, fst_beginCompilation] at hbound
          exact absurd (lasts_moves earlier one).tokens (Nat.not_le.2 hbound)
        · exact hold
      | ended => exact List.mem_of_mem_erase still
    by_cases hregistered : between.engine.Registered flight.database
    · -- this is the move by which it leaves: a deed, and it cancels what is in the slot
      rcases hone.guarded flight hstill with hslot | hcancelled
      · cases step with
        | deed deed =>
          exact deed.cancels (order.moves earlier) hone.slotsMade hregistered left hslot
        | elsewhere same =>
          rw [registered_congr same.registered] at left
          exact absurd hregistered left
        | begun =>
          rw [registered_congr (beginCompilation_books _ _).1] at left
          exact absurd hregistered left
        | ended => exact absurd hregistered left
      · exact hlasts.cancelled _ hcancelled
    · exact hlasts.cancelled _ (ih hstill hregistered)

/-! ### After that -/

/-- The registry, the observers and the other databases are as before, with their runs in progress:
no token but the one in the slot of this database has changed, nor has any process that it does not
guard. -/
structure LeavesOthers (id : DatabaseId) (before after : Engine α) : Prop where
  registered : after.registered = before.registered
  observers : after.observers = before.observers
  databases : ∀ other, other ≠ id → after.database? other = before.database? other
  tokens : ∀ token : TokenId, before.slot id ≠ some token →
    after.tokens[token]? = before.tokens[token]?
  processes : ∀ pid, (∀ token, before.slot id = some token → ¬before.Guards token pid) →
    after.host.process? pid = before.host.process? pid

/-- Cancelling a token leaves every other token as it is. -/
theorem tokens_cancelToken_of_ne (engine : Engine α) {token other : TokenId} (ne : token ≠ other) :
    (engine.cancelToken token).tokens[other]? = engine.tokens[other]? := by
  unfold cancelToken
  split
  · rfl
  · exact List.getElem?_set_ne ne

/-- A cancellation leaves the processes that the token does not guard alone. -/
theorem process?_cancelToken {engine : Engine α} {token : TokenId} {pid : ProcessId}
    (free : ¬engine.Guards token pid) :
    (engine.cancelToken token).host.process? pid = engine.host.process? pid := by
  unfold cancelToken
  cases hfound : engine.tokens[token]? with
  | none => rfl
  | some state =>
    rcases Host.process?_foldl_killRun engine.host state.cancel.2 pid with
      hsame | ⟨-, run, hrun, hpid⟩
    · exact hsame
    · exact absurd ⟨state, hfound, run, state.handed_cancel hrun, hpid⟩ free

/-- Doing nothing leaves the others alone. -/
theorem leavesOthers_refl (id : DatabaseId) (engine : Engine α) : LeavesOthers id engine engine :=
  ⟨rfl, rfl, fun _ _ => rfl, fun _ _ => rfl, fun _ _ => rfl⟩

/-- The disposal of a database that has left the registry disturbs nobody. -/
theorem leavesOthers_dispose {engine : Engine α} (order : Orderly engine) {id : DatabaseId}
    (gone : ¬engine.Registered id) : LeavesOthers id engine (engine.disposeDatabase id) := by
  have hcancel : (engine.cancelCompilation id).2 = engine ∨
      ∃ token, engine.slot id = some token ∧
        (engine.cancelCompilation id).2 = engine.cancelToken token := by
    cases hslot : engine.slot id with
    | none => exact .inl (congrArg Prod.snd (cancelCompilation_of_none hslot))
    | some token => exact .inr ⟨token, rfl, congrArg Prod.snd (cancelCompilation_of_some hslot)⟩
  refine ⟨registered_disposeDatabase engine id, ?_, ?_, ?_, ?_⟩
  · -- its observer was stopped when it left
    rw [observers_disposeDatabase]
    refine Table.erase_of_get?_eq_none ?_
    rw [← Option.not_isSome_iff_eq_none, order.observed id List.not_mem_nil]
    exact gone
  · intro other hother
    rw [database?_disposeDatabase, if_neg fun heq => hother heq.symm]
  · intro token hslot
    show (engine.cancelCompilation id).2.tokens[token]? = engine.tokens[token]?
    rcases hcancel with heq | ⟨own, hown, heq⟩
    · rw [heq]
    · rw [heq]
      refine tokens_cancelToken_of_ne engine ?_
      rintro rfl
      exact hslot hown
  · intro pid hfree
    show (engine.cancelCompilation id).2.host.process? pid = engine.host.process? pid
    rcases hcancel with heq | ⟨own, hown, heq⟩
    · rw [heq]
    · rw [heq]
      exact process?_cancelToken (hfree own hown)

/-- Retiring a database leaves the others alone, however often it is retired. -/
theorem leavesOthers_retire {engine : Engine α} (order : Orderly engine) {id : DatabaseId}
    (gone : ¬engine.Registered id) : LeavesOthers id engine (engine.retire id) := by
  unfold retire
  cases engine.database? id with
  | none => exact leavesOthers_refl id engine
  | some database =>
    dsimp only
    rw [if_neg fun hregistered => gone ⟨_, hregistered⟩]
    exact leavesOthers_dispose order gone

/-- A late signal that the file of a database was deleted leaves the others alone. -/
theorem leavesOthers_databaseDeleted {engine : Engine α} (order : Orderly engine) {id : DatabaseId}
    (gone : ¬engine.Registered id) (path : String) :
    LeavesOthers id engine (engine.databaseDeleted id path) := by
  have horder : Orderly (engine.log .info "database" ("Compilation database deleted: " ++ path)) :=
    order.of_entries rfl rfl rfl rfl
  have hlogged : ∀ later, LeavesOthers id
      (engine.log .info "database" ("Compilation database deleted: " ++ path)) later →
        LeavesOthers id engine later :=
    fun _ h => ⟨h.registered, h.observers, h.databases, h.tokens, h.processes⟩
  simp only [databaseDeleted]
  split
  · exact hlogged _ (leavesOthers_retire horder gone)
  · exact hlogged _ (leavesOthers_dispose horder gone)

/-- **An opening that fails** leaves the registry and the observers as they are. -/
theorem openOrGet_of_error {engine : Engine α} {location : String} {failure : Failure}
    (h : engine.result (openOrGet location) = .error failure) :
    (engine.after (openOrGet location)).registered = engine.registered ∧
      (engine.after (openOrGet location)).observers = engine.observers := by
  have hopening := opening_openOrGet engine location
  rw [h] at hopening
  generalize engine.after (openOrGet location) = later at hopening ⊢
  cases hopening with
  | notLoaded same => exact ⟨same.registered, same.observers⟩
  | notWatched same => exact ⟨same.registered, same.observers⟩

end Engine

namespace Scenario

open Engine

/-- **The lifecycle of databases.** In a session on a fresh engine that watches its databases, with
all that scripts do while runs are in progress: each key of the registry is the location of its
database, so that there is one database for a location at most; exactly the registered databases
have an observer, and one each; an opening that fails leaves the registry and the observers as they
are. A database that has left the registry is not watched and never registered again; every run that
was in progress for it when it left is cancelled and stays so; and whether it is retired again or a
deletion of its file is reported late, this changes neither the registry nor the observers, nor any
other database, its runs and their processes. -/
theorem registry_lifecycle {host : Host} {workspace : String} {sink : Sink} {front : Ledger}
    {start : Stage} (created : (create host workspace sink true front).1 = .ok start)
    (scripted : Scripted EngineStep.Regular start) :
    CoversSessions start ∧ ∀ scene, Moves ⟨start, []⟩ scene →
      (∀ key id, scene.engine.registered.get? key = some id →
        ∃ database, scene.engine.database? id = some database ∧ database.location = key) ∧
      scene.engine.registered.keys.Nodup ∧
      (∀ id, .database id ∈ scene.engine.observers.keys ↔ scene.engine.Registered id) ∧
      scene.engine.observers.keys.Nodup ∧
      (∀ location failure, scene.engine.result (openOrGet location) = .error failure →
        (scene.engine.after (openOrGet location)).registered = scene.engine.registered ∧
          (scene.engine.after (openOrGet location)).observers = scene.engine.observers) ∧
      ∀ id, scene.engine.Registered id → ∀ later, Moves scene later → ¬later.engine.Registered id →
        (∃ database, later.engine.database? id = some database ∧ database.watched = false) ∧
        .database id ∉ later.engine.observers.keys ∧
        (∀ last, Moves later last → ¬last.engine.Registered id ∧
          ∀ flight ∈ scene.flights, flight ∈ later.flights → flight.database = id →
            last.engine.isCancelled flight.token = true) ∧
        LeavesOthers id later.engine (later.engine.retire id) ∧
        ∀ path, LeavesOthers id later.engine (later.engine.databaseDeleted id path) := by
  -- both invariants hold at the start and after any moves
  have horder : Orderly start := .of_fresh (fresh_of_create created)
  have hone : OneEach ⟨start, []⟩ := .of_fresh (fresh_of_create created)
  refine ⟨coversSessions scripted, fun scene moves => ?_⟩
  have order := Orderly.moves moves horder
  have one := hone.moves moves
  have observed : ∀ id, .database id ∈ scene.engine.observers.keys ↔
      scene.engine.Registered id := by
    intro id
    rw [Table.mem_keys_iff]
    exact order.observed id List.not_mem_nil
  refine ⟨?_, order.keys, observed, order.listeners, fun _ _ h => openOrGet_of_error h, ?_⟩
  · intro key id hkey
    obtain ⟨database, hdatabase, hlocation, -⟩ := order.located key id hkey
    exact ⟨database, hdatabase, hlocation⟩
  · intro id was later between left
    have horder' := Orderly.moves between order
    have hone' := one.moves between
    -- a database that was registered and is no longer has departed for good
    have hdeparted : Departed later.engine id := by
      obtain ⟨key, hkey⟩ := was
      obtain ⟨database, hdatabase, -⟩ := order.located key id hkey
      have hbound := (isSome_database?_iff scene.engine id).1
        (Option.isSome_iff_exists.2 ⟨database, hdatabase⟩)
      exact ⟨Nat.lt_of_lt_of_le hbound (lasts_moves between one).databases, left⟩
    refine ⟨?_, ?_, fun last after => ⟨?_, ?_⟩, leavesOthers_retire horder' left,
      leavesOthers_databaseDeleted horder' left⟩
    · obtain ⟨database, hdatabase⟩ := Option.isSome_iff_exists.1
        ((isSome_database?_iff later.engine id).2 hdeparted.there)
      refine ⟨database, hdatabase, Bool.eq_false_iff.2 fun hwatched => left ?_⟩
      exact (horder'.watched id database hdatabase List.not_mem_nil).1 hwatched
    · rw [Table.mem_keys_iff, horder'.observed id List.not_mem_nil]
      exact left
    · exact (Departed.moves after hone' hdeparted).gone
    · rintro flight going still rfl
      have hcancelled := cancelled_of_leaves between order one going was still left
      exact (lasts_moves after hone').cancelled _ hcancelled

/-- A machine with an empty compile-commands file. -/
def indexedHost : Host := { tree := ⟨[([['c']], .file { content := [91, 93] })], []⟩ }

/-- A fresh engine on it that watches its databases. -/
def watchedStage : Stage :=
  match (create indexedHost "/" (.buffer {}) true ({} : Ledger)).1 with
  | .ok stage => stage
  | .error _ => sampleStage

/-- The sample engine is made on its machine. -/
theorem create_watchedStage :
    (create indexedHost "/" (.buffer {}) true ({} : Ledger)).1 = .ok watchedStage := rfl

/-- The database of the sample is opened and retired; retiring it again disturbs nobody. -/
theorem registry_lifecycle_sample :
    (afterSteps [.openDatabase "/c"] watchedStage).Registered 0 ∧
      .database 0 ∉ (afterSteps [.openDatabase "/c", .retire 0] watchedStage).observers.keys ∧
      LeavesOthers 0 (afterSteps [.openDatabase "/c", .retire 0] watchedStage)
        ((afterSteps [.openDatabase "/c", .retire 0] watchedStage).retire 0) := by
  have hscripted : Scripted EngineStep.Regular watchedStage := nofun
  have hwas : (afterSteps [.openDatabase "/c"] watchedStage).Registered 0 :=
    ⟨"/c", by decide +kernel⟩
  have hleft : ¬(afterSteps [.openDatabase "/c", .retire 0] watchedStage).Registered 0 := by
    have hempty : (afterSteps [.openDatabase "/c", .retire 0] watchedStage).registered = [] := by
      decide +kernel
    rintro ⟨key, hkey⟩
    rw [hempty] at hkey
    cases hkey
  obtain ⟨hsessions, hscenes⟩ := registry_lifecycle create_watchedStage hscripted
  obtain ⟨hlater, hopened⟩ := hsessions.steps [.openDatabase "/c"] (by decide)
  have hretire : ∀ step ∈ [EngineStep.retire 0], step.Regular := by decide
  have hbetween := (moves_afterSteps hlater hretire []).2
  obtain ⟨-, -, -, -, -, hleaves⟩ := hscenes _ hopened
  obtain ⟨-, hunobserved, -, hretired, -⟩ := hleaves 0 hwas _ hbetween hleft
  exact ⟨hwas, hunobserved, hretired⟩

end Scenario

end AsmScope
