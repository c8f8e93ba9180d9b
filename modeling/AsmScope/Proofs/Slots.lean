import AsmScope.Proofs.Reachability
/-! # Slots

The slot of a database holds the token of the run in progress. What each operation does to slots,
and which tokens it cancels. -/

namespace AsmScope

namespace Engine

variable {α : Type}

/-- The token of the run in progress of a database. -/
def slot (engine : Engine α) (id : DatabaseId) : Option TokenId :=
  (engine.database? id).bind fun database => database.active

/-- What is in a slot was made. -/
def SlotsMade (engine : Engine α) : Prop :=
  ∀ id token, engine.slot id = some token → token < engine.tokens.length

/-! ### Slots -/

/-- What is in a slot is told by the runs in progress. -/
theorem slot_congr {before after : Engine α}
    (active : after.databases.map (fun database => database.active) =
      before.databases.map fun database => database.active) (id : DatabaseId) :
    after.slot id = before.slot id := by
  have hslot : ∀ engine : Engine α,
      engine.slot id = ((engine.databases.map fun database => database.active)[id]?).join := by
    intro engine
    rw [slot, database?, List.getElem?_map]
    cases engine.databases[id]? <;> rfl
  rw [hslot, hslot, active]

/-- A change of one database changes the slot of this one only. -/
theorem slot_modifyDatabase (engine : Engine α) (id other : DatabaseId) (f : Database → Database) :
    (engine.modifyDatabase id f).slot other =
      if id = other then (engine.database? id).bind fun database => (f database).active
      else engine.slot other := by
  simp only [slot, database?, modifyDatabase, List.getElem?_modify]
  by_cases hid : id = other
  · subst hid
    cases engine.databases[id]? <;> simp
  · cases engine.databases[other]? <;> simp [hid]

/-- A database that is added has no run in progress. -/
theorem slot_addDatabase (engine : Engine α) {database : Database} (idle : database.active = none)
    (id : DatabaseId) : (engine.addDatabase database).slot id = engine.slot id := by
  simp only [slot, database?, addDatabase, List.getElem?_append]
  split
  · rfl
  · next hid =>
    -- the number of the new database or of none
    rw [List.getElem?_eq_none (Nat.not_lt.1 hid)]
    cases id - engine.databases.length <;> simp [idle]

/-- Cancelling a token empties no slot. -/
@[simp] theorem slot_cancelToken (engine : Engine α) (token : TokenId) (id : DatabaseId) :
    (engine.cancelToken token).slot id = engine.slot id := by
  rw [slot, database?, databases_cancelToken]
  rfl

/-- A compilation that begins takes the slot. -/
theorem slot_beginCompilation {engine : Engine α} {id : DatabaseId}
    (there : (engine.database? id).isSome) (other : DatabaseId) :
    (engine.beginCompilation id).2.slot other =
      if id = other then some engine.tokens.length else engine.slot other := by
  have hslot : (engine.beginCompilation id).2.slot other = (engine.modifyDatabase id fun database =>
      { database with active := some engine.tokens.length }).slot other :=
    slot_congr (by rw [databases_beginCompilation]; rfl) other
  obtain ⟨database, hdatabase⟩ := Option.isSome_iff_exists.1 there
  rw [hslot, slot_modifyDatabase, hdatabase]
  rfl

/-- A compilation that ends leaves the slot, if it is the one in it. -/
theorem slot_endCompilation (engine : Engine α) (id : DatabaseId) (token : TokenId)
    (other : DatabaseId) :
    (engine.endCompilation id token).slot other =
      if id = other ∧ engine.slot id = some token then none else engine.slot other := by
  have hslot : (engine.endCompilation id token).slot other =
      (engine.modifyDatabase id fun database =>
        if database.active = some token then { database with active := none }
        else database).slot other := rfl
  rw [hslot, slot_modifyDatabase]
  by_cases hid : id = other
  · subst hid
    simp only [slot, true_and, if_true]
    cases engine.database? id with
    | none => rfl
    | some database => by_cases hactive : database.active = some token <;> simp [hactive]
  · simp [hid]

/-- Where no run is in progress there is none to cancel. -/
theorem cancelCompilation_of_none {engine : Engine α} {id : DatabaseId}
    (h : engine.slot id = none) : engine.cancelCompilation id = (false, engine) := by
  rw [slot] at h
  rw [cancelCompilation, h]

/-- Where a run is in progress its token is cancelled. -/
theorem cancelCompilation_of_some {engine : Engine α} {id : DatabaseId} {token : TokenId}
    (h : engine.slot id = some token) :
    engine.cancelCompilation id = (true, engine.cancelToken token) := by
  rw [slot] at h
  rw [cancelCompilation, h]

/-- Cancelling the run of a database leaves it in its slot. -/
@[simp] theorem slot_cancelCompilation (engine : Engine α) (id other : DatabaseId) :
    (engine.cancelCompilation id).2.slot other = engine.slot other := by
  unfold cancelCompilation
  split
  · exact slot_cancelToken engine _ other
  · rfl

/-- Disposing of a database empties no slot. -/
@[simp] theorem slot_disposeDatabase (engine : Engine α) (id other : DatabaseId) :
    (engine.disposeDatabase id).slot other = engine.slot other := by
  have hslot := slot_congr (sameRuns_modifyDatabase
    { (engine.cancelCompilation id).2 with
      observers := (engine.cancelCompilation id).2.observers.erase (.database id) } id
    (fun database => { database with watched := false }) fun _ => rfl).active other
  exact hslot.trans (slot_cancelCompilation engine id other)

/-! ### Databases -/

/-- A database is there exactly if its number is below their count. -/
theorem isSome_database?_iff (engine : Engine α) (id : DatabaseId) :
    (engine.database? id).isSome ↔ id < engine.databases.length := by
  rw [database?, Option.isSome_iff_exists]
  constructor
  · rintro ⟨database, hdatabase⟩
    exact (List.getElem?_eq_some_iff.1 hdatabase).1
  · exact fun h => ⟨_, List.getElem?_eq_getElem h⟩

/-- A change of one database changes this one only. -/
theorem database?_modifyDatabase (engine : Engine α) (id other : DatabaseId)
    (f : Database → Database) :
    (engine.modifyDatabase id f).database? other =
      if id = other then (engine.database? other).map f else engine.database? other := by
  simp only [database?, modifyDatabase, List.getElem?_modify]
  by_cases hid : id = other <;> cases engine.databases[other]? <;> simp [hid]

/-- Cancelling a run leaves the databases as they are. -/
@[simp] theorem database?_cancelCompilation (engine : Engine α) (id other : DatabaseId) :
    (engine.cancelCompilation id).2.database? other = engine.database? other := by
  unfold cancelCompilation
  split
  · rw [database?, databases_cancelToken]
    rfl
  · rfl

/-- Beginning a compilation leaves what is in front of the engine. -/
theorem front_beginCompilation (engine : Engine α) (id : DatabaseId) :
    (engine.beginCompilation id).2.front = engine.front := by
  simp only [beginCompilation, cancelToken]
  split
  · split <;> rfl
  · rfl

/-! ### Tokens -/

/-- Whether a token is cancelled is told by those that are. -/
theorem isCancelled_congr {before after : Engine α}
    (cancelled : after.tokens.map (fun token => token.cancelled) =
      before.tokens.map fun token => token.cancelled) (token : TokenId) :
    after.isCancelled token = before.isCancelled token := by
  have hflag : ∀ engine : Engine α, engine.isCancelled token =
      ((engine.tokens.map fun token => token.cancelled)[token]?).any id := by
    intro engine
    rw [isCancelled, List.getElem?_map]
    cases engine.tokens[token]? <;> rfl
  rw [hflag, hflag, cancelled]

/-- Cancelling a token that is there cancels this one, and those that were stay so. -/
theorem isCancelled_cancelToken {engine : Engine α} {token : TokenId}
    (there : token < engine.tokens.length) (other : TokenId) :
    (engine.cancelToken token).isCancelled other = true ↔
      engine.isCancelled other = true ∨ other = token := by
  by_cases hsame : token = other
  · subst hsame
    simp [cancelToken, isCancelled, there]
  · rw [isCancelled_cancelToken_of_ne engine hsame]
    have hother : other ≠ token := fun h => hsame h.symm
    simp [hother]

/-- What is cancelled stays so. -/
theorem isCancelled_of_cancelToken {engine : Engine α} {token : TokenId} (other : TokenId)
    (h : engine.isCancelled token) : (engine.cancelToken other).isCancelled token := by
  by_cases hmade : other < engine.tokens.length
  · exact (isCancelled_cancelToken hmade token).2 (.inl h)
  · rw [cancelToken, List.getElem?_eq_none (Nat.not_lt.1 hmade)]
    exact h

/-- The token of a compilation that begins is the next one. -/
theorem fst_beginCompilation (engine : Engine α) (id : DatabaseId) :
    (engine.beginCompilation id).1 = engine.tokens.length := by
  simp only [beginCompilation]
  split <;> rfl

/-- A compilation that begins cancels the one in the slot, and no other. -/
theorem isCancelled_beginCompilation {engine : Engine α} (made : engine.SlotsMade) (id : DatabaseId)
    (other : TokenId) :
    (engine.beginCompilation id).2.isCancelled other = true ↔
      engine.isCancelled other = true ∨ engine.slot id = some other := by
  -- the token that is added is not cancelled, and no other changes by it
  have hfresh : ∀ f : Database → Database, (({ engine with
      tokens := engine.tokens ++ [CancellationToken.fresh] } : Engine α).modifyDatabase id
        f).isCancelled other = engine.isCancelled other := by
    intro f
    simp only [isCancelled, modifyDatabase, List.getElem?_append]
    split
    · rfl
    · next hother =>
      rw [List.getElem?_eq_none (Nat.not_lt.1 hother)]
      cases other - engine.tokens.length <;> simp [CancellationToken.fresh]
  simp only [beginCompilation]
  cases hslot : engine.slot id with
  | none =>
    simp only [slot] at hslot
    rw [hslot]
    simp [hfresh]
  | some previous =>
    have hprevious := made id previous hslot
    simp only [slot] at hslot
    rw [hslot]
    dsimp only
    rw [isCancelled_cancelToken, hfresh, Option.some.injEq, eq_comm (a := previous)]
    show previous < (engine.tokens ++ [CancellationToken.fresh]).length
    rw [List.length_append]
    exact Nat.lt_add_right 1 hprevious

/-- Ending a compilation cancels nothing. -/
@[simp] theorem isCancelled_endCompilation (engine : Engine α) (id : DatabaseId)
    (token other : TokenId) :
    (engine.endCompilation id token).isCancelled other = engine.isCancelled other := by
  refine isCancelled_congr ?_ other
  apply List.ext_getElem?
  intro i
  simp only [endCompilation, modifyDatabase, List.getElem?_map, List.getElem?_modify]
  by_cases hid : token = i <;> cases engine.tokens[i]? <;> simp [hid]

/-- Ending a compilation makes no token. -/
@[simp] theorem length_endCompilation (engine : Engine α) (id : DatabaseId) (token : TokenId) :
    (engine.endCompilation id token).tokens.length = engine.tokens.length := by
  simp [endCompilation, modifyDatabase]

/-- Whether there was something to cancel. -/
theorem found_cancelCompilation (engine : Engine α) (id : DatabaseId) :
    (engine.cancelCompilation id).1 = (engine.slot id).isSome := by
  cases hslot : engine.slot id with
  | none => rw [cancelCompilation_of_none hslot]; rfl
  | some token => rw [cancelCompilation_of_some hslot]; rfl

/-- Cancelling a compilation makes no token. -/
@[simp] theorem length_cancelCompilation (engine : Engine α) (id : DatabaseId) :
    (engine.cancelCompilation id).2.tokens.length = engine.tokens.length := by
  unfold cancelCompilation
  split
  · exact length_cancelToken engine _
  · rfl

/-- A cancellation cancels what is in the slot, and nothing else. -/
theorem isCancelled_cancelCompilation {engine : Engine α} (made : engine.SlotsMade)
    (id : DatabaseId) (other : TokenId) :
    (engine.cancelCompilation id).2.isCancelled other = true ↔
      engine.isCancelled other = true ∨ engine.slot id = some other := by
  cases hslot : engine.slot id with
  | none =>
    rw [cancelCompilation_of_none hslot]
    simp
  | some token =>
    have htoken := made id token hslot
    rw [cancelCompilation_of_some hslot]
    dsimp only
    rw [isCancelled_cancelToken htoken, Option.some.injEq, eq_comm (a := token)]

/-- Disposing of a database cancels the token in its slot, and those that were cancelled stay so. -/
theorem isCancelled_disposeDatabase {engine : Engine α} (made : engine.SlotsMade)
    (id : DatabaseId) (other : TokenId) :
    (engine.disposeDatabase id).isCancelled other = true ↔
      engine.isCancelled other = true ∨ engine.slot id = some other :=
  isCancelled_cancelCompilation made id other

/-- Disposing of a database makes no token. -/
@[simp] theorem length_disposeDatabase (engine : Engine α) (id : DatabaseId) :
    (engine.disposeDatabase id).tokens.length = engine.tokens.length :=
  length_cancelCompilation engine id

end Engine

end AsmScope
