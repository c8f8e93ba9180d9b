import AsmScope.Proofs.Sparing
/-! # Reachable engines

An engine is reachable if it comes about from one without tokens by changes, acts and starts of
processes: so is every engine of a session, at every moment of every run (`Reachable.takeStep`,
`Reachable.timeline`). In a reachable engine no token guards a process that is yet to be started,
and the tokens of the runs in progress are there. -/

namespace AsmScope

namespace Engine

variable {α : Type}

/-- An engine that comes about from one without tokens. -/
inductive Reachable : Engine α → Prop
  | fresh {engine : Engine α} (tokens : engine.tokens = [])
      (idle : ∀ database ∈ engine.databases, database.active = none) : Reachable engine
  | change {before after : Engine α} (earlier : Reachable before) (change : Change before after) :
      Reachable after
  | act {first : Nat} {before after : Engine α} (earlier : Reachable before)
      (act : Act first before after) : Reachable after
  | start {before after : Engine α} (earlier : Reachable before) (start : Starts before after) :
      Reachable after

/-- What is guarded and what is in progress is there. -/
structure Grounded (engine : Engine α) : Prop where
  guarded : ∀ token id, engine.Guards token id → id < engine.started
  active : ∀ (id : DatabaseId) (token : TokenId),
    (engine.databases.map fun database => database.active)[id]? = some (some token) →
      token < engine.tokens.length

/-- Cancelling a token makes no new one. -/
theorem length_cancelToken (engine : Engine α) (token : TokenId) :
    (engine.cancelToken token).tokens.length = engine.tokens.length := by
  unfold cancelToken
  split <;> simp

/-- Cancelling a token leaves the databases as they are. -/
theorem databases_cancelToken (engine : Engine α) (token : TokenId) :
    (engine.cancelToken token).databases = engine.databases := by
  unfold cancelToken
  split <;> rfl

/-- Beginning a compilation puts the new token into the slot of the database. -/
theorem databases_beginCompilation (engine : Engine α) (id : DatabaseId) :
    (engine.beginCompilation id).2.databases = engine.databases.modify id fun database =>
      { database with active := some engine.tokens.length } := by
  simp only [beginCompilation]
  split
  · rw [databases_cancelToken]
    rfl
  · rfl

/-- Beginning a compilation makes one token. -/
theorem length_beginCompilation (engine : Engine α) (id : DatabaseId) :
    (engine.beginCompilation id).2.tokens.length = engine.tokens.length + 1 := by
  simp only [beginCompilation]
  split
  · rw [length_cancelToken]
    simp [modifyDatabase]
  · simp [modifyDatabase]

/-- What a run does to its processes makes no token. -/
theorem Act.length_tokens {first : Nat} {before after : Engine α} (act : Act first before after) :
    after.tokens.length = before.tokens.length := by
  cases act with
  | registered token run own started =>
    unfold registerRun
    split
    · rfl
    · exact List.length_set
  | unregistered token run => exact List.length_modify _ _ _
  | _ => rfl

/-- What a run does to its processes leaves the databases as they are. -/
theorem Act.databases_eq {first : Nat} {before after : Engine α} (act : Act first before after) :
    after.databases = before.databases := by
  cases act with
  | registered token run own started =>
    unfold registerRun
    split <;> rfl
  | _ => rfl

namespace Grounded

/-- What a request does leaves everything grounded. -/
theorem of_change {before after : Engine α} (change : Change before after)
    (h : Grounded before) : Grounded after := by
  refine ⟨fun token id hguards => ?_, fun id token hactive => ?_⟩
  · have hbefore := (Spares.of_change (id + 1) before after change).guards token id
      (Nat.lt_succ_self id) hguards
    exact Nat.lt_of_lt_of_eq (h.guarded token id hbefore) change.started_eq.symm
  · cases change with
    | elsewhere same => exact same.tokens ▸ h.active id token (same.active ▸ hactive)
    | opened database idle =>
      simp only [addDatabase, List.map_append, List.getElem?_append] at hactive
      split at hactive
      · exact h.active id token hactive
      · rw [List.map_singleton, idle] at hactive
        have hmem := List.mem_singleton.1 (List.mem_of_getElem? hactive)
        cases hmem
    | begun other =>
      -- the run that begins has the new token, all others have older ones
      rw [databases_beginCompilation, List.getElem?_map, List.getElem?_modify] at hactive
      rw [length_beginCompilation]
      cases hdatabase : before.databases[id]? with
      | none => simp [hdatabase] at hactive
      | some database =>
        by_cases hsame : other = id
        · obtain rfl : before.tokens.length = token := by simpa [hdatabase, hsame] using hactive
          exact Nat.lt_succ_self _
        · exact Nat.lt_succ_of_lt (h.active id token (by simpa [hdatabase, hsame] using hactive))
    | ended other ending =>
      have hold : token < before.tokens.length := by
        refine h.active id token ?_
        simp only [endCompilation, modifyDatabase, List.getElem?_map, List.getElem?_modify]
          at hactive
        cases hdatabase : before.databases[id]? with
        | none => simp [hdatabase] at hactive
        | some database =>
          by_cases hsame : other = id
          · by_cases hending : database.active = some ending
            · simp [hdatabase, hsame, hending] at hactive
            · simpa [hdatabase, hsame, hending] using hactive
          · simpa [hdatabase, hsame] using hactive
      simpa [endCompilation, modifyDatabase] using hold
    | cancelled other =>
      rw [length_cancelToken]
      exact h.active id token (by rwa [databases_cancelToken] at hactive)

/-- What a run does to its processes leaves everything grounded. -/
theorem of_act {first : Nat} {before after : Engine α} (act : Act first before after)
    (h : Grounded before) : Grounded after := by
  refine ⟨fun token id hguards => ?_, fun id token hactive => ?_⟩
  · rw [act.started_eq]
    -- only a registration lets a token guard more, and what is registered was started
    cases act with
    | registered other run own started =>
      rcases hguards.of_registerRun with hold | rfl | rfl
      · exact h.guarded token id hold
      · exact started.1
      · exact started.2
    | unregistered other run =>
      have hspares : Spares (id + 1) before (before.unregisterRun other run) :=
        Spares.of_act _ _ _ (.unregistered other run)
      exact h.guarded token id (hspares.guards token id (Nat.lt_succ_self id) hguards)
    | _ => exact h.guarded token id hguards
  · rw [act.length_tokens]
    exact h.active id token (act.databases_eq ▸ hactive)

/-- The start of a process leaves everything grounded. -/
theorem of_starts {before after : Engine α} (start : Starts before after) (h : Grounded before) :
    Grounded after := by
  obtain ⟨process, rfl⟩ := start
  refine ⟨fun token id hguards => ?_, h.active⟩
  exact Nat.lt_of_lt_of_le (h.guarded token id hguards) (by simp [started])

end Grounded

/-- In a reachable engine all that is guarded and in progress is there. -/
theorem Reachable.grounded {engine : Engine α} (h : Reachable engine) : Grounded engine := by
  induction h with
  | fresh tokens idle =>
    refine ⟨fun token id hguards => ?_, fun id token hactive => ?_⟩
    · obtain ⟨state, hstate, -⟩ := hguards
      rw [tokens] at hstate
      cases hstate
    · obtain ⟨database, hmem, hdatabase⟩ := List.mem_map.1 (List.mem_of_getElem? hactive)
      rw [idle database hmem] at hdatabase
      cases hdatabase
  | change earlier change ih => exact ih.of_change change
  | act earlier act ih => exact ih.of_act act
  | start earlier start ih => exact ih.of_starts start

/-- Cancelling a token cancels no other one. -/
theorem isCancelled_cancelToken_of_ne (engine : Engine α) {token other : TokenId}
    (h : token ≠ other) :
    (engine.cancelToken token).isCancelled other = engine.isCancelled other := by
  unfold cancelToken isCancelled
  split
  · rfl
  · dsimp only
    rw [List.getElem?_set_ne h]

/-- The token of a run that begins is not cancelled; that of the run before it is another one. -/
theorem Grounded.isCancelled_begun {engine begun : Engine α} {id : DatabaseId} {token : TokenId}
    (grounded : Grounded engine) (start : engine.beginCompilation id = (token, begun)) :
    begun.isCancelled token = false := by
  -- the new token is the last one, and a fresh one
  have hfresh : ∀ f : Database → Database, (({ engine with
      tokens := engine.tokens ++ [CancellationToken.fresh] } : Engine α).modifyDatabase id
        f).isCancelled engine.tokens.length = false := by
    intro f
    simp [isCancelled, modifyDatabase, CancellationToken.fresh]
  simp only [beginCompilation] at start
  cases hprevious : (engine.database? id).bind fun database => database.active with
  | none =>
    rw [hprevious] at start
    cases start
    exact hfresh _
  | some previous =>
    rw [hprevious] at start
    cases start
    rw [isCancelled_cancelToken_of_ne]
    · exact hfresh _
    -- the run that is cancelled has an older token
    · refine Nat.ne_of_lt (grounded.active id previous ?_)
      obtain ⟨database, hdatabase, hactive⟩ := Option.bind_eq_some_iff.1 hprevious
      rw [List.getElem?_map]
      simp only [database?] at hdatabase
      rw [hdatabase, Option.map_some, hactive]

/-- What leads from reachable engines to reachable engines. -/
def Leads (before after : Engine α) : Prop := Reachable before → Reachable after

instance : IsPreorder (Engine α) Leads where
  refl _ := id
  trans _ _ _ hab hbc h := hbc (hab h)

/-- That reachable engines are led to is a relation that allows what requests and runs do. -/
theorem allows_leads (first : Nat) : Allows first (Leads : Engine α → Engine α → Prop) where
  change _ _ change earlier := earlier.change change
  act _ _ act earlier := earlier.act act
  start _ _ _ start earlier := earlier.start start

/-- An engine to which nothing has happened. -/
structure Fresh (watching : Bool) (engine : Engine α) : Prop where
  databases : engine.databases = []
  registered : engine.registered = []
  tokens : engine.tokens = []
  observers : engine.observers = []
  watching : engine.watching = watching

/-- Nothing has happened to an engine that was just made. -/
theorem fresh_of_create {host : Host} {workspace : String} {sink : Sink} {watching : Bool}
    {front : α} {engine : Engine α}
    (h : (create host workspace sink watching front).1 = .ok engine) : Fresh watching engine := by
  unfold create at h
  split at h
  · cases h
  · split at h
    · cases h
    · cases h
    · cases h
      exact ⟨rfl, rfl, rfl, rfl, rfl⟩

/-- An engine has the front with which it was made. -/
theorem front_of_create {host : Host} {workspace : String} {sink : Sink} {watching : Bool}
    {front : α} {engine : Engine α}
    (h : (create host workspace sink watching front).1 = .ok engine) : engine.front = front := by
  unfold create at h
  split at h
  · cases h
  · split at h
    · cases h
    · cases h
    · cases h
      rfl

/-- A fresh engine is reachable. -/
theorem Reachable.of_fresh {watching : Bool} {engine : Engine α} (h : Fresh watching engine) :
    Reachable engine := by
  refine .fresh h.tokens ?_
  rw [h.databases]
  exact nofun

end Engine

namespace Scenario

open Engine

/-- Scripts lead from reachable stages to reachable stages. -/
theorem leads_interference (depth : Nat) (executable : String) (moment : Moment) (stage : Stage) :
    From 0 Leads stage (interference depth executable moment stage) :=
  respects_interference_from (allows_leads 0) depth executable moment stage

/-- A step of a session leads from reachable engines to reachable engines. -/
theorem leads_perform (depth : Nat) (step : EngineStep) :
    Respects (Leads : Stage → Stage → Prop) (perform (interference depth) step) := fun stage =>
  (respects_perform_from (allows_leads 0) depth step stage (Nat.zero_le _)).2

/-- **Every stage of a session is reachable.** -/
theorem reachable_afterSteps {stage : Stage} (h : Reachable stage) (steps : List EngineStep) :
    Reachable (afterSteps steps stage) :=
  respects_afterSteps (allows_leads 0).change leads_perform steps stage h

/-- The stage at every moment of a run is reachable. -/
theorem reachable_timeline {task : Task Ledger} {depth : Nat}
    (fire : task.fire = interference depth) {begun : Stage} (h : Reachable begun) (n : Nat) :
    Reachable (task.timeline begun n).2 :=
  ((Task.timeline_respects (allows_leads 0) (fire ▸ leads_interference depth) (Nat.zero_le _)
    n).1 (Nat.zero_le _)).2 h

end Scenario

end AsmScope
