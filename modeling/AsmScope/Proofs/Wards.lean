import AsmScope.Proofs.CompletedRuns
import AsmScope.Proofs.Scenes
import AsmScope.Proofs.Tidiness
/-! # Processes in the ward of a token

A token that a process is registered with has charge of it (`Wards`): until the token is cancelled it
guards the process, and from then on the process does not run. This ends only when the registration
is taken back or the token is disposed of, which nobody does but the run to which the token belongs.
For a compilation is ended either by the run that has begun it or under a name, and a name is only
ever given to a token that has just been made.

`Heeds kind` says so of everything that happens in a session, for the tokens of a kind: other runs,
however deep they are nested, heed the token of a run (`heeds_interference`), and the run itself
does until it takes its registration back (`heeds_step`). -/

namespace AsmScope

/-! ### What is killed does not run -/

namespace Host

/-- After the processes of a run are killed none of them runs. -/
theorem isRunning_killRun (host : Host) {run : RunProcesses} {id : ProcessId}
    (mentions : run.Mentions id) : (Engine.killRun host run).isRunning id = false := by
  rw [isRunning, (host.process?_killRun run id).2 mentions]
  cases host.process? id with
  | none => rfl
  | some process => exact process.isRunning_kill

/-- After the processes of many runs are killed none of them runs. -/
theorem isRunning_foldl_killRun {runs : List RunProcesses} {run : RunProcesses} (mem : run ∈ runs)
    {id : ProcessId} (mentions : run.Mentions id) (host : Host) :
    (runs.foldl Engine.killRun host).isRunning id = false := by
  induction runs generalizing host with
  | nil => cases mem
  | cons first runs ih =>
    rcases List.mem_cons.1 mem with rfl | hrest
    · -- it is killed first, and stays so
      rw [Bool.eq_false_iff]
      intro hrunning
      rw [List.foldl_cons] at hrunning
      have hkilled := isRunning_of_foldl_killRun hrunning
      rw [host.isRunning_killRun mentions] at hkilled
      cases hkilled
    · exact ih hrest _

end Host

namespace Engine

variable {α : Type} {engine later : Engine α} {token : TokenId} {id : ProcessId}

/-- A token has charge of a process that was started: it guards the process until it is cancelled,
and from then on the process does not run. -/
structure Wards (engine : Engine α) (token : TokenId) (id : ProcessId) : Prop where
  started : id < engine.started
  guarded : engine.isCancelled token = false → engine.Guards token id
  stopped : engine.isCancelled token → engine.host.isRunning id = false

/-- Whether a token is cancelled is told by the token alone. -/
theorem isCancelled_of_token (same : later.tokens[token]? = engine.tokens[token]?) :
    later.isCancelled token = engine.isCancelled token := by
  rw [isCancelled, isCancelled, same]

/-- What a token guards is told by the token alone. -/
theorem Guards.of_token (h : engine.Guards token id)
    (same : later.tokens[token]? = engine.tokens[token]?) : later.Guards token id := by
  obtain ⟨state, hstate, hruns⟩ := h
  exact ⟨state, same.trans hstate, hruns⟩

/-- A registration is an addition to what tokens guard. -/
theorem Guards.registerRun (h : engine.Guards token id) (other : TokenId) (run : RunProcesses) :
    (engine.registerRun other run).Guards token id := by
  unfold Engine.registerRun
  cases hfound : engine.tokens[other]? with
  | none => exact h
  | some old =>
    by_cases hsame : other = token
    · subst hsame
      obtain ⟨state, hstate, mine, hmine, hmentions⟩ := h
      rw [hfound] at hstate
      cases hstate
      refine ⟨(old.register run).1, ?_, mine, ?_, hmentions⟩
      · dsimp only
        rw [List.getElem?_set_self', hfound]
        rfl
      -- callbacks that wait at a token are not taken away by one more
      · unfold CancellationToken.register
        split
        · exact hmine
        · exact List.mem_append_left _ hmine
    · exact h.of_token (List.getElem?_set_ne hsame)

/-- A token that is not cancelled guards what is registered with it. -/
theorem guards_registerRun (made : token < engine.tokens.length)
    (going : engine.isCancelled token = false) {run : RunProcesses} (mentions : run.Mentions id) :
    (engine.registerRun token run).Guards token id := by
  have hfound : engine.tokens[token]? = some engine.tokens[token] := List.getElem?_eq_getElem made
  have hgoing : engine.tokens[token].cancelled = false := by
    rw [isCancelled, hfound] at going
    exact going
  unfold Engine.registerRun
  rw [hfound]
  refine ⟨(engine.tokens[token].register run).1, ?_, run, ?_, mentions⟩
  · dsimp only
    rw [List.getElem?_set_self', hfound]
    rfl
  · rw [CancellationToken.register, if_neg (by rw [hgoing]; exact Bool.false_ne_true)]
    exact List.mem_append_right _ List.mem_cons_self

namespace Wards

/-- A token that has charge of a process was made. -/
theorem made (h : engine.Wards token id) : token < engine.tokens.length := by
  by_contra hnone
  have hnever : engine.tokens[token]? = none := List.getElem?_eq_none (Nat.not_lt.1 hnone)
  obtain ⟨state, hstate, -⟩ := h.guarded (by rw [isCancelled, hnever]; rfl)
  rw [hnever] at hstate
  cases hstate

/-- What leaves the token alone and lets no process run again that has ended. -/
theorem of_token (h : engine.Wards token id)
    (same : later.tokens[token]? = engine.tokens[token]?) (grows : engine.started ≤ later.started)
    (quiet : later.host.isRunning id → engine.host.isRunning id) : later.Wards token id := by
  refine ⟨Nat.lt_of_lt_of_le h.started grows, fun going => ?_, fun cancelled => ?_⟩
  · rw [isCancelled_of_token same] at going
    exact (h.guarded going).of_token same
  · rw [isCancelled_of_token same] at cancelled
    rw [Bool.eq_false_iff]
    exact fun hrunning => Bool.eq_false_iff.1 (h.stopped cancelled) (quiet hrunning)

/-- A token keeps charge of a process through all that is tidy and leaves the token. -/
theorem of_tidy (h : engine.Wards token id) (same : later.tokens[token]? = engine.tokens[token]?)
    (tidy : Tidy engine later) : later.Wards token id :=
  h.of_token same tidy.1 (tidy.2 id)

/-- A token keeps charge of a process where the runs in progress are the same. -/
theorem of_sameRuns (h : engine.Wards token id) (same : engine.SameRuns later) :
    later.Wards token id :=
  h.of_tidy (by rw [same.tokens]) (tidy_of_change _ _ (.elsewhere same))

/-- A process that is started now is another one. -/
theorem of_starts (h : engine.Wards token id) (start : Starts engine later) :
    later.Wards token id := by
  have htokens : later.tokens = engine.tokens := by
    obtain ⟨process, rfl⟩ := start
    rfl
  refine h.of_token (by rw [htokens]) (by rw [start.started_eq]; exact Nat.le_succ _) ?_
  intro hrunning
  exact (tidy_starts start hrunning).resolve_right (Nat.ne_of_lt h.started)

/-- **Its cancellation ends the process**, and that of another token leaves it in charge. -/
theorem cancelToken (h : engine.Wards token id) (other : TokenId) :
    (engine.cancelToken other).Wards token id := by
  have htidy : Tidy engine (engine.cancelToken other) := tidy_cancelToken rfl other
  by_cases hsame : other = token
  · subst hsame
    have hcancelled := (isCancelled_cancelToken h.made other).2 (.inr rfl)
    refine ⟨Nat.lt_of_lt_of_le h.started htidy.1, fun going => ?_, fun _ => ?_⟩
    · rw [hcancelled] at going
      cases going
    · cases hbefore : engine.isCancelled other with
      | true =>
        rw [Bool.eq_false_iff]
        exact fun hrunning => Bool.eq_false_iff.1 (h.stopped hbefore) (htidy.2 id hrunning)
      | false =>
        -- the callbacks that are handed out are about the process
        obtain ⟨state, hstate, run, hrun, hmentions⟩ := h.guarded hbefore
        have hgoing : ¬state.cancelled = true := by
          rw [isCancelled, hstate] at hbefore
          exact Bool.eq_false_iff.1 hbefore
        rw [Engine.cancelToken, hstate]
        refine Host.isRunning_foldl_killRun ?_ hmentions _
        rwa [CancellationToken.cancel, if_neg hgoing]
  · refine h.of_tidy ?_ htidy
    unfold Engine.cancelToken
    split
    · rfl
    · exact List.getElem?_set_ne hsame

/-- A token keeps charge of a process through every calm change. -/
theorem calm (h : engine.Wards token id) (calm : Calm engine later) : later.Wards token id := by
  cases calm with
  | elsewhere same => exact h.of_sameRuns same
  | opened database idle => exact h.of_token rfl (Nat.le_refl _) fun hrunning => hrunning
  | cancelled other => exact h.cancelToken other

/-- A token keeps charge of a process when a compilation begins. -/
theorem begun (h : engine.Wards token id) (database : DatabaseId) :
    (engine.beginCompilation database).2.Wards token id := by
  have hmade : ∀ f : Database → Database, (({ engine with
      tokens := engine.tokens ++ [CancellationToken.fresh] } : Engine α).modifyDatabase database
        f).Wards token id := by
    intro f
    refine h.of_token ?_ (Nat.le_refl _) fun hrunning => hrunning
    exact List.getElem?_append_left h.made
  simp only [beginCompilation]
  split
  · exact (hmade _).cancelToken _
  · exact hmade _

/-- The end of the compilation of another token. -/
theorem ended (h : engine.Wards token id) (database : DatabaseId) {other : TokenId}
    (ne : other ≠ token) : (engine.endCompilation database other).Wards token id := by
  refine h.of_token ?_ (Nat.le_refl _) fun hrunning => hrunning
  simp [endCompilation, modifyDatabase, ne]

/-- Whatever is registered with whichever token. -/
theorem registerRun (h : engine.Wards token id) {other : TokenId} {run : RunProcesses}
    (tidy : Tidy engine (engine.registerRun other run)) :
    (engine.registerRun other run).Wards token id := by
  refine ⟨Nat.lt_of_lt_of_le h.started tidy.1, fun going => ?_, fun cancelled => ?_⟩
  · rw [isCancelled_registerRun] at going
    exact (h.guarded going).registerRun other run
  · rw [isCancelled_registerRun] at cancelled
    rw [Bool.eq_false_iff]
    exact fun hrunning => Bool.eq_false_iff.1 (h.stopped cancelled) (tidy.2 id hrunning)

end Wards

/-- **A token takes charge of what is registered with it**: if it is cancelled already, the process is
ended at once. -/
theorem wards_registerRun (made : token < engine.tokens.length) {run : RunProcesses}
    (mentions : run.Mentions id) (started : id < engine.started) :
    (engine.registerRun token run).Wards token id := by
  refine ⟨?_, fun going => ?_, fun cancelled => ?_⟩
  · unfold Engine.registerRun
    split
    · exact started
    · dsimp only [Engine.started]
      split
      · rwa [length_killRun]
      · exact started
  · rw [isCancelled_registerRun] at going
    exact guards_registerRun made going mentions
  · rw [isCancelled_registerRun] at cancelled
    obtain ⟨state, hstate, hcancelled⟩ := (Option.any_eq_true _ _).1 cancelled
    -- a cancelled token does not keep the callback but runs it at once
    have hnow : state.register run = (state, true) := if_pos hcancelled
    rw [Engine.registerRun, hstate]
    dsimp only
    rw [hnow]
    exact engine.host.isRunning_killRun mentions

end Engine

namespace Task

open Engine

variable {α : Type} {task : Task α} {point : Point} {engine later : Engine α}

/-- What a run does itself takes nothing out of the charge of a token, unless it takes its own
registration with this token back. -/
theorem Does.wards (does : task.Does point engine later) (own : point.OwnedFrom 0 engine)
    {token : TokenId} {id : ProcessId}
    (keeps : ∀ pair outcome, point = .unregister pair outcome → task.token ≠ token)
    (h : engine.Wards token id) : later.Wards token id := by
  have htidy : Tidy engine later := tidy_of_act _ _ (does.act own)
  cases does with
  | registered => exact h.registerRun htidy
  | unregistered =>
    refine h.of_tidy ?_ htidy
    have hother := keeps _ _ rfl
    simp [unregisterRun, hother]
  | _ => exact h.of_tidy rfl htidy

end Task

namespace Scenario

open Engine

/-! ### Tokens without names -/

/-- The token was made, and has no name. -/
structure Nameless (token : TokenId) (stage : Stage) : Prop where
  made : token < stage.tokens.length
  unnamed : ∀ name, stage.front.tokens.get? name ≠ some token

/-- The tokens of a kind are heeded: as long as they have no name, they keep charge of their
processes; and names are given only to tokens that have just been made. -/
structure Heeds (kind : TokenId → Prop) (before after : Stage) : Prop where
  tokens : before.tokens.length ≤ after.tokens.length
  names : ∀ name token, after.front.tokens.get? name = some token →
    before.front.tokens.get? name = some token ∨
      before.tokens.length ≤ token ∧ token < after.tokens.length
  wards : ∀ token id, kind token → Nameless token before → before.Wards token id →
    after.Wards token id

namespace Heeds

variable {kind : TokenId → Prop} {before after : Stage}

/-- Where the tokens of a kind are heeded those without names get none. -/
theorem nameless (h : Heeds kind before after) {token : TokenId} (nameless : Nameless token before) :
    Nameless token after := by
  refine ⟨Nat.lt_of_lt_of_le nameless.made h.tokens, fun name hname => ?_⟩
  rcases h.names name token hname with hold | ⟨hnew, -⟩
  · exact nameless.unnamed name hold
  · exact Nat.lt_irrefl _ (Nat.lt_of_lt_of_le nameless.made hnew)

instance : IsPreorder Stage (Heeds kind) where
  refl _ := ⟨Nat.le_refl _, fun _ _ h => .inl h, fun _ _ _ _ h => h⟩
  trans first second third hone htwo := by
    refine ⟨Nat.le_trans hone.tokens htwo.tokens, fun name token hname => ?_, ?_⟩
    · rcases htwo.names name token hname with hold | ⟨hnew, hmade⟩
      · rcases hone.names name token hold with hold | ⟨hnew, hmade⟩
        · exact .inl hold
        · exact .inr ⟨hnew, Nat.lt_of_lt_of_le hmade htwo.tokens⟩
      · exact .inr ⟨Nat.le_trans hone.tokens hnew, hmade⟩
    · intro token id hkind hnameless hwards
      exact htwo.wards token id hkind (hone.nameless hnameless)
        (hone.wards token id hkind hnameless hwards)

/-- Where all tokens are heeded those of a kind are. -/
theorem mono (h : Heeds (fun _ => True) before after) : Heeds kind before after :=
  ⟨h.tokens, h.names, fun token id _ => h.wards token id trivial⟩

/-- What leaves the front alone gives no names. -/
theorem of_front (front : after.front = before.front)
    (tokens : before.tokens.length ≤ after.tokens.length)
    (wards : ∀ token id, kind token → before.Wards token id → after.Wards token id) :
    Heeds kind before after :=
  ⟨tokens, fun _ _ hname => .inl (front ▸ hname), fun token id hkind _ => wards token id hkind⟩

/-- Tokens are heeded where front and runs in progress are the same. -/
theorem of_sameRuns (front : after.front = before.front) (same : before.SameRuns after) :
    Heeds kind before after :=
  of_front front (by rw [same.tokens]) fun _ _ _ h => h.of_sameRuns same

/-- Tokens are heeded when a process is started. -/
theorem of_starts (start : Starts before after) : Heeds kind before after := by
  refine of_front start.front_eq ?_ fun _ _ _ h => h.of_starts start
  obtain ⟨process, rfl⟩ := start
  exact Nat.le_refl _

/-- Tokens are heeded through what a run does itself, but for taking its own registration back. -/
theorem of_does {task : Task Ledger} {point : Point} (does : task.Does point before after)
    (own : point.OwnedFrom 0 before)
    (keeps : ∀ pair outcome, point = .unregister pair outcome → ¬kind task.token) :
    Heeds kind before after := by
  have hact := does.act own
  refine of_front hact.front_eq (Nat.le_of_eq hact.length_tokens.symm) fun token id hkind => ?_
  refine does.wards own fun pair outcome hpoint hsame => ?_
  exact keeps pair outcome hpoint (hsame ▸ hkind)

end Heeds

/-- Calm changes leave all tokens that have charge of a process in charge. -/
def Attends (before after : Stage) : Prop :=
  before.tokens.length ≤ after.tokens.length ∧
    ∀ token id, before.Wards token id → after.Wards token id

instance : IsPreorder Stage Attends where
  refl _ := ⟨Nat.le_refl _, fun _ _ h => h⟩
  trans _ _ _ hone htwo := ⟨Nat.le_trans hone.1 htwo.1,
    fun token id h => htwo.2 token id (hone.2 token id h)⟩

/-- Calm changes leave tokens in charge. -/
theorem attends_calm (before after : Stage) (calm : Calm before after) : Attends before after := by
  refine ⟨?_, fun _ _ h => h.calm calm⟩
  cases calm with
  | elsewhere same => rw [same.tokens]
  | opened => exact Nat.le_refl _
  | cancelled token => rw [length_cancelToken]

/-! ### What happens in a session -/

section Kind

variable {kind : TokenId → Prop}

/-- Tokens are heeded through every deed. -/
theorem heeds_deed (before after : Stage) (deed : Deed (fun _ => True) before after) :
    Heeds kind before after := by
  obtain ⟨htokens, hwards⟩ := respects_deed attends_calm before after deed
  exact .of_front deed.front_eq htokens fun token id _ => hwards token id

/-- Tokens are heeded when a database is disposed of. -/
theorem heeds_disposeDatabase (stage : Stage) (id : DatabaseId) :
    Heeds kind stage (stage.disposeDatabase id) := by
  obtain ⟨htokens, hwards⟩ := respects_disposeDatabase attends_calm stage id
  have hcancelled : Deed (fun _ => True) stage (stage.cancelCompilation id).2 := .cancelled trivial
  have hfront : (stage.disposeDatabase id).front = stage.front := hcancelled.front_eq
  exact .of_front hfront htokens fun token id _ => hwards token id

/-- A compilation that begins has a new token. -/
theorem heeds_beginCompilation (stage : Stage) (id : DatabaseId) :
    Heeds kind stage (stage.beginCompilation id).2 := by
  refine .of_front (front_beginCompilation stage id) ?_ fun _ _ _ h => h.begun id
  rw [length_beginCompilation]
  exact Nat.le_succ _

end Kind

/-- **Whatever requests do apart from runs heeds all tokens.** -/
theorem admits_heeds : Admits (Heeds fun _ => True) where
  deed := heeds_deed
  outside _ _ same := .of_sameRuns same.front same.sameRuns
  front stage front same := by
    refine ⟨Nat.le_refl _, fun name token hname => .inl ?_, fun token id _ _ h => ?_⟩
    · rw [← same]
      exact hname
    · exact h.of_token rfl (Nat.le_refl _) fun hrunning => hrunning
  disposed := heeds_disposeDatabase
  begun stage id name := by
    have hbegun : Heeds (fun _ => True) stage (stage.beginCompilation id).2 :=
      heeds_beginCompilation stage id
    refine ⟨hbegun.tokens, fun other token hname => ?_, fun token id _ hnameless h => ?_⟩
    · -- the name is that of the new token, or it was given before
      rw [Table.get?_put] at hname
      split at hname
      · rw [Option.some.injEq, fst_beginCompilation] at hname
        subst hname
        refine .inr ⟨Nat.le_refl _, ?_⟩
        have hmade := length_beginCompilation stage id
        exact Nat.lt_of_lt_of_eq (Nat.lt_succ_self _) hmade.symm
      · exact hbegun.names other token hname
    · have hkept := hbegun.wards token id trivial hnameless h
      exact hkept.of_token rfl (Nat.le_refl _) fun hrunning => hrunning
  ended stage id name token named := by
    refine ⟨Nat.le_of_eq (length_endCompilation stage id token).symm,
      fun _ _ hname => .inl hname, fun other process _ hnameless h => h.ended id ?_⟩
    -- a token without a name is another one
    rintro rfl
    exact hnameless.unnamed name named

section Runs

variable {depth : Nat} (fires : ∀ executable moment stage,
  Heeds (fun _ => True) stage (interference depth executable moment stage))
include fires

/-- A run heeds the tokens of the others at all of its moments. -/
theorem heeds_timeline {task : Task Ledger} (fire : task.fire = interference depth) (begun : Stage)
    (n : Nat) : Heeds (fun token => token ≠ task.token) begun (task.timeline begun n).2 := by
  refine Task.respects_moments (fun _ _ same => .of_sameRuns same.front same.sameRuns) ?_
    (fun _ _ start => .of_starts start) ?_ (fire ▸ grows_interference depth) begun n
  · intro point before after own does
    exact .of_does does own fun _ _ _ hown => hown rfl
  · rw [fire]
    exact fun executable moment stage => (fires executable moment stage).mono

/-- **A run heeds all tokens**: its own is a new one. -/
theorem heeds_run (id : DatabaseId) (source : String) (override : Option (List String)) :
    Respects (Heeds fun _ => True) (run (interference depth) id source override) := by
  -- in between the run may take its own registration back, so only the other tokens are heeded
  refine Task.respects_run_bracketed (S := fun own => Heeds fun token => token ≠ own)
    (fun _ _ _ same => .of_sameRuns same.front same.sameRuns) ?_ ?_ id source override
  · intro id stage later _ between
    have hbegun : Heeds (fun token => token ≠ (stage.beginCompilation id).1) stage
        (stage.beginCompilation id).2 := heeds_beginCompilation stage id
    have hlater := IsTrans.trans _ _ _ hbegun between
    refine ⟨?_, fun name token hname => ?_, fun token process _ hnameless h => ?_⟩
    · rw [length_endCompilation]
      exact hlater.tokens
    · rw [length_endCompilation]
      exact hlater.names name token hname
    · -- a token that had charge of a process before the run is not the one that was made for it
      have hother : token ≠ (stage.beginCompilation id).1 := by
        rw [fst_beginCompilation]
        exact Nat.ne_of_lt h.made
      exact (hlater.wards token process hother hnameless h).ended id hother.symm
  · intro task hfire begun
    obtain ⟨n, hn⟩ := Task.exists_timeline_finished task begun
    have hlast := heeds_timeline fires hfire begun n
    rwa [hn] at hlast

end Runs

/-- **Whatever scripts do heeds all tokens**, however deep it nests. -/
theorem heeds_interference (depth : Nat) (executable : String) (moment : Moment) (stage : Stage) :
    Heeds (fun _ => True) stage (interference depth executable moment stage) :=
  admits_heeds.respects_interference (fun _ fires => heeds_run fires) depth executable moment stage

/-- Tokens are heeded through every step of a session. -/
theorem heeds_perform (depth : Nat) (step : EngineStep) :
    Respects (Heeds fun _ => True) (perform (interference depth) step) :=
  admits_heeds.respects_perform (heeds_run (heeds_interference depth)) step

/-- **A run heeds its own token, too, until it takes its registration back.** -/
theorem heeds_step {task : Task Ledger} {depth : Nat} (fire : task.fire = interference depth)
    {point next : Point} {stage later : Stage} (step : task.Step point stage next later)
    (own : point.OwnedFrom 0 stage) (keeps : ∀ pair outcome, point ≠ .unregister pair outcome) :
    Heeds (fun _ => True) stage later := by
  refine Task.respects_does (fun _ _ same => .of_sameRuns same.front same.sameRuns) ?_
    (fun _ _ start => .of_starts start) ?_ step
  · rw [fire]
    exact heeds_interference depth
  · exact fun after does => .of_does does own fun pair outcome hpoint =>
      absurd hpoint (keeps pair outcome)

/-! ### Sound stages -/

/-- What every stage of a session is: reachable, and all tokens that have names were made. -/
structure Sound (stage : Stage) : Prop where
  reachable : Reachable stage
  named : ∀ name token, stage.front.tokens.get? name = some token → token < stage.tokens.length

namespace Sound

variable {stage : Stage}

/-- A reachable stage is sound if tokens were heeded on the way from a sound one. -/
theorem of_heeds {kind : TokenId → Prop} {later : Stage} (h : Sound stage) (reachable : Reachable later)
    (heeds : Heeds kind stage later) : Sound later := by
  refine ⟨reachable, fun name token hname => ?_⟩
  rcases heeds.names name token hname with hold | ⟨-, hmade⟩
  · exact Nat.lt_of_lt_of_le (h.named name token hold) heeds.tokens
  · exact hmade

/-- A session starts without tokens. -/
theorem of_create {host : Host} {workspace : String} {sink : Sink} {watching : Bool}
    {scripts : List (Script EngineStep)}
    (h : (create host workspace sink watching { scripts }).1 = .ok stage) : Sound stage := by
  refine ⟨.of_fresh (fresh_of_create h), fun name token hname => ?_⟩
  rw [front_of_create h] at hname
  cases hname

/-- **Every request leaves a sound stage**, and so does every script. -/
theorem perform (h : Sound stage) (depth : Nat) (step : EngineStep) :
    Sound (stage.after (perform (interference depth) step)) :=
  h.of_heeds (leads_perform depth step stage h.reachable) (heeds_perform depth step stage)

/-- A session leads from sound stages to sound stages. -/
theorem afterSteps (h : Sound stage) (steps : List EngineStep) : Sound (afterSteps steps stage) :=
  h.of_heeds (reachable_afterSteps h.reachable steps)
    (admits_heeds.respects_afterSteps heeds_perform steps stage)

/-- The beginning of a compilation leads from sound stages to sound stages. -/
theorem begun (h : Sound stage) (id : DatabaseId) : Sound (stage.beginCompilation id).2 := by
  have hheeds : Heeds (fun _ => True) stage (stage.beginCompilation id).2 :=
    heeds_beginCompilation stage id
  exact h.of_heeds (h.reachable.change (.begun id)) hheeds

/-- A run leads from sound stages to sound stages, up to every moment. -/
theorem timeline (h : Sound stage) {task : Task Ledger} {depth : Nat}
    (fire : task.fire = interference depth) (n : Nat) : Sound (task.timeline stage n).2 :=
  h.of_heeds (reachable_timeline fire h.reachable n)
    (heeds_timeline (heeds_interference depth) fire stage n)

end Sound

end Scenario

end AsmScope
