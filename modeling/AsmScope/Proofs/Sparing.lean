import AsmScope.Proofs.Sessions
/-! # What a run cannot do to other processes

A token guards the processes that are registered with it: cancelling the token kills them. Apart
from its own processes, a run only ever touches processes that some token guards, and touches them
only by killing them as it cancels the token. `Spares base` says this of the processes numbered
below `base`. It holds between the engine before and after anything that the rest of the program
does at a moment of a run, so a process whose tokens are not cancelled is found as it was. -/

namespace AsmScope

namespace Process

/-- A process that runs ends with the code of its program. -/
theorem finish_of_running {process : Process} (h : process.isRunning) :
    process.finish = { process with status := .exited process.program.exitCode } := by
  rw [finish, if_pos h]

/-- If its input is closed it also answers what it has received. -/
theorem endInput_of_running {process : Process} (h : process.isRunning) :
    process.endInput = { process with
      status := .exited process.program.exitCode
      output := process.program.respond (process.input.getD []) } := by
  rw [endInput, if_pos h, finish_of_running h]

/-- A process that has ended does not end again. -/
theorem finish_of_ended {process : Process} (h : process.isRunning = false) :
    process.finish = process := by
  simp [finish, h]

/-- A process that has ended does not answer again. -/
theorem endInput_of_ended {process : Process} (h : process.isRunning = false) :
    process.endInput = process := by
  simp [endInput, h]

/-- A process that has ended is not changed by a kill. -/
theorem kill_of_ended {process : Process} (h : process.isRunning = false) :
    process.kill = process := by
  simp [kill, finish, h]

/-- Killing a process twice is killing it once. -/
@[simp] theorem kill_kill (process : Process) : process.kill.kill = process.kill :=
  kill_of_ended (isRunning_kill process)

end Process

namespace CancellationToken

universe u

variable {β : Type u} (token : CancellationToken β)

/-- Cancelling a token registers nothing with it. -/
theorem callbacks_cancel : token.cancel.1.callbacks ⊆ token.callbacks := by
  unfold cancel
  split
  · exact List.Subset.refl _
  · exact List.nil_subset _

/-- What it hands out was registered. -/
theorem handed_cancel : token.cancel.2 ⊆ token.callbacks := by
  unfold cancel
  split
  · exact List.nil_subset _
  · exact List.Subset.refl _

/-- Registering a callback adds no other one. -/
theorem callbacks_register (callback : β) {other : β}
    (h : other ∈ (token.register callback).1.callbacks) :
    other ∈ token.callbacks ∨ other = callback := by
  unfold register at h
  split at h
  · exact .inl h
  · exact (List.mem_append.1 h).imp_right List.mem_singleton.1

end CancellationToken

/-- Whether a process belongs to a run. -/
def RunProcesses.Mentions (run : RunProcesses) (id : ProcessId) : Prop :=
  run.compiler = id ∨ run.demangler = id

namespace Host

/-- A change of one process changes this one only. -/
theorem process?_modifyProcess (host : Host) (id other : ProcessId) (f : Process → Process) :
    (host.modifyProcess id f).process? other =
      if id = other then (host.process? other).map f else host.process? other := by
  simp only [process?, modifyProcess, List.getElem?_modify]
  cases host.processes[other]? <;> by_cases h : id = other <;> simp [h]

/-- When a process ends by itself, only this one changes. -/
theorem process?_finish (host : Host) (id other : ProcessId) :
    (host.finish id).process? other =
      if id = other then (host.process? other).map Process.finish else host.process? other :=
  process?_modifyProcess host id other _

/-- When the input of a process is closed, only this one changes. -/
theorem process?_endInput (host : Host) (id other : ProcessId) :
    (host.endInput id).process? other =
      if id = other then (host.process? other).map Process.endInput else host.process? other :=
  process?_modifyProcess host id other _

/-- When a process is killed, only this one changes. -/
theorem process?_kill (host : Host) (id other : ProcessId) :
    (host.kill id).process? other =
      if id = other then (host.process? other).map Process.kill else host.process? other :=
  process?_modifyProcess host id other _

/-- Ending a run kills its processes and no others. -/
theorem process?_killRun (host : Host) (run : RunProcesses) (id : ProcessId) :
    (¬run.Mentions id → (Engine.killRun host run).process? id = host.process? id) ∧
      (run.Mentions id →
        (Engine.killRun host run).process? id = (host.process? id).map Process.kill) := by
  rw [Engine.killRun, process?_kill, process?_kill, RunProcesses.Mentions]
  by_cases hc : run.compiler = id <;> by_cases hd : run.demangler = id <;>
    simp [hc, hd, Option.map_map, Function.comp_def]

/-- Killing the processes of runs leaves a process as it is, or kills it if it belongs to one of
them. -/
theorem process?_foldl_killRun (host : Host) (runs : List RunProcesses) (id : ProcessId) :
    (runs.foldl Engine.killRun host).process? id = host.process? id ∨
      (runs.foldl Engine.killRun host).process? id = (host.process? id).map Process.kill ∧
        ∃ run ∈ runs, run.Mentions id := by
  induction runs generalizing host with
  | nil => exact .inl rfl
  | cons run runs ih =>
    obtain ⟨hother, hmine⟩ := process?_killRun host run id
    by_cases hmentions : run.Mentions id
    · -- the process is killed now; later kills find it so and change nothing
      refine .inr ⟨?_, run, List.mem_cons_self, hmentions⟩
      rcases ih (Engine.killRun host run) with h | ⟨h, -⟩
      · rw [List.foldl_cons, h, hmine hmentions]
      · rw [List.foldl_cons, h, hmine hmentions, Option.map_map]
        simp [Function.comp_def]
    · rcases ih (Engine.killRun host run) with h | ⟨h, other, hmem, hother'⟩
      · exact .inl (by rw [List.foldl_cons, h, hother hmentions])
      · refine .inr ⟨?_, other, List.mem_cons_of_mem _ hmem, hother'⟩
        rw [List.foldl_cons, h, hother hmentions]

end Host

namespace Engine

variable {α : Type}

/-- A token guards a process: cancelling it kills the process. -/
def Guards (engine : Engine α) (token : TokenId) (id : ProcessId) : Prop :=
  ∃ state, engine.tokens[token]? = some state ∧ ∃ run ∈ state.callbacks, run.Mentions id

/-- Where a token is replaced, a process is guarded as before or by a new callback. -/
theorem Guards.of_set {engine : Engine α} {token other : TokenId} {id : ProcessId}
    {old new : CancellationToken RunProcesses} {host : Host} {fresh : RunProcesses → Prop}
    (found : engine.tokens[token]? = some old)
    (callbacks : ∀ run ∈ new.callbacks, run ∈ old.callbacks ∨ fresh run)
    (h : Guards { engine with tokens := engine.tokens.set token new, host } other id) :
    engine.Guards other id ∨ ∃ run, fresh run ∧ run.Mentions id := by
  obtain ⟨state, hstate, run, hrun, hmentions⟩ := h
  dsimp only at hstate
  by_cases hsame : other = token
  · subst hsame
    rw [List.getElem?_set_self', found] at hstate
    obtain rfl : new = state := Option.some.inj hstate
    rcases callbacks run hrun with hold | hfresh
    · exact .inl ⟨old, found, run, hold, hmentions⟩
    · exact .inr ⟨run, hfresh, hmentions⟩
  · rw [List.getElem?_set_ne (Ne.symm hsame)] at hstate
    exact .inl ⟨state, hstate, run, hrun, hmentions⟩

/-- After the processes of a run are registered a token guards what it did before, and these. -/
theorem Guards.of_registerRun {engine : Engine α} {token other : TokenId} {run : RunProcesses}
    {id : ProcessId} (h : (engine.registerRun token run).Guards other id) :
    engine.Guards other id ∨ run.Mentions id := by
  unfold registerRun at h
  cases found : engine.tokens[token]? with
  | none =>
    rw [found] at h
    exact .inl h
  | some old =>
    rw [found] at h
    have hold := h.of_set found fun _ hmem => CancellationToken.callbacks_register old run hmem
    rcases hold with hold | ⟨run, rfl, hmentions⟩
    · exact .inl hold
    · exact .inr hmentions

/-- Registering with a token is not seen by the others. -/
theorem Guards.of_registerRun_ne {engine : Engine α} {token other : TokenId} {run : RunProcesses}
    {id : ProcessId} (h : (engine.registerRun token run).Guards other id) (ne : other ≠ token) :
    engine.Guards other id := by
  unfold registerRun at h
  cases found : engine.tokens[token]? with
  | none =>
    rw [found] at h
    exact h
  | some old =>
    rw [found] at h
    obtain ⟨state, hstate, hrun⟩ := h
    dsimp only at hstate
    rw [List.getElem?_set_ne (Ne.symm ne)] at hstate
    exact ⟨state, hstate, hrun⟩

/-- The processes below `base` are left alone, but for killing those of cancelled tokens. -/
structure Spares (base : Nat) (before after : Engine α) : Prop where
  cancelled : ∀ token, before.isCancelled token → after.isCancelled token
  guards : ∀ token id, id < base → after.Guards token id → before.Guards token id
  processes : ∀ id < base, after.host.process? id = before.host.process? id ∨
    after.host.process? id = (before.host.process? id).map Process.kill ∧
      ∃ token, before.Guards token id ∧ after.isCancelled token

namespace Spares

variable {base : Nat}

/-- Doing nothing spares every process. -/
theorem refl (engine : Engine α) : Spares base engine engine :=
  ⟨fun _ h => h, fun _ _ _ h => h, fun _ _ => .inl rfl⟩

/-- What spares processes twice in a row spares them. -/
theorem trans {first second third : Engine α} (hfirst : Spares base first second)
    (hsecond : Spares base second third) : Spares base first third where
  cancelled token h := hsecond.cancelled token (hfirst.cancelled token h)
  guards token id hid h := hfirst.guards token id hid (hsecond.guards token id hid h)
  processes id hid := by
    rcases hfirst.processes id hid with hone | ⟨hone, token, hguards, hcancelled⟩
    · rcases hsecond.processes id hid with htwo | ⟨htwo, token, hguards, hcancelled⟩
      · exact .inl (htwo.trans hone)
      · refine .inr ⟨by rw [htwo, hone], token, ?_, hcancelled⟩
        exact hfirst.guards token id hid hguards
    · refine .inr ⟨?_, token, hguards, hsecond.cancelled token hcancelled⟩
      rcases hsecond.processes id hid with htwo | ⟨htwo, -⟩
      · rw [htwo, hone]
      · -- a process that was killed twice is as after the first time
        rw [htwo, hone, Option.map_map]
        simp [Function.comp_def]

instance : IsPreorder (Engine α) (Spares base) where
  refl := refl
  trans _ _ _ := trans

/-- What changes neither tokens nor processes spares all processes. -/
theorem of_same {before after : Engine α} (tokens : after.tokens = before.tokens)
    (processes : ∀ id < base, after.host.process? id = before.host.process? id) :
    Spares base before after where
  cancelled token h := by simpa [isCancelled, tokens] using h
  guards token id _ h := by simpa [Guards, tokens] using h
  processes id hid := .inl (processes id hid)

/-- A token is replaced by one that is cancelled if it was, and has no more callbacks, apart from
those that are about processes from `base` on. -/
theorem of_set {engine : Engine α} {token : TokenId} {old : CancellationToken RunProcesses}
    {host : Host} (found : engine.tokens[token]? = some old)
    (new : CancellationToken RunProcesses) (cancelled : old.cancelled → new.cancelled)
    (callbacks : ∀ run ∈ new.callbacks, run ∈ old.callbacks ∨ ∀ id < base, ¬run.Mentions id)
    (processes : ∀ id < base, host.process? id = engine.host.process? id ∨
      host.process? id = (engine.host.process? id).map Process.kill ∧ engine.Guards token id ∧
        new.cancelled) :
    Spares base engine { engine with tokens := engine.tokens.set token new, host } := by
  have hnew : (engine.tokens.set token new)[token]? = some new := by
    rw [List.getElem?_set_self', found]
    rfl
  have hother : ∀ other ≠ token, (engine.tokens.set token new)[other]? = engine.tokens[other]? :=
    fun other hne => List.getElem?_set_ne hne.symm
  refine ⟨fun other h => ?_, fun other id hid h => ?_, fun id hid => ?_⟩
  · -- only the one token can change, and it stays cancelled
    by_cases hsame : other = token
    · subst hsame
      rw [isCancelled, found] at h
      rw [isCancelled]
      dsimp only
      rw [hnew]
      exact cancelled h
    · rw [isCancelled] at h ⊢
      dsimp only
      rwa [hother other hsame]
  · rcases h.of_set found callbacks with hold | ⟨run, hbase, hmentions⟩
    · exact hold
    · exact absurd hmentions (hbase id hid)
  · rcases processes id hid with hkept | ⟨hkilled, hguards, hcancelled⟩
    · exact .inl hkept
    · refine .inr ⟨hkilled, token, hguards, ?_⟩
      rw [isCancelled]
      dsimp only
      rw [hnew]
      exact hcancelled

/-- Cancelling a token spares all but those that it guards. -/
theorem cancelToken (engine : Engine α) (token : TokenId) :
    Spares base engine (engine.cancelToken token) := by
  unfold Engine.cancelToken
  cases found : engine.tokens[token]? with
  | none => exact .refl engine
  | some old =>
    -- the callbacks that are handed out were registered, so the token guards what they kill
    refine of_set found old.cancel.1 (fun _ => CancellationToken.cancelled_cancel old)
      (fun run hrun => .inl (CancellationToken.callbacks_cancel old hrun)) fun id _ => ?_
    · have hkilled := Host.process?_foldl_killRun engine.host old.cancel.2 id
      rcases hkilled with hkept | ⟨hkilled, run, hrun, hmentions⟩
      · exact .inl hkept
      · exact .inr ⟨hkilled, ⟨old, found, run, CancellationToken.handed_cancel old hrun, hmentions⟩,
          CancellationToken.cancelled_cancel old⟩

/-- Registering processes from a number on spares those below it. -/
theorem registerRun {engine : Engine α} {token : TokenId} {run : RunProcesses}
    (own : run.OwnedFrom base) : Spares base engine (engine.registerRun token run) := by
  -- the processes of the run are at `base` or later, so none below is killed
  have hother : ∀ id < base, ¬run.Mentions id := by
    rintro id hid (rfl | rfl)
    · exact absurd own.1 (Nat.not_le.2 hid)
    · exact absurd own.2 (Nat.not_le.2 hid)
  unfold Engine.registerRun
  cases found : engine.tokens[token]? with
  | none => exact .refl engine
  | some old =>
    refine of_set found (old.register run).1
      (fun h => (CancellationToken.cancelled_register old run).trans h) (fun other hmem => ?_)
      fun id hid => .inl ?_
    · rcases CancellationToken.callbacks_register old run hmem with hold | rfl
      · exact .inl hold
      · exact .inr hother
    · split
      · exact (Host.process?_killRun engine.host run id).1 (hother id hid)
      · rfl

/-- A token that is only made to forget callbacks. -/
theorem modifyToken {engine : Engine α} {token : TokenId}
    {f : CancellationToken RunProcesses → CancellationToken RunProcesses}
    (cancelled : ∀ state, (f state).cancelled = state.cancelled)
    (callbacks : ∀ state, (f state).callbacks ⊆ state.callbacks) :
    Spares base engine { engine with tokens := engine.tokens.modify token f } := by
  cases found : engine.tokens[token]? with
  | none =>
    rw [List.modify_eq_self (List.getElem?_eq_none_iff.1 found)]
    exact .refl engine
  | some old =>
    -- where there is a token, modifying it is setting what comes of it
    have hset : engine.tokens.modify token f = engine.tokens.set token (f old) := by
      apply List.ext_getElem?
      intro other
      rw [List.getElem?_modify, List.getElem?_set]
      by_cases hsame : token = other
      · subst hsame
        obtain ⟨hlt, rfl⟩ := List.getElem?_eq_some_iff.1 found
        simp [hlt]
      · simp [hsame]
    rw [hset]
    exact of_set found (f old) (fun h => (cancelled old).trans h)
      (fun run hrun => .inl (callbacks old hrun)) fun _ _ => .inl rfl

/-- A new token guards nothing. -/
theorem addToken (engine : Engine α) :
    Spares base engine { engine with tokens := engine.tokens ++ [CancellationToken.fresh] } := by
  refine ⟨fun token h => ?_, fun token id _ h => ?_, fun _ _ => .inl rfl⟩
  · obtain ⟨state, hstate, hcancelled⟩ := Option.any_eq_true _ _ |>.1 h
    have hlt := (List.getElem?_eq_some_iff.1 hstate).1
    rw [isCancelled]
    dsimp only
    rw [List.getElem?_append_left hlt, hstate]
    exact hcancelled
  · obtain ⟨state, hstate, run, hrun, hmentions⟩ := h
    rw [List.getElem?_append] at hstate
    split at hstate
    · exact ⟨state, hstate, run, hrun, hmentions⟩
    · obtain rfl := List.mem_singleton.1 (List.mem_of_getElem? hstate)
      cases hrun

/-- What a request does spares all processes but those that a cancelled token guards. -/
theorem of_change (base : Nat) (before after : Engine α) (change : Change before after) :
    Spares base before after := by
  cases change with
  | elsewhere same =>
    exact of_same same.tokens fun id _ => by simp [Host.process?, same.processes]
  | opened database idle => exact of_same rfl fun _ _ => rfl
  -- a begin adds a token, and may cancel the one before
  | begun id =>
    have hbegun : Spares base before
        (({ before with tokens := before.tokens ++ [CancellationToken.fresh] } :
          Engine α).modifyDatabase id fun database =>
            { database with active := some before.tokens.length }) :=
      (addToken before).trans (of_same rfl fun _ _ => rfl)
    simp only [beginCompilation]
    split
    · exact hbegun.trans (cancelToken _ _)
    · exact hbegun
  | ended id token =>
    have hdatabase : Spares base before (before.modifyDatabase id fun database =>
        if database.active = some token then { database with active := none } else database) :=
      of_same rfl fun _ _ => rfl
    exact hdatabase.trans (modifyToken (fun _ => rfl) fun _ => List.nil_subset _)
  | cancelled token => exact cancelToken before token

/-- What a run does to processes from a number on spares those below it. -/
theorem of_act (base : Nat) (before after : Engine α) (act : Act base before after) :
    Spares base before after := by
  have hother : ∀ {own id : Nat}, base ≤ own → id < base → own ≠ id := by
    rintro own id hown hid rfl
    exact absurd hown (Nat.not_le.2 hid)
  cases act with
  | finished own hown =>
    exact of_same rfl fun id hid => by rw [Host.process?_finish, if_neg (hother hown hid)]
  | answered own hown =>
    exact of_same rfl fun id hid => by rw [Host.process?_endInput, if_neg (hother hown hid)]
  | killed own hown =>
    exact of_same rfl fun id hid => by rw [Host.process?_kill, if_neg (hother hown hid)]
  | received own chunk hown =>
    exact of_same rfl fun id hid => by rw [Host.process?_modifyProcess, if_neg (hother hown hid)]
  | registered token run own => exact registerRun own
  | unregistered token run =>
    exact modifyToken (fun _ => rfl) fun state => List.erase_subset

/-- The start of a process spares those that were there. -/
theorem of_starts {before after : Engine α} (there : base ≤ before.started)
    (start : Starts before after) : Spares base before after := by
  obtain ⟨process, rfl⟩ := start
  refine of_same rfl fun id hid => ?_
  exact List.getElem?_append_left (Nat.lt_of_lt_of_le hid there)

/-- **Runs spare the processes that were there before them.** -/
theorem allows (base : Nat) : Allows base (Spares base : Engine α → Engine α → Prop) where
  change := of_change base
  act := of_act base
  start _ _ there start := of_starts there start

end Spares

/-! ### Processes that have ended -/

/-- A process that has ended stays as it is. -/
def Settled (before after : Engine α) : Prop :=
  ∀ id process, before.host.process? id = some process → process.isRunning = false →
    after.host.process? id = some process

namespace Settled

instance : IsPreorder (Engine α) Settled where
  refl _ := fun _ _ h _ => h
  trans _ _ _ hab hbc := fun id process h hended => hbc id process (hab id process h hended) hended

/-- What a request does leaves processes that have ended. -/
theorem of_change (before after : Engine α) (change : Change before after) :
    Settled before after := by
  intro id process hprocess hended
  -- a change spares all processes, in the sense that it at most kills them
  have hspares := Spares.of_change (id + 1) before after change
  rcases hspares.processes id (Nat.lt_succ_self id) with hkept | ⟨hkilled, -⟩
  · rw [hkept, hprocess]
  · rw [hkilled, hprocess, Option.map_some, Process.kill_of_ended hended]

/-- A change of a process that does nothing to a process that has ended. -/
theorem of_modify {before after : Engine α} {own : ProcessId} {f : Process → Process}
    (changed : ∀ id, after.host.process? id =
      if own = id then (before.host.process? id).map f else before.host.process? id)
    (still : ∀ process, before.host.process? own = some process → process.isRunning = false →
      f process = process) : Settled before after := by
  intro id process hprocess hended
  rw [changed id]
  by_cases hown : own = id
  · subst hown
    rw [if_pos rfl, hprocess, Option.map_some, still process hprocess hended]
  · rw [if_neg hown, hprocess]

/-- What a run does leaves processes that have ended. -/
theorem of_act {first : Nat} (before after : Engine α) (act : Act first before after) :
    Settled before after := by
  cases act with
  | finished own =>
    exact of_modify (before.host.process?_finish own) fun _ _ h => Process.finish_of_ended h
  | answered own =>
    exact of_modify (before.host.process?_endInput own) fun _ _ h => Process.endInput_of_ended h
  | killed own =>
    exact of_modify (before.host.process?_kill own) fun _ _ h => Process.kill_of_ended h
  -- chunks come to a process that runs, so none to one that has ended
  | received own chunk hown running =>
    refine of_modify (fun id => before.host.process?_modifyProcess own id _) ?_
    intro process h hended
    rw [isRunning, h] at running
    exact absurd running (by simp [hended])
  -- a registration at a cancelled token kills the run's processes at once
  | registered token run =>
    intro id process hprocess hended
    unfold Engine.registerRun
    split
    · exact hprocess
    · dsimp only
      split
      · obtain ⟨hother, hmine⟩ := Host.process?_killRun before.host run id
        by_cases hmentions : run.Mentions id
        · rw [hmine hmentions, hprocess, Option.map_some, Process.kill_of_ended hended]
        · rw [hother hmentions, hprocess]
      · exact hprocess
  | unregistered => exact fun _ _ h _ => h

/-- The start of a process leaves those that have ended. -/
theorem of_starts {before after : Engine α} (start : Starts before after) :
    Settled before after := by
  obtain ⟨process, rfl⟩ := start
  intro id found hfound _
  have hlt : id < before.host.processes.length := (List.getElem?_eq_some_iff.1 hfound).1
  exact (List.getElem?_append_left hlt).trans hfound

/-- **What has ended stays as it is**, whatever happens later. -/
theorem allows (first : Nat) : Allows first (Settled : Engine α → Engine α → Prop) where
  change := of_change
  act := of_act
  start _ _ _ start := of_starts start

end Settled

end Engine

/-- A run that was cancelled stays so. -/
theorem Task.timeline_cancelled {α : Type} {task : Task α}
    (fires : ∀ executable moment engine,
      Engine.From 0 (Engine.Spares 0) engine (task.fire executable moment engine))
    {begun : Engine α} {n m : Nat} (hle : n ≤ m) {token : TokenId}
    (h : (task.timeline begun n).2.isCancelled token) :
    (task.timeline begun m).2.isCancelled token :=
  ((timeline_respects_of_le (Engine.Spares.allows 0) fires (Nat.zero_le _) hle)
    (Nat.zero_le _)).2.cancelled token h

end AsmScope
