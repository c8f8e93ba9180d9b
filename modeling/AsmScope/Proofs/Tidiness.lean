import AsmScope.Proofs.Sessions
/-! # No process outlives its run

A run drops a process only after it has killed it and waited for it. At every moment of a run, what
runs now either ran before the run began or is one of the processes that the run still has to stop
(`Task.timeline_running`); at the end there is nothing left to stop. So a run leaves no process
running that did not run before, on whatever path it ends and whatever other runs are nested in
it, and a session that starts without running processes has none after any of its steps. -/

namespace AsmScope

/-- The status of a process that has ended is set. -/
theorem Process.isSome_code?_iff {process : Process} :
    process.code?.isSome ↔ process.isRunning = false := by
  unfold Process.code? Process.isRunning
  cases process.status <;> simp [Status.code?]

/-- A process whose input is closed has ended. -/
@[simp] theorem Process.isRunning_endInput (process : Process) :
    process.endInput.isRunning = false := by
  unfold Process.endInput
  split
  · exact Process.isRunning_finish process
  · simp_all

/-- What a process receives does not end it. -/
@[simp] theorem Process.isRunning_receive (process : Process) (chunk : Bytes) :
    (process.receive chunk).isRunning = process.isRunning := rfl

/-! ### Hosts -/

namespace Host

/-- Whether the process with this number has not ended. -/
def isRunning (host : Host) (id : ProcessId) : Bool := (host.process? id).any Process.isRunning

/-- A change of one process that starts none again starts none at all. -/
theorem isRunning_of_modify (host : Host) {changed : Host} {id other : ProcessId}
    {f : Process → Process} (processes : changed.processes = host.processes.modify id f)
    (quiet : ∀ process, (f process).isRunning → process.isRunning)
    (h : changed.isRunning other) : host.isRunning other := by
  simp only [isRunning, process?, processes, List.getElem?_modify] at h ⊢
  cases hprocess : host.processes[other]? with
  | none => simp [hprocess] at h
  | some process =>
    rw [hprocess] at h
    by_cases hid : id = other
    · exact quiet process (by simpa [hid] using h)
    · simpa [hid] using h

/-- Killing a process starts none. -/
theorem isRunning_of_kill {host : Host} {id other : ProcessId}
    (h : (host.kill id).isRunning other) : host.isRunning other :=
  isRunning_of_modify host rfl (by simp) h

/-- A killed process does not run. -/
theorem isRunning_kill_self (host : Host) (id : ProcessId) :
    (host.kill id).isRunning id = false := by
  simp only [isRunning, process?, kill, modifyProcess, List.getElem?_modify_eq]
  cases host.processes[id]? <;> simp

/-- Killing the processes of a run starts none. -/
theorem isRunning_of_killRun {host : Host} {run : RunProcesses} {id : ProcessId}
    (h : (Engine.killRun host run).isRunning id) : host.isRunning id :=
  isRunning_of_kill (isRunning_of_kill h)

/-- Killing the processes of many runs starts none. -/
theorem isRunning_of_foldl_killRun {runs : List RunProcesses} {host : Host} {id : ProcessId}
    (h : (runs.foldl Engine.killRun host).isRunning id) : host.isRunning id := by
  induction runs generalizing host with
  | nil => exact h
  | cons run runs ih => exact isRunning_of_killRun (ih h)

end Host

namespace Engine

variable {α : Type}

/-- No process goes, and none runs that did not run before. -/
def Tidy (before after : Engine α) : Prop :=
  before.started ≤ after.started ∧ ∀ id, after.host.isRunning id → before.host.isRunning id

instance : IsPreorder (Engine α) Tidy where
  refl _ := ⟨Nat.le_refl _, fun _ h => h⟩
  trans _ _ _ hab hbc := ⟨Nat.le_trans hab.1 hbc.1, fun id h => hab.2 id (hbc.2 id h)⟩

/-- Cancelling a token is tidy: it only kills. -/
theorem tidy_cancelToken {before engine : Engine α} (same : engine.host = before.host)
    (token : TokenId) : Tidy before (engine.cancelToken token) := by
  refine ⟨?_, fun id h => ?_⟩
  · refine Nat.le_of_eq ?_
    rw [started_cancelToken, started, started, same]
  · rw [← same]
    unfold cancelToken at h
    split at h
    · exact h
    · exact Host.isRunning_of_foldl_killRun h

/-- Every change that a request makes is tidy. -/
theorem tidy_of_change (before after : Engine α) (change : Change before after) :
    Tidy before after := by
  cases change with
  | elsewhere same =>
    refine ⟨Nat.le_of_eq (by simp [started, same.processes]), fun id h => ?_⟩
    simpa [Host.isRunning, Host.process?, same.processes] using h
  | opened database idle => exact ⟨Nat.le_refl _, fun _ h => h⟩
  | begun id =>
    simp only [beginCompilation]
    split
    · exact tidy_cancelToken (by rfl) _
    · exact ⟨Nat.le_refl _, fun _ h => h⟩
  | ended id token => exact ⟨Nat.le_refl _, fun _ h => h⟩
  | cancelled token => exact tidy_cancelToken rfl token

/-- What a run does to its processes is tidy. -/
theorem tidy_of_act {first : Nat} (before after : Engine α) (act : Act first before after) :
    Tidy before after := by
  refine ⟨Nat.le_of_eq act.started_eq.symm, fun id h => ?_⟩
  cases act with
  | finished => exact Host.isRunning_of_modify before.host rfl (by simp) h
  | answered => exact Host.isRunning_of_modify before.host rfl (by simp) h
  | killed => exact Host.isRunning_of_kill h
  | received => exact Host.isRunning_of_modify before.host rfl (by simp) h
  | registered token run =>
    unfold registerRun at h
    split at h
    · exact h
    · dsimp only at h
      split at h
      · exact Host.isRunning_of_killRun h
      · exact h
  | unregistered => exact h

/-- A start adds one process that runs. -/
theorem tidy_starts {before after : Engine α} (start : Starts before after) {id : ProcessId}
    (h : after.host.isRunning id) : before.host.isRunning id ∨ id = before.started := by
  obtain ⟨process, rfl⟩ := start
  simp only [Host.isRunning, Host.process?, List.getElem?_append] at h
  split at h
  · exact .inl h
  case isFalse hid =>
    refine .inr (Nat.le_antisymm ?_ (Nat.not_lt.1 hid))
    by_contra hlater
    rw [List.getElem?_eq_none (by simp [started] at hlater ⊢; omega)] at h
    cases h

end Engine

/-! ### Runs -/

namespace Task

open Engine

variable {α : Type} {task : Task α} {point next : Point} {engine later : Engine α}
variable (fires : ∀ executable moment engine, Tidy engine (task.fire executable moment engine))
include fires

/-- A run drops only processes that it has stopped. -/
theorem Step.stopped (step : task.Step point engine next later) {id : ProcessId}
    (held : id ∈ point.processes) (h : later.host.isRunning id) : id ∈ next.processes := by
  -- a process that has been cleaned up does not run
  have hcleanUp : ∀ other, ((cleanUp task.fire other).run engine).2.host.isRunning id →
      id ≠ other := by
    rintro other hrunning rfl
    have hkilled := (respects_awaitExit fires id { engine with host := engine.host.kill id }).2 id
      hrunning
    rw [Host.isRunning_kill_self] at hkilled
    cases hkilled
  cases step with
  | translating step =>
    rw [step.processes_eq]
    exact held
  -- the demangler is stopped first, the compiler is still held then
  | stopDemangler =>
    rcases List.mem_cons.1 held with hcompiler | hdemangler
    · exact List.mem_singleton.2 hcompiler
    · exact absurd (List.mem_singleton.1 hdemangler) (hcleanUp _ h)
  | stopCompiler => exact absurd (List.mem_singleton.1 held) (hcleanUp _ h)
  | nameNotText | demanglerNotStarted | register | unregister => exact held
  | demanglerStarted => exact List.mem_cons.2 (.inl (List.mem_singleton.1 held))
  | _ => exact absurd held List.not_mem_nil

/-- Nothing else runs after a step than before, but for a process that it starts. -/
theorem Step.running (step : task.Step point engine next later) (own : point.OwnedFrom 0 engine)
    {id : ProcessId} (h : later.host.isRunning id) (free : id ∉ next.processes) :
    engine.host.isRunning id := by
  -- a step that starts nothing is tidy, so what runs after it ran before
  have hstill : ¬point.Starting → engine.host.isRunning id := fun hstarting =>
    (respects_step (R := Tidy) (fun _ _ same => tidy_of_change _ _ (.elsewhere same.sameRuns)) fires
      tidy_of_act (fun starting => absurd starting hstarting) own step).2 id h
  -- a step that starts a process holds it from then on
  have hstart : ∀ other started, Starts engine started → other ∈ next.processes →
      other = engine.started →
      later = started.after (interfere task.fire other .spawned) → engine.host.isRunning id := by
    rintro other started hstarts hmem rfl rfl
    have hbefore := (respects_interfere fires engine.started .spawned started).2 id h
    rcases tidy_starts hstarts hbefore with hold | rfl
    · exact hold
    · exact absurd hmem free
  cases step with
  | compilerStarted started =>
    obtain ⟨hid, hstarts⟩ := starts_of_start started
    exact hstart _ _ hstarts (List.mem_singleton_self _) hid rfl
  | demanglerStarted text started =>
    obtain ⟨hid, hstarts⟩ := starts_of_start started
    exact hstart _ _ hstarts (by simp [Point.processes]) hid rfl
  | compilerNotStarted | nameNotText | demanglerNotStarted => exact h
  | _ => exact hstill not_false

/-- **What runs at a moment of a run ran before it, or will be stopped by it.** -/
theorem timeline_running (begun : Engine α) (n : Nat) (id : ProcessId)
    (h : (task.timeline begun n).2.host.isRunning id) :
    begun.host.isRunning id ∨ id ∈ (task.timeline begun n).1.processes := by
  induction n with
  | zero => exact .inl h
  | succ n ih =>
    rw [timeline_succ] at h ⊢
    have hstep := step_spec task (task.timeline begun n).1 (task.timeline begun n).2
    have hown := (timeline_owned (fun _ _ _ => (fires _ _ _).1) begun n).2
    by_cases hnext : id ∈ (task.step (task.timeline begun n)).1.processes
    · exact .inr hnext
    · have hrunning := hstep.running fires (fun other hother =>
        ⟨Nat.zero_le other, (hown other hother).2⟩) h hnext
      rcases ih hrunning with hbegun | hheld
      · exact .inl hbegun
      · exact absurd (hstep.stopped fires hheld h) hnext

/-- What a run leaves running ran before it. -/
theorem tidy_compile (begun : Engine α) : Tidy begun (begun.after task.compile) := by
  obtain ⟨n, hn⟩ := exists_timeline_finished task begun
  refine ⟨?_, fun id h => ?_⟩
  · have hgrows := (timeline_owned (fun _ _ _ => (fires _ _ _).1) begun n).1
    rwa [hn] at hgrows
  · rcases timeline_running fires begun n id (by rwa [hn]) with hbegun | hheld
    · exact hbegun
    · rw [hn] at hheld
      cases hheld

end Task

namespace Engine

variable {α : Type} {fire : Interference α}

/-- A run is tidy if what others do at its moments is. -/
theorem tidy_run (fires : ∀ executable moment engine, Tidy engine (fire executable moment engine))
    (id : DatabaseId) (source : String) (override : Option (List String)) :
    Respects Tidy (run fire id source override) :=
  Task.respects_run_of tidy_of_change fun _ hfire => Task.tidy_compile (hfire ▸ fires)

end Engine

namespace Scenario

open Engine

/-- What scripts do is tidy. -/
theorem tidy_interference (depth : Nat) (executable : String) (moment : Moment) (stage : Stage) :
    Tidy stage (interference depth executable moment stage) :=
  respects_interference tidy_of_change (fun _ fires => tidy_run fires) depth executable moment stage

/-- Every step of a session is tidy. -/
theorem tidy_perform (depth : Nat) (step : EngineStep) :
    Respects Tidy (perform (interference depth) step) :=
  respects_perform tidy_of_change (tidy_run (tidy_interference depth)) step

/-- **No process outlives its run.** Whatever programs a run starts, whatever is done meanwhile and
on whatever path it ends, all processes that were started since it began have ended then. So in a
session that starts with no process running none is running after any of its steps. -/
theorem no_process_outlives_run (depth : Nat) (stage : Stage) (id : DatabaseId) (source : String)
    (override : Option (List String)) :
    (∀ pid process, stage.started ≤ pid →
      (stage.after (run (interference depth) id source override)).host.process? pid =
        some process → process.code?.isSome) ∧
    ∀ steps : List EngineStep, (∀ pid, stage.isRunning pid = false) →
      ∀ pid, (afterSteps steps stage).isRunning pid = false := by
  refine ⟨fun pid process hpid hprocess => ?_, fun steps hquiet pid => ?_⟩
  · rw [Process.isSome_code?_iff]
    by_contra hrunning
    have hbefore := (tidy_run (tidy_interference depth) id source override stage).2 pid
      (by simpa [Host.isRunning, hprocess] using hrunning)
    -- a process that ran before the run has a number below those that it started
    rw [Host.isRunning, Host.process?, List.getElem?_eq_none hpid] at hbefore
    cases hbefore
  · have htidy := respects_afterSteps tidy_of_change tidy_perform steps stage
    rw [← Bool.not_eq_true]
    intro hrunning
    exact Bool.eq_false_iff.1 (hquiet pid) (htidy.2 pid hrunning)

/-- A run of the sample leaves two processes, which have both ended. -/
theorem no_process_outlives_run_sample :
    (∀ pid process, sampleStage.started ≤ pid →
      (sampleStage.after (run (interference 0) 0 "a" none)).host.process? pid =
        some process → process.code?.isSome) ∧
    (∀ pid, sampleStage.isRunning pid = false) ∧
      ∀ pid, (afterSteps [.run 0 "a" none, .shutdown] sampleStage).isRunning pid = false :=
  have hall := no_process_outlives_run 0 sampleStage 0 "a" none
  ⟨hall.1, fun _ => rfl, hall.2 [.run 0 "a" none, .shutdown] fun _ => rfl⟩

end Scenario

end AsmScope
