import AsmScope.Proofs.Watching
/-! # What a run launches

The argument vector with which a process was started stays, whatever becomes of the process, so the
vectors of a machine only become more (`Extends`). The first program that a run starts is the one of
its invocation. Where nothing is started, the run fails for one of three reasons
(`Engine.Launching`). -/

namespace AsmScope

/-- The argument vector with which a process was started. -/
def Process.vector (process : Process) : List String := process.executable :: process.arguments

/-- The end of a process leaves its argument vector. -/
@[simp] theorem Process.vector_finish (process : Process) :
    process.finish.vector = process.vector := by
  unfold finish
  split <;> rfl

/-- Killing a process leaves its argument vector. -/
@[simp] theorem Process.vector_kill (process : Process) : process.kill.vector = process.vector := by
  unfold kill
  split
  · exact vector_finish process
  · split <;> rfl

/-- The end of the input of a process leaves its argument vector. -/
@[simp] theorem Process.vector_endInput (process : Process) :
    process.endInput.vector = process.vector := by
  unfold endInput
  split
  · exact vector_finish process
  · rfl

/-- The argument vectors of all processes, in the order in which they were started. -/
def Host.launched (host : Host) : List (List String) := host.processes.map Process.vector

namespace Host

variable (host : Host)

/-- A change of one process that leaves its vector leaves what was launched. -/
theorem launched_modifyProcess (id : ProcessId) {f : Process → Process}
    (same : ∀ process, (f process).vector = process.vector) :
    (host.modifyProcess id f).launched = host.launched := by
  refine List.ext_getElem? fun other => ?_
  simp only [launched, modifyProcess, List.getElem?_map, List.getElem?_modify]
  cases host.processes[other]? with
  | none => rfl
  | some process =>
    by_cases hother : id = other
    · simp [hother, same]
    · simp [hother]

/-- The end of a process leaves what was launched. -/
@[simp] theorem launched_finish (id : ProcessId) : (host.finish id).launched = host.launched :=
  host.launched_modifyProcess id Process.vector_finish

/-- The end of the input of a process leaves what was launched. -/
@[simp] theorem launched_endInput (id : ProcessId) : (host.endInput id).launched = host.launched :=
  host.launched_modifyProcess id Process.vector_endInput

/-- Killing a process leaves what was launched. -/
@[simp] theorem launched_kill (id : ProcessId) : (host.kill id).launched = host.launched :=
  host.launched_modifyProcess id Process.vector_kill

/-- Killing the processes of a run leaves what was launched. -/
@[simp] theorem launched_killRun (run : RunProcesses) :
    (Engine.killRun host run).launched = host.launched := by
  simp [Engine.killRun]

/-- Killing the processes of many runs leaves what was launched. -/
@[simp] theorem launched_foldl_killRun (runs : List RunProcesses) :
    (runs.foldl Engine.killRun host).launched = host.launched := by
  induction runs generalizing host with
  | nil => rfl
  | cons run runs ih => rw [List.foldl_cons, ih, launched_killRun]

end Host

namespace Engine

variable {α : Type}

/-- The argument vectors of all processes, in the order in which they were started. -/
def launched (engine : Engine α) : List (List String) := engine.host.launched

/-- Nothing that was launched before is forgotten or changed. -/
def Extends (before after : Engine α) : Prop := before.launched <+: after.launched

instance : IsPreorder (Engine α) Extends where
  refl _ := List.prefix_refl _
  trans _ _ _ := List.IsPrefix.trans

/-- Where the same was launched nothing is forgotten. -/
theorem Extends.of_eq {before after : Engine α} (same : after.launched = before.launched) :
    Extends before after :=
  ⟨[], (List.append_nil _).trans same.symm⟩

/-- Cancelling a token launches nothing. -/
theorem launched_cancelToken (engine : Engine α) (token : TokenId) :
    (engine.cancelToken token).launched = engine.launched := by
  unfold cancelToken
  split
  · rfl
  · exact Host.launched_foldl_killRun _ _

/-- Where the runs in progress are the same nothing was launched. -/
theorem SameRuns.launched_eq {before after : Engine α} (same : before.SameRuns after) :
    after.launched = before.launched := by
  rw [launched, Host.launched, same.processes, launched, Host.launched]

/-- No request but a run launches anything. -/
theorem Change.launched_eq {before after : Engine α} (change : Change before after) :
    after.launched = before.launched := by
  cases change with
  | elsewhere same => exact same.launched_eq
  | opened | ended => rfl
  | begun id =>
    simp only [beginCompilation]
    split
    · exact launched_cancelToken _ _
    · rfl
  | cancelled token => exact launched_cancelToken _ token

/-- What a run does to its processes launches nothing. -/
theorem Act.launched_eq {first : Nat} {before after : Engine α} (act : Act first before after) :
    after.launched = before.launched := by
  cases act with
  | finished id => exact before.host.launched_finish id
  | answered id => exact before.host.launched_endInput id
  | killed id => exact before.host.launched_kill id
  | received id chunk => exact before.host.launched_modifyProcess id fun _ => rfl
  | registered token run =>
    unfold registerRun
    split
    · rfl
    · dsimp only [launched]
      split
      · exact before.host.launched_killRun run
      · rfl
  | unregistered => rfl

/-- A process that is added is launched last. -/
theorem launched_addProcess (engine : Engine α) (process : Process) :
    (engine.addProcess process).launched = engine.launched ++ [process.vector] := by
  simp [addProcess, launched, Host.launched]

/-- **What was launched stays**, whatever is requested or run. -/
theorem Extends.allows (first : Nat) : Allows first (Extends : Engine α → Engine α → Prop) where
  change _ _ change := .of_eq change.launched_eq
  act _ _ act := .of_eq act.launched_eq
  start before _ _ start := by
    obtain ⟨process, rfl⟩ := start
    exact ⟨[process.vector], (launched_addProcess before process).symm⟩

/-- How a run goes whose invocation is known: what it launches first is the invocation. If it
launches nothing, it has failed because the stopwatch or the name of a demangler cannot be read, or
because the compiler cannot be started. -/
inductive Launching (engine : Engine α) (invocation : Invocation) :
    Except Failure String → Engine α → Prop
  | started {result : Except Failure String} {later : Engine α}
      (first : engine.launched ++ [invocation.vector] <+: later.launched) :
      Launching engine invocation result later
  | unreadable {later : Engine α} (nothing : later.launched = engine.launched) :
      Launching engine invocation (.error .beyondFormat) later
  | notLocated {later : Engine α} (nothing : later.launched = engine.launched) :
      Launching engine invocation (.error .settingNotText) later
  | notStarted {error : SystemError} {later : Engine α}
      (nothing : later.launched = engine.launched) :
      Launching engine invocation (.error (.spawn .compiler invocation.executable error)) later

end Engine

namespace Task

open Engine

variable {α : Type} {task : Task α} {begun engine later : Engine α} {next : Point}
  {invocation : Invocation}

/-- Where a run is over, it has its answer and its engine. -/
theorem compile_of_finished {n : Nat} {outcome : Except Failure String}
    (ended : task.timeline begun n = (.finished outcome, later)) :
    begun.result task.compile = outcome ∧ begun.after task.compile = later := by
  obtain ⟨last, hlast⟩ := exists_timeline_finished task begun
  have hsame := timeline_eq_of_le ended (Nat.le_max_left n last)
  rw [timeline_eq_of_le hlast (Nat.le_max_right n last)] at hsame
  obtain ⟨hpoint, hengine⟩ := Prod.mk.inj hsame
  exact ⟨Point.finished.inj hpoint, hengine⟩

/-- The only thing that can go wrong before the compiler is started is the name of a demangler. -/
theorem failure_of_announce {failure : Failure}
    (failed : engine.result (announce invocation) = .error failure) :
    failure = .settingNotText := by
  rw [announce, result_bind] at failed
  cases hlocate : engine.result (locateDemangler invocation.executable) with
  | ok demangler =>
    rw [hlocate] at failed
    cases failed
  | error other =>
    rw [hlocate] at failed
    obtain rfl : other = failure := Except.error.inj failed
    rw [locateDemangler, result_get_bind] at hlocate
    dsimp only at hlocate
    rw [result_set_bind] at hlocate
    split at hlocate
    · cases hlocate
    · exact (Except.error.inj hlocate).symm

/-- What the first step of a run comes to whose invocation is known. -/
theorem Step.of_prepare (step : task.Step .prepare engine next later)
    (built : Invocation.build? task.command (engine.host.absolute task.source) task.override
      engine.rewrites = some invocation) :
    later.launched = engine.launched ∧ (next = .finished (.error .settingNotText) ∨
      ∃ demangler, next = .startCompiler invocation demangler) := by
  cases step with
  | empty none =>
    rw [none] at built
    cases built
  | @notLocated _ other failure found failed =>
    obtain rfl : other = invocation := Option.some.inj (found.symm.trans built)
    rw [failure_of_announce failed]
    exact ⟨(sameRuns_announce _ engine).launched_eq, .inl rfl⟩
  | @prepared _ other demangler found located =>
    obtain rfl : other = invocation := Option.some.inj (found.symm.trans built)
    exact ⟨(sameRuns_announce _ engine).launched_eq, .inr ⟨demangler, rfl⟩⟩

/-- What the step that starts the compiler comes to. -/
theorem Step.of_startCompiler {demangler : Json}
    (fires : ∀ executable moment engine, Extends engine (task.fire executable moment engine))
    (step : task.Step (.startCompiler invocation demangler) engine next later) :
    engine.launched ++ [invocation.vector] <+: later.launched ∨
      later = engine ∧
        ∃ error, next = .finished (.error (.spawn .compiler invocation.executable error)) := by
  cases step with
  | compilerNotStarted => exact .inr ⟨rfl, _, rfl⟩
  | compilerStarted started =>
    obtain ⟨program, -, -, rfl, hhost⟩ := exists_of_start started
    rw [hhost]
    refine .inl ?_
    -- the rest of the program acts once the compiler is there
    have hspawned := respects_interfere fires engine.started .spawned (engine.addProcess
      { program, executable := invocation.executable, arguments := invocation.arguments,
        directory := engine.compilerDirectory task.command,
        environment := engine.compilerEnvironment, input := none })
    rw [Extends, launched_addProcess] at hspawned
    exact hspawned

end Task

namespace Engine

open AsmScope.Task

variable {α : Type} {engine begun : Engine α} {fire : Interference α} {id : DatabaseId}
  {source : String} {override : Option (List String)} {task : Task α}

/-- What was launched at the end of a run that has begun was launched by its programs. -/
theorem Begins.launched_after_run (begins : engine.Begins fire id source override task begun) :
    (engine.after (run fire id source override)).launched =
      (begun.after task.compile).launched := by
  rw [begins.after_run, (Change.ended id task.token).launched_eq]
  exact (sameRuns_reportOutcome _ source _).launched_eq

/-- Where the stopwatch cannot be read nothing is done. -/
theorem after_timed_of_unreadable {β : Type} (action : Action α β)
    (unreadable : engine.host.seconds? = none) : engine.after (timed action) = engine := by
  rw [timed, after_bind, result_readStopwatch, after_readStopwatch, unreadable]

/-- Beginning a compilation launches nothing. -/
theorem launched_of_begin {token : TokenId} (start : engine.beginCompilation id = (token, begun)) :
    begun.launched = engine.launched := by
  have hbegun : (engine.beginCompilation id).2.launched = engine.launched :=
    (Change.begun id).launched_eq
  rwa [start] at hbegun

/-- Cancelling a token leaves the rewrites as they are. -/
theorem rewrites_cancelToken (engine : Engine α) (token : TokenId) :
    (engine.cancelToken token).rewrites = engine.rewrites := by
  unfold cancelToken
  split <;> rfl

/-- What an invocation depends on stays when a compilation begins. -/
theorem frame_of_begin {token : TokenId} (start : engine.beginCompilation id = (token, begun)) :
    begun.host.directory = engine.host.directory ∧ begun.rewrites = engine.rewrites := by
  have hfiles := SameFiles.begin engine id
  rw [start] at hfiles
  refine ⟨hfiles.directory, ?_⟩
  have hbegun : (engine.beginCompilation id).2 = begun := by rw [start]
  rw [← hbegun]
  simp only [beginCompilation]
  split
  · exact rewrites_cancelToken _ _
  · rfl

section Launching

variable (fires : ∀ executable moment engine, Extends engine (fire executable moment engine))
include fires

/-- What a run has launched at one of its moments it has launched at its end. -/
theorem Begins.extends_after_run (begins : engine.Begins fire id source override task begun)
    (n : Nat) : (task.timeline begun n).2.launched <+:
      (engine.after (run fire id source override)).launched := by
  have hfrom : ∀ executable moment engine,
      From 0 Extends engine (task.fire executable moment engine) := by
    intro executable moment engine _
    rw [begins.fire]
    have hextends := fires executable moment engine
    have hlength := hextends.length_le
    simp only [launched, Host.launched, List.length_map] at hlength
    exact ⟨hlength, hextends⟩
  obtain ⟨last, hlast⟩ := exists_timeline_finished task begun
  have hrest : Extends (task.timeline begun n).2 (task.timeline begun (max n last)).2 :=
    (timeline_respects_of_le (Extends.allows 0) hfrom (Nat.zero_le _) (Nat.le_max_left n last)
      (Nat.zero_le _)).2
  rw [timeline_eq_of_le hlast (Nat.le_max_right n last)] at hrest
  rw [begins.launched_after_run]
  exact hrest

/-- **What a run launches.** Its compiler comes first, with the vector of the invocation. -/
theorem launching_run {command : CompileCommand} {invocation : Invocation}
    (found : engine.lookup id source = some command)
    (built : Invocation.build? command (engine.host.absolute source) override engine.rewrites =
      some invocation) :
    engine.Launching invocation (engine.result (run fire id source override))
      (engine.after (run fire id source override)) := by
  cases hstart : engine.beginCompilation id with
  | mk token begun =>
    have hlaunched := launched_of_begin hstart
    obtain ⟨hdirectory, hrewrites⟩ := frame_of_begin hstart
    cases hseconds : begun.host.seconds? with
    | none =>
      rw [result_run_of_unreadable found hstart hseconds]
      refine .unreadable ?_
      rw [after_run_of_start found hstart, after_timed_of_unreadable _ hseconds,
        (Change.ended id token).launched_eq, (sameRuns_reportOutcome begun source _).launched_eq,
        hlaunched]
    | some seconds =>
      have begins : engine.Begins fire id source override _ begun :=
        begins_of_readable found hstart hseconds
      generalize htask : (⟨fire, token, command, source, override⟩ : Task α) = task at begins
      have hbuilt : Invocation.build? task.command (begun.host.absolute task.source) task.override
          begun.rewrites = some invocation := by
        subst htask
        rw [Host.absolute, hdirectory, hrewrites]
        exact built
      -- the run ends before or at the step that starts its compiler, or it has launched it then
      have hends : ∀ n failure, (task.timeline begun n).1 = .finished (.error failure) →
          (task.timeline begun n).2.launched = begun.launched →
          engine.result (run fire id source override) = .error failure ∧
            (engine.after (run fire id source override)).launched = engine.launched := by
        intro n failure hpoint hsame
        obtain ⟨hresult, hafter⟩ := compile_of_finished (Prod.ext hpoint rfl)
        refine ⟨begins.result_run_of_error hresult, ?_⟩
        rw [begins.launched_after_run, hafter, hsame, hlaunched]
      obtain ⟨hsame, hfailed | ⟨demangler, hprepared⟩⟩ :=
        (timeline_step task begun 0).of_prepare hbuilt
      · obtain ⟨hresult, hnothing⟩ := hends 1 _ hfailed hsame
        rw [hresult]
        exact .notLocated hnothing
      · have hstep := timeline_step task begun 1
        rw [hprepared] at hstep
        rcases hstep.of_startCompiler (begins.fire ▸ fires) with hfirst | ⟨hlater, error, hfailed⟩
        · rw [hsame] at hfirst
          refine .started ?_
          rw [← hlaunched]
          exact hfirst.trans (begins.extends_after_run fires 2)
        · obtain ⟨hresult, hnothing⟩ := hends 2 _ hfailed (by rw [hlater]; exact hsame)
          rw [hresult]
          exact .notStarted hnothing

end Launching

end Engine

end AsmScope
