import AsmScope.Proofs.Requests
import AsmScope.Proofs.Runs
import AsmScope.Proofs.Steps
/-! # Runs as chains of acts

Beside the changes that every request makes, a run starts processes, registers them with its token
and lets them receive, answer, end or be killed. It does the latter to its own processes only, which
are numbered after all processes that were there when it began. `Act first` lists these acts for
processes from the number `first` on.

So a reflexive and transitive relation that contains the changes, the acts from `first` on and the
starting of processes holds between the engine before and after any run, request or script, once
`first` processes have been started (`respects_run`, `respects_interference_from`). -/

namespace AsmScope

/-- Both processes of a run are numbered from `first` on. -/
def RunProcesses.OwnedFrom (run : RunProcesses) (first : Nat) : Prop :=
  first ≤ run.compiler ∧ first ≤ run.demangler

/-- Both processes of a run were started on this host. -/
def RunProcesses.StartedIn (run : RunProcesses) (host : Host) : Prop :=
  run.compiler < host.processes.length ∧ run.demangler < host.processes.length

namespace Engine

variable {α : Type}

/-- What a run does to processes from a number on, one thing at a time. -/
inductive Act (first : Nat) : Engine α → Engine α → Prop
  /-- A process ends by itself, if it was running. -/
  | finished {engine : Engine α} (id : ProcessId) (own : first ≤ id) :
      Act first engine { engine with host := engine.host.finish id }
  /-- The input of a process is closed. -/
  | answered {engine : Engine α} (id : ProcessId) (own : first ≤ id) :
      Act first engine { engine with host := engine.host.endInput id }
  /-- A process is killed. -/
  | killed {engine : Engine α} (id : ProcessId) (own : first ≤ id) :
      Act first engine { engine with host := engine.host.kill id }
  /-- A process that runs receives a chunk. -/
  | received {engine : Engine α} (id : ProcessId) (chunk : Bytes) (own : first ≤ id)
      (running : engine.isRunning id) :
      Act first engine
        { engine with host := engine.host.modifyProcess id fun p => p.receive chunk }
  /-- Two processes that were started are registered with a token. -/
  | registered {engine : Engine α} (token : TokenId) (run : RunProcesses)
      (own : run.OwnedFrom first) (started : run.StartedIn engine.host) :
      Act first engine (engine.registerRun token run)
  /-- A registration is taken back. -/
  | unregistered {engine : Engine α} (token : TokenId) (run : RunProcesses) :
      Act first engine (engine.unregisterRun token run)

/-- One more process is there, after all others. -/
def Starts (before after : Engine α) : Prop :=
  ∃ process : Process, after =
    { before with host := { before.host with processes := before.host.processes ++ [process] } }

/-- How many processes were started. -/
def started (engine : Engine α) : Nat := engine.host.processes.length

/-- A relation allows what requests do, and what runs do to processes from a number on. -/
structure Allows (first : Nat) (R : Engine α → Engine α → Prop) : Prop where
  change : ∀ before after, Change before after → R before after
  act : ∀ before after, Act first before after → R before after
  start : ∀ before after, first ≤ before.started → Starts before after → R before after

/-- A relation between engines in which a number of processes were started; none of them goes. -/
def From (first : Nat) (R : Engine α → Engine α → Prop) (before after : Engine α) : Prop :=
  first ≤ before.started → before.started ≤ after.started ∧ R before after

instance (first : Nat) (R : Engine α → Engine α → Prop) [IsPreorder (Engine α) R] :
    IsPreorder (Engine α) (From first R) where
  refl _ _ := ⟨Nat.le_refl _, Std.Refl.refl _⟩
  trans _ _ _ hab hbc h :=
    have hb := hab h
    have hc := hbc (Nat.le_trans h hb.1)
    ⟨Nat.le_trans hb.1 hc.1, IsTrans.trans _ _ _ hb.2 hc.2⟩

/-! ### The number of processes -/

/-- No process goes. -/
def Grows (before after : Engine α) : Prop := before.started ≤ after.started

instance : IsPreorder (Engine α) Grows where
  refl _ := Nat.le_refl _
  trans _ _ _ := Nat.le_trans

/-- Killing the processes of a run starts none. -/
@[simp] theorem length_killRun (host : Host) (run : RunProcesses) :
    (killRun host run).processes.length = host.processes.length := by
  simp [killRun, Host.kill, Host.modifyProcess]

/-- Killing the processes of many runs starts none. -/
@[simp] theorem length_foldl_killRun (runs : List RunProcesses) (host : Host) :
    (runs.foldl killRun host).processes.length = host.processes.length := by
  induction runs generalizing host with
  | nil => rfl
  | cons run runs ih => rw [List.foldl_cons, ih, length_killRun]

/-- Cancelling a token starts no process. -/
@[simp] theorem started_cancelToken (engine : Engine α) (token : TokenId) :
    (engine.cancelToken token).started = engine.started := by
  unfold cancelToken
  split
  · rfl
  · simp [started]

/-- A change of the books starts no process. -/
theorem Change.started_eq {before after : Engine α} (change : Change before after) :
    after.started = before.started := by
  cases change with
  | elsewhere same => simp [started, same.processes]
  | opened database idle => rfl
  | begun id =>
    simp only [beginCompilation]
    split
    · rw [started_cancelToken]; rfl
    · rfl
  | ended id token => rfl
  | cancelled token => exact started_cancelToken _ token

/-- An act of a run that is under way starts no process. -/
theorem Act.started_eq {first : Nat} {before after : Engine α}
    (act : Act first before after) : after.started = before.started := by
  cases act with
  | finished => simp [started, Host.finish, Host.modifyProcess]
  | answered => simp [started, Host.endInput, Host.modifyProcess]
  | killed => simp [started, Host.kill, Host.modifyProcess]
  | received => simp [started, Host.modifyProcess]
  | registered token run =>
    unfold registerRun
    split
    · rfl
    · dsimp only [started]
      split <;> simp
  | unregistered => rfl

/-- A start adds one process. -/
theorem Starts.started_eq {before after : Engine α} (start : Starts before after) :
    after.started = before.started + 1 := by
  obtain ⟨process, rfl⟩ := start
  simp [started]

/-- An act of a run leaves what is in front of the engine as it is. -/
theorem Act.front_eq {first : Nat} {before after : Engine α} (act : Act first before after) :
    after.front = before.front := by
  cases act with
  | registered token run =>
    unfold registerRun
    split <;> rfl
  | _ => rfl

/-- A start leaves what is in front of the engine as it is. -/
theorem Starts.front_eq {before after : Engine α} (start : Starts before after) :
    after.front = before.front := by
  obtain ⟨process, rfl⟩ := start
  rfl

/-- The engine with one more process. -/
def addProcess (engine : Engine α) (process : Process) : Engine α :=
  { engine with host := { engine.host with processes := engine.host.processes ++ [process] } }

/-- Adding a process is a start. -/
theorem starts_addProcess (engine : Engine α) (process : Process) :
    Starts engine (engine.addProcess process) := ⟨process, rfl⟩

/-- A program that is started runs as the process after all others. -/
theorem exists_of_start {engine : Engine α} {executable : String} {arguments : List String}
    {directory : Option String} {environment : Option (Table String String)} {piped : Bool}
    {id : ProcessId} {host : Host}
    (h : engine.host.start executable arguments directory environment piped = .ok (id, host)) :
    ∃ program, engine.host.programs.get? executable = some program ∧ program.spawnError = none ∧
      id = engine.started ∧ { engine with host } = engine.addProcess
        { program, executable, arguments, directory, environment,
          input := if piped then some [] else none } := by
  unfold Host.start at h
  split at h
  · cases h
  · next program hprogram =>
    split at h
    · cases h
    · next hspawn =>
      cases h
      exact ⟨program, hprogram, hspawn, rfl, rfl⟩

/-- A process is started after all others. -/
theorem starts_of_start {engine : Engine α} {executable : String} {arguments : List String}
    {directory : Option String} {environment : Option (Table String String)} {piped : Bool}
    {id : ProcessId} {host : Host}
    (h : engine.host.start executable arguments directory environment piped = .ok (id, host)) :
    id = engine.started ∧ Starts engine { engine with host } := by
  obtain ⟨program, -, -, hid, hhost⟩ := exists_of_start h
  exact ⟨hid, hhost ▸ starts_addProcess engine _⟩

end Engine

/-! ### Who owns which processes -/

/-- The processes that a run has started and not yet stopped. -/
def Point.processes : Point → List ProcessId
  | .prepare | .startCompiler .. | .finished _ => []
  | .startDemangler _ _ compiler | .stopCompiler compiler _ => [compiler]
  | .register pair | .translating pair _ | .unregister pair _ => [pair.compiler, pair.demangler]
  | .stopDemangler processes _ => [processes.compiler, processes.demangler]

/-- The next step starts a process. -/
def Point.Starting : Point → Prop
  | .startCompiler .. | .startDemangler .. => True
  | _ => False

/-- The processes of a run are there, numbered from `first` on. -/
def Point.OwnedFrom (first : Nat) {α : Type} (point : Point) (engine : Engine α) : Prop :=
  ∀ id ∈ point.processes, first ≤ id ∧ id < engine.started

/-- The two processes of a run are its own if each of them is. -/
theorem Point.ownedFrom_pair {first : Nat} {run : RunProcesses} {α : Type}
    {engine : Engine α} :
    (∀ id ∈ [run.compiler, run.demangler], first ≤ id ∧ id < engine.started) ↔
      (first ≤ run.compiler ∧ run.compiler < engine.started) ∧
        (first ≤ run.demangler ∧ run.demangler < engine.started) := by
  simp

namespace Task

open Engine

variable {α : Type} {task : Task α} {pair : Pair} {passage : Passage} {point next : Point}
  {engine later : Engine α}

/-- In the midst of the translation the processes of a run are its two. -/
theorem PassageStep.processes_eq (step : task.PassageStep pair passage engine next later) :
    next.processes = [pair.compiler, pair.demangler] := by
  cases step <;> rfl

/-- A step only adds the process that it starts, and lets the rest of the program act then. -/
theorem Step.mem_processes (step : task.Step point engine next later) {id : ProcessId}
    (h : id ∈ next.processes) :
    id ∈ point.processes ∨ id = engine.started ∧
      ∃ started, Starts engine started ∧
        later = started.after (interfere task.fire id .spawned) := by
  cases step with
  | compilerStarted started =>
    obtain rfl : id = _ := List.mem_singleton.1 h
    obtain ⟨hid, hstarts⟩ := starts_of_start started
    exact .inr ⟨hid, _, hstarts, rfl⟩
  | demanglerStarted text started =>
    -- the compiler was there, the demangler is new
    rcases List.mem_cons.1 h with hold | hnew
    · exact .inl (List.mem_singleton.2 hold)
    · obtain rfl : id = _ := List.mem_singleton.1 hnew
      obtain ⟨hid, hstarts⟩ := starts_of_start started
      exact .inr ⟨hid, _, hstarts, rfl⟩
  | translating step =>
    rw [step.processes_eq] at h
    exact .inl h
  | stopDemangler => exact .inl (List.mem_cons.2 (.inl (List.mem_singleton.1 h)))
  | register | unregister | nameNotText | demanglerNotStarted => exact .inl h
  | _ => exact absurd h List.not_mem_nil

instance : IsPreorder (Engine α) SameRuns where
  refl _ := ⟨rfl, rfl, rfl, rfl⟩
  trans _ _ _ hab hbc := ⟨hbc.programs.trans hab.programs, hbc.processes.trans hab.processes,
    hbc.tokens.trans hab.tokens, hbc.active.trans hab.active⟩

/-- Announcing what will be run leaves processes, tokens and databases as they are. -/
theorem aside_announce (invocation : Invocation) :
    Respects Aside (announce invocation : Action α Json) :=
  .bind (aside_locateDemangler invocation.executable) fun _ =>
    .bind (.modify_of fun engine => aside_appendLine engine _) fun _ =>
      .bind (.modify_of fun engine => aside_appendLine engine _) fun _ => .pure_of _

/-- Announcing what will be run leaves the runs in progress the same. -/
theorem sameRuns_announce (invocation : Invocation) :
    Respects SameRuns (announce invocation : Action α Json) :=
  fun engine => (aside_announce invocation engine).sameRuns

/-- Reporting how a run ended leaves processes, tokens and databases as they are. -/
theorem aside_reportOutcome (engine : Engine α) (source : String)
    (outcome : Except Failure (String × Binary64)) :
    Aside engine (reportOutcome source outcome engine) := by
  unfold reportOutcome
  split
  · exact aside_appendLine engine _
  case h_2 failure =>
    split
    · exact aside_log engine _ _ _
    · split
      · have hlog := aside_log engine .error "pipeline" failure.message
        have hline := aside_appendLine (engine.log .error "pipeline" failure.message)
          failure.message
        exact IsTrans.trans _ _ _ hlog (IsTrans.trans _ _ _ hline (aside_showOutput _))
      · exact aside_refl engine

/-- Reporting how a run ended leaves the runs in progress the same. -/
theorem sameRuns_reportOutcome (engine : Engine α) (source : String)
    (outcome : Except Failure (String × Binary64)) :
    engine.SameRuns (reportOutcome source outcome engine) :=
  (aside_reportOutcome engine source outcome).sameRuns

/-- Reporting what a process wrote to its error channel leaves processes, tokens and databases as
they are. -/
theorem aside_reportDiagnostics (engine : Engine α) (id : ProcessId) :
    Aside engine (engine.after (reportDiagnostics id)) := by
  rw [reportDiagnostics, after_get_bind]
  dsimp only
  generalize ((engine.host.process? id).map fun p => p.program.diagnostics).getD [] = bytes
  split
  · exact IsTrans.trans _ _ _ (aside_appendLine engine (Utf8.decodeReplacing bytes))
      (aside_showOutput _)
  · exact aside_refl engine

/-- Reporting what a process wrote leaves the runs in progress the same. -/
theorem sameRuns_reportDiagnostics (engine : Engine α) (id : ProcessId) :
    engine.SameRuns (engine.after (reportDiagnostics id)) :=
  (aside_reportDiagnostics engine id).sameRuns

/-! ### What a run does itself -/

/-- What a run does to processes and tokens at a point, besides starting programs and letting the
rest of the program act. -/
inductive Does (task : Task α) : Point → Engine α → Engine α → Prop
  /-- The compiler ends by itself. -/
  | ended {pair : Pair} {engine : Engine α} : Does task (.translating pair .ended) engine
      { engine with host := engine.host.finish pair.compiler }
  /-- The demangler, which runs, receives a chunk. -/
  | received {pair : Pair} {index : Nat} {chunk : Bytes} {rest : List Bytes} {engine : Engine α}
      (running : engine.isRunning pair.demangler) :
      Does task (.translating pair (.deliver index chunk rest)) engine
        { engine with host := engine.host.modifyProcess pair.demangler fun p => p.receive chunk }
  /-- The demangler's input is closed. -/
  | closed {pair : Pair} {engine : Engine α} : Does task (.translating pair .close) engine
      { engine with host := engine.host.endInput pair.demangler }
  /-- Both processes are registered with the token of the run. -/
  | registered {pair : Pair} {engine : Engine α} : Does task (.register pair) engine
      (engine.registerRun task.token pair.toRunProcesses)
  /-- The registration is taken back. -/
  | unregistered {pair : Pair} {outcome : Except Failure Bytes} {engine : Engine α} :
      Does task (.unregister pair outcome) engine
        (engine.unregisterRun task.token pair.toRunProcesses)
  /-- The demangler is killed. -/
  | demanglerKilled {processes : RunProcesses} {outcome : Except Failure Bytes}
      {engine : Engine α} : Does task (.stopDemangler processes outcome) engine
        { engine with host := engine.host.kill processes.demangler }
  /-- The compiler is killed. -/
  | compilerKilled {compiler : ProcessId} {outcome : Except Failure Bytes} {engine : Engine α} :
      Does task (.stopCompiler compiler outcome) engine
        { engine with host := engine.host.kill compiler }

/-- What a run does itself is an act on its own processes. -/
theorem Does.act {first : Nat} (does : task.Does point engine later)
    (own : point.OwnedFrom first engine) : Act first engine later := by
  have hpair : ∀ run : RunProcesses,
      (∀ id ∈ [run.compiler, run.demangler], first ≤ id ∧ id < engine.started) →
        run.OwnedFrom first ∧ run.StartedIn engine.host := by
    intro run howned
    obtain ⟨hcompiler, hdemangler⟩ := Point.ownedFrom_pair.1 howned
    exact ⟨⟨hcompiler.1, hdemangler.1⟩, ⟨hcompiler.2, hdemangler.2⟩⟩
  cases does with
  | ended => exact .finished _ (hpair _ own).1.1
  | received running => exact .received _ _ (hpair _ own).1.2 running
  | closed => exact .answered _ (hpair _ own).1.2
  | registered => exact .registered _ _ (hpair _ own).1 (hpair _ own).2
  | unregistered => exact .unregistered _ _
  | demanglerKilled => exact .killed _ (hpair _ own).1.2
  | compilerKilled => exact .killed _ (List.forall_mem_singleton.1 own).1

/-! ### What a run respects -/

variable {R : Engine α → Engine α → Prop} [IsPreorder (Engine α) R] {fire : Interference α}
variable (fires : ∀ executable moment engine, R engine (fire executable moment engine))

section Fires

include fires

/-- A moment of a process respects a relation if what others do at moments respects it. -/
theorem respects_interfere (id : ProcessId) (moment : Moment) :
    Respects R (interfere fire id moment) := by
  refine .modify_of fun engine => ?_
  split
  · exact fires _ _ _
  · exact Std.Refl.refl _

/-- A moment that is reached only while the process runs respects what others do at moments
respects. -/
theorem respects_interfereWhileRunning (id : ProcessId) (moment : Moment) :
    Respects R (interfereWhileRunning fire id moment) := by
  intro engine
  rw [interfereWhileRunning, after_get_bind]
  split
  · exact respects_interfere fires id moment engine
  · exact Std.Refl.refl _

/-- Waiting for a process to end is at most a moment, so it respects what others do respects. -/
theorem respects_awaitExit (id : ProcessId) : Respects R (awaitExit fire id) := by
  intro engine
  rw [awaitExit, after_get_bind]
  split
  · exact Respects.bind (respects_interfere fires id .waiting) (fun _ => .pure_of _) engine
  · exact Std.Refl.refl _

/-- Stopping a process is killing it and waiting for its end, so it is related if the kill is. -/
theorem respects_cleanUp (id : ProcessId) {engine : Engine α}
    (kill : R engine { engine with host := engine.host.kill id }) :
    R engine ((cleanUp fire id).run engine).2 :=
  IsTrans.trans _ _ _ kill (respects_awaitExit fires id _)

end Fires

section Asides

variable (asides : ∀ before after : Engine α, Aside before after → R before after)
include asides

omit [IsPreorder (Engine α) R] in
/-- Reporting what a process wrote respects a relation that holds of all that is done aside. -/
theorem respects_reportDiagnostics (id : ProcessId) :
    Respects R (reportDiagnostics id : Action α PUnit) :=
  fun engine => asides _ _ (aside_reportDiagnostics engine id)

omit [IsPreorder (Engine α) R] in
/-- Announcing what will be run respects a relation that holds of all that is done aside. -/
theorem respects_announce (invocation : Invocation) :
    Respects R (announce invocation : Action α Json) :=
  fun engine => asides _ _ (aside_announce invocation engine)

end Asides

/-- What begins and ends a compilation of a database that is there brackets what its programs do,
which may depend on the token of the compilation. -/
theorem respects_run_bracketed {S : TokenId → Engine α → Engine α → Prop}
    [∀ token, IsPreorder (Engine α) (S token)]
    (asides : ∀ token, ∀ before after : Engine α, Aside before after → S token before after)
    (bracketed : ∀ (id : DatabaseId) (engine later : Engine α), (engine.database? id).isSome →
      S (engine.beginCompilation id).1 (engine.beginCompilation id).2 later →
      R engine (later.endCompilation id (engine.beginCompilation id).1))
    (compiles : ∀ task : Task α, task.fire = fire → Respects (S task.token) task.compile)
    (id : DatabaseId) (source : String) (override : Option (List String)) :
    Respects R (run fire id source override) := by
  have hread : ∀ token, Respects (S token) (readStopwatch : Action α Binary64) :=
    fun _ => .of_after_eq after_readStopwatch
  intro engine
  cases hcommand : engine.lookup id source with
  | none =>
    rw [after_run_of_none hcommand]
    exact Std.Refl.refl engine
  | some command =>
    obtain ⟨database, hdatabase, -⟩ := Option.bind_eq_some_iff.1 hcommand
    rw [after_run_of_start hcommand rfl]
    refine bracketed id engine _ (by rw [hdatabase]; rfl) ?_
    -- the programs are run, and the outcome is reported before the compilation ends
    have htimed : Respects (S (engine.beginCompilation id).1)
        (timed (compileCommand fire (engine.beginCompilation id).1 command source override)) :=
      .bind (hread _) fun _ =>
        .bind (compiles ⟨fire, _, command, source, override⟩ rfl) fun _ =>
          .bind (hread _) fun _ => .pure_of _
    exact IsTrans.trans _ _ _ (htimed _) (asides _ _ _ (aside_reportOutcome _ _ _))

/-- A run is a chain of changes around what its programs do. -/
theorem respects_run_of (changes : ∀ before after : Engine α, Change before after → R before after)
    (compiles : ∀ task : Task α, task.fire = fire → Respects R task.compile)
    {id : DatabaseId} {source : String} {override : Option (List String)} :
    Respects R (run fire id source override) := by
  refine respects_run_bracketed (S := fun _ => R)
    (fun _ _ _ same => changes _ _ (.elsewhere same.sameRuns)) ?_ compiles id source override
  intro id engine later _ between
  exact IsTrans.trans _ _ _ (changes _ _ (.begun id))
    (IsTrans.trans _ _ _ between (changes _ _ (.ended id _)))

section Steps

variable (asides : ∀ before after : Engine α, Aside before after → R before after)
include asides

/-- A step of the translation is output, what the run does at its passage, and what others do. -/
theorem respects_passageStep
    (fires : ∀ executable moment engine, R engine (task.fire executable moment engine))
    (does : ∀ after, task.Does (.translating pair passage) engine after → R engine after)
    (step : task.PassageStep pair passage engine next later) : R engine later := by
  cases step with
  -- at these four points other threads act and the run itself does nothing
  | readEnd => exact respects_interfereWhileRunning fires _ _ _
  | readChunk => exact respects_interfereWhileRunning fires _ _ _
  | write => exact respects_interfere fires _ _ _
  | closing => exact respects_interfereWhileRunning fires _ _ _
  -- the run's own acts on its two processes
  | taken found running =>
    exact does _ (.received (by rw [isRunning, found]; exact running))
  | ended => exact does _ .ended
  | endedCancelled => exact does _ .ended
  | closed => exact does _ .closed
  -- waiting is what others do meanwhile, and then what the program wrote is reported
  | awaitCompiler waited =>
    subst waited
    exact IsTrans.trans _ _ _ (respects_awaitExit fires _ _)
      (respects_reportDiagnostics asides _ _)
  | awaitDemangler waited =>
    subst waited
    exact IsTrans.trans _ _ _ (respects_awaitExit fires _ _)
      (respects_reportDiagnostics asides _ _)
  | _ => exact Std.Refl.refl _

/-- **A step is output, what the run does at its point, and what others do**, apart from the starting
of a process. -/
theorem respects_does
    (fires : ∀ executable moment engine, R engine (task.fire executable moment engine))
    (starts : point.Starting → ∀ started, Starts engine started → R engine started)
    (does : ∀ after, task.Does point engine after → R engine after)
    (step : task.Step point engine next later) : R engine later := by
  cases step with
  | empty | compilerNotStarted | nameNotText | demanglerNotStarted | finished =>
    exact Std.Refl.refl _
  -- announcing a run writes lines and asks for the demangler, both of them asides
  | notLocated | prepared => exact respects_announce asides _ _
  -- a program is started, and others act at its spawn
  | compilerStarted started =>
    exact IsTrans.trans _ _ _ (starts trivial _ (starts_of_start started).2)
      (respects_interfere fires _ _ _)
  | demanglerStarted text started =>
    exact IsTrans.trans _ _ _ (starts trivial _ (starts_of_start started).2)
      (respects_interfere fires _ _ _)
  | register registered =>
    subst registered
    exact does _ .registered
  | translating step => exact respects_passageStep asides fires does step
  | unregister => exact does _ .unregistered
  | stopDemangler => exact respects_cleanUp fires _ (does _ .demanglerKilled)
  | stopCompiler => exact respects_cleanUp fires _ (does _ .compilerKilled)

/-- A step of a run is a chain of acts and output. -/
theorem respects_step {first : Nat}
    (fires : ∀ executable moment engine, R engine (task.fire executable moment engine))
    (acts : ∀ before after : Engine α, Act first before after → R before after)
    (starts : point.Starting → ∀ started, Starts engine started → R engine started)
    (own : point.OwnedFrom first engine) (step : task.Step point engine next later) :
    R engine later :=
  respects_does asides fires starts (fun _ does => acts _ _ (does.act own)) step

end Steps

/-! ### Runs from a number of processes on -/

section Runs

variable {first : Nat} (allows : Allows first R)
include allows

omit [IsPreorder (Engine α) R] in
/-- What a request does is related, and no process goes with it. -/
theorem from_of_change (before after : Engine α) (change : Change before after) :
    From first R before after :=
  fun _ => ⟨Nat.le_of_eq change.started_eq.symm, allows.change _ _ change⟩

omit [IsPreorder (Engine α) R] in
/-- What is done aside is related, and no process goes with it. -/
theorem from_of_aside (before after : Engine α) (same : Aside before after) :
    From first R before after :=
  from_of_change allows _ _ (.elsewhere same.sameRuns)

omit [IsPreorder (Engine α) R] in
/-- What a run does to processes from the given number on is related, and no process goes with
it. -/
theorem from_of_act (before after : Engine α) (act : Act first before after) :
    From first R before after :=
  fun _ => ⟨Nat.le_of_eq act.started_eq.symm, allows.act _ _ act⟩

omit [IsPreorder (Engine α) R] in
/-- The start of a process is related, if enough processes were started before. -/
theorem from_of_starts (before after : Engine α) (start : Starts before after) :
    From first R before after :=
  fun h => ⟨start.started_eq ▸ Nat.le_succ _, allows.start _ _ h start⟩

/-- At every moment of a run its processes are its own, and what it did until then is respected. -/
theorem timeline_respects
    (fires : ∀ executable moment engine, From first R engine (task.fire executable moment engine))
    {begun : Engine α} (h : first ≤ begun.started) (n : Nat) :
    From first R begun (task.timeline begun n).2 ∧
      (task.timeline begun n).1.OwnedFrom first (task.timeline begun n).2 := by
  refine timeline_invariant (P := fun point engine => From first R begun engine ∧
    point.OwnedFrom first engine) ⟨Std.Refl.refl begun, nofun⟩ ?_ n
  intro point engine next later
  rintro ⟨hbefore, hown⟩ hstep
  have hengine : first ≤ engine.started := Nat.le_trans h (hbefore h).1
  have hlater : From first R engine later :=
    respects_step (from_of_aside allows) fires (from_of_act allows)
      (fun _ started hstarts => from_of_starts allows _ _ hstarts) hown hstep
  refine ⟨IsTrans.trans _ _ _ hbefore hlater, fun id hid => ?_⟩
  -- a process of the next point was one before, or the step has started it
  rcases hstep.mem_processes hid with hold | ⟨rfl, started, hstarts, rfl⟩
  · exact ⟨(hown id hold).1, Nat.lt_of_lt_of_le (hown id hold).2 (hlater hengine).1⟩
  · -- the new process is there when the rest of the program acts, and stays
    have hgrows := hstarts.started_eq
    have hspawned := respects_interfere fires engine.started .spawned started (by omega)
    exact ⟨hengine, Nat.lt_of_lt_of_le (hgrows ▸ Nat.lt_succ_self _) hspawned.1⟩

/-- What a run does from one of its moments to a later one is respected. -/
theorem timeline_respects_of_le
    (fires : ∀ executable moment engine, From first R engine (task.fire executable moment engine))
    {begun : Engine α} (h : first ≤ begun.started) {n m : Nat} (hle : n ≤ m) :
    From first R (task.timeline begun n).2 (task.timeline begun m).2 := by
  induction hle with
  | refl => exact Std.Refl.refl _
  | @step m hle ih =>
    have hown := (timeline_respects allows fires h m).2
    rw [timeline_succ]
    exact IsTrans.trans _ _ _ ih (respects_step (from_of_aside allows) fires (from_of_act allows)
      (fun _ _ hstarts => from_of_starts allows _ _ hstarts) hown (step_spec task _ _))

/-- A whole run of the programs respects the relation, if what others do at its moments does. -/
theorem respects_compile (task : Task α)
    (fires : ∀ executable moment engine, From first R engine (task.fire executable moment engine)) :
    Respects (From first R) task.compile := by
  intro begun h
  obtain ⟨n, hn⟩ := exists_timeline_finished task begun
  have hlast := (timeline_respects allows fires h n).1 h
  rwa [hn] at hlast

/-- **What a run does is respected**, from any number of started processes on. -/
theorem respects_run
    (fires : ∀ executable moment engine, From first R engine (fire executable moment engine))
    (id : DatabaseId) (source : String) (override : Option (List String)) :
    Respects (From first R) (run fire id source override) :=
  respects_run_of (from_of_change allows) fun task hfire =>
    respects_compile allows task (hfire ▸ fires)

end Runs

/-- That no process goes is a relation that allows all that requests and runs do. -/
theorem allows_grows (first : Nat) : Allows first (Grows : Engine α → Engine α → Prop) where
  change _ _ change := Nat.le_of_eq change.started_eq.symm
  act _ _ act := Nat.le_of_eq act.started_eq.symm
  start _ _ _ start := Nat.le_of_lt (Nat.lt_of_lt_of_eq (Nat.lt_succ_self _) start.started_eq.symm)

/-- At every moment of a run its processes are there and were started by it. -/
theorem timeline_owned (fires : ∀ executable moment engine,
    Grows engine (task.fire executable moment engine)) (begun : Engine α) (n : Nat) :
    Grows begun (task.timeline begun n).2 ∧
      (task.timeline begun n).1.OwnedFrom begun.started (task.timeline begun n).2 := by
  obtain ⟨hgrows, hown⟩ := timeline_respects (allows_grows begun.started)
    (fun executable moment engine _ =>
      ⟨fires executable moment engine, fires executable moment engine⟩) (Nat.le_refl _) n
  exact ⟨(hgrows (Nat.le_refl _)).2, hown⟩

/-- What a run does until one of its moments is respected, if what it does itself and what others do
is. -/
theorem respects_moments
    (asides : ∀ before after : Engine α, Aside before after → R before after)
    (does : ∀ point (before after : Engine α), point.OwnedFrom 0 before →
      task.Does point before after → R before after)
    (starts : ∀ before after : Engine α, Starts before after → R before after)
    (fires : ∀ executable moment engine, R engine (task.fire executable moment engine))
    (grows : ∀ executable moment engine, Grows engine (task.fire executable moment engine))
    (begun : Engine α) (n : Nat) : R begun (task.timeline begun n).2 := by
  induction n with
  | zero => exact Std.Refl.refl begun
  | succ n ih =>
    obtain ⟨-, hown⟩ := timeline_owned grows begun n
    rw [timeline_succ]
    exact IsTrans.trans _ _ _ ih (respects_does asides fires (fun _ => starts _)
      (fun _ => does _ _ _ fun id hid => ⟨Nat.zero_le id, (hown id hid).2⟩) (step_spec task _ _))

/-- Without regard to which processes are its own, that is if its acts are respected. -/
theorem respects_timeline
    (asides : ∀ before after : Engine α, Aside before after → R before after)
    (acts : ∀ before after : Engine α, Act 0 before after → R before after)
    (starts : ∀ before after : Engine α, Starts before after → R before after)
    (fires : ∀ executable moment engine, R engine (task.fire executable moment engine))
    (grows : ∀ executable moment engine, Grows engine (task.fire executable moment engine))
    (begun : Engine α) (n : Nat) : R begun (task.timeline begun n).2 :=
  respects_moments asides (fun _ _ _ own does => acts _ _ (does.act own)) starts fires grows begun n

/-- What the programs of a run do in all is a chain of acts, starts and what others do. -/
theorem respects_programs
    (asides : ∀ before after : Engine α, Aside before after → R before after)
    (acts : ∀ before after : Engine α, Act 0 before after → R before after)
    (starts : ∀ before after : Engine α, Starts before after → R before after)
    (fires : ∀ executable moment engine, R engine (task.fire executable moment engine))
    (grows : ∀ executable moment engine, Grows engine (task.fire executable moment engine)) :
    Respects R task.compile := by
  intro begun
  obtain ⟨n, hn⟩ := exists_timeline_finished task begun
  have hlast := respects_timeline asides acts starts fires grows begun n
  rwa [hn] at hlast

end Task

namespace Scenario

open Engine

variable {R : Stage → Stage → Prop} [IsPreorder Stage R] {first : Nat} (allows : Allows first R)
include allows

/-- **What scripts do is respected**, however deep their runs nest. -/
theorem respects_interference_from (depth : Nat) (executable : String) (moment : Moment)
    (stage : Stage) : From first R stage (interference depth executable moment stage) :=
  respects_interference (Task.from_of_change allows)
    (fun _ fires => Task.respects_run allows fires) depth executable moment stage

/-- What scripts do at a moment of a run respects a relation that allows what requests and runs
do. -/
theorem respects_fire {task : Task Ledger} {depth : Nat} (fire : task.fire = interference depth)
    (executable : String) (moment : Moment) (stage : Stage) :
    From first R stage (task.fire executable moment stage) := by
  rw [fire]
  exact respects_interference_from allows depth executable moment stage

/-- **What a request does is respected.** -/
theorem respects_perform_from (depth : Nat) (step : EngineStep) :
    Respects (From first R) (perform (interference depth) step) :=
  respects_perform (Task.from_of_change allows)
    (Task.respects_run allows (respects_interference_from allows depth)) step

end Scenario

end AsmScope
