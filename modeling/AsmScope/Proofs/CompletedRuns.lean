import AsmScope.Proofs.Reachability
import Mathlib.Data.List.TakeWhile
/-! # Completed runs

A run that gives a text has passed on the whole output of its compiler. While the token of a run is
not cancelled, nobody but the run touches its processes, so at every moment one can say what they
have done so far (`Passage.Fits`): how much the demangler has received, and how both have ended. The
run decides on a text only at its last look at the token, where all of it is known. From then on
both processes have ended and stay as they are. -/

namespace AsmScope

open Engine

/-! ### What is read of chunks -/

/-- The chunks that a reader gets: an empty one is read as the end. -/
def readable (chunks : List Bytes) : List Bytes := chunks.takeWhile fun chunk => !chunk.isEmpty

/-- All that a reader gets. -/
def readUpToEnd (chunks : List Bytes) : Bytes := (readable chunks).flatten

/-- Of no chunks a reader gets none. -/
theorem readable_nil : readable [] = [] := rfl

/-- An empty chunk is the end of what a reader gets. -/
theorem readable_cons_of_isEmpty {chunk : Bytes} (h : chunk.isEmpty) (rest : List Bytes) :
    readable (chunk :: rest) = [] := by
  simp [readable, h]

/-- Any other chunk is read before those behind it. -/
theorem readable_cons {chunk : Bytes} (h : chunk.isEmpty = false) (rest : List Bytes) :
    readable (chunk :: rest) = chunk :: readable rest := by
  simp [readable, h]

/-- Where no chunk is empty, all of them are read. -/
theorem readable_of_ne_nil {chunks : List Bytes} (h : ∀ chunk ∈ chunks, chunk ≠ []) :
    readable chunks = chunks :=
  List.takeWhile_eq_self_iff.2 fun chunk hmem => by simpa using h chunk hmem

/-- Nothing is read of chunks that begin with an empty one. -/
theorem readUpToEnd_cons_of_isEmpty {chunk : Bytes} (h : chunk.isEmpty) (rest : List Bytes) :
    readUpToEnd (chunk :: rest) = [] := by
  rw [readUpToEnd, readable_cons_of_isEmpty h, List.flatten_nil]

/-- What is read of other chunks is the first one and what is read of the rest. -/
theorem readUpToEnd_cons {chunk : Bytes} (h : chunk.isEmpty = false) (rest : List Bytes) :
    readUpToEnd (chunk :: rest) = chunk ++ readUpToEnd rest := by
  rw [readUpToEnd, readable_cons h, List.flatten_cons, readUpToEnd]

/-! ### What the processes of a run have done -/

/-- The compiler has written everything, and the demangler has received it. -/
structure Process.Fed (compiler demangler : Process) : Prop where
  ended : compiler.status = .exited compiler.program.exitCode
  received : demangler.input = some (readUpToEnd compiler.program.chunks)

/-- The demangler has received everything and answered it. -/
structure Process.Answered (compiler demangler : Process) : Prop extends
    Process.Fed compiler demangler where
  succeeded : compiler.program.exitCode = 0
  answered : demangler.status = .exited demangler.program.exitCode
  output : demangler.output = demangler.program.respond (readUpToEnd compiler.program.chunks)

/-- A process that runs was not killed. -/
theorem Process.wasKilled_of_isRunning {process : Process} (h : process.isRunning) :
    process.wasKilled = false := by
  rw [Process.isRunning, beq_iff_eq] at h
  rw [Process.wasKilled, h]
  rfl

/-- Both run, and the demangler has received everything but `left`. -/
structure Process.Owes (compiler demangler : Process) (left : Bytes) : Prop where
  compiler_runs : compiler.isRunning
  demangler_runs : demangler.isRunning
  received : ∃ sofar, demangler.input = some sofar ∧
    sofar ++ left = readUpToEnd compiler.program.chunks

/-- The demangler receives the next chunk. -/
theorem Process.Owes.receive {compiler demangler : Process} {chunk left : Bytes}
    (h : compiler.Owes demangler (chunk ++ left)) :
    compiler.Owes (demangler.receive chunk) left := by
  obtain ⟨sofar, hsofar, hall⟩ := h.received
  refine ⟨h.compiler_runs, h.demangler_runs, sofar ++ chunk, ?_, ?_⟩
  · rw [Process.receive, hsofar]
    rfl
  · rw [List.append_assoc, hall]

/-- The compiler ends by itself once everything is received. -/
theorem Process.Owes.finish {compiler demangler : Process} (h : compiler.Owes demangler []) :
    compiler.finish.Fed demangler := by
  obtain ⟨sofar, hsofar, hall⟩ := h.received
  rw [List.append_nil] at hall
  rw [Process.finish_of_running h.compiler_runs]
  exact ⟨rfl, hall ▸ hsofar⟩

/-- The demangler answers all that it has received. -/
theorem Process.Fed.endInput {compiler demangler : Process} (h : compiler.Fed demangler)
    (runs : demangler.isRunning) (succeeded : compiler.program.exitCode = 0) :
    compiler.Answered demangler.endInput := by
  rw [Process.endInput_of_running runs]
  refine ⟨⟨h.ended, h.received⟩, succeeded, rfl, ?_⟩
  dsimp only
  rw [h.received, Option.getD_some]

/-- What both processes have done at a passage of a run that was not cancelled. -/
def Passage.Fits (compiler demangler : Process) : Passage → Prop
  | read _ rest => compiler.Owes demangler (readUpToEnd rest)
  | received _ chunk rest => compiler.Owes demangler (readUpToEnd (chunk :: rest))
  | write _ chunk rest | deliver _ chunk rest =>
    compiler.Owes demangler (chunk ++ readUpToEnd rest)
  | refused => True
  | ended => compiler.Owes demangler []
  | awaitCompiler => compiler.Fed demangler ∧ demangler.isRunning
  | checkCompiler code =>
    compiler.Fed demangler ∧ demangler.isRunning ∧ code = compiler.program.exitCode
  | closing | close =>
    compiler.Fed demangler ∧ demangler.isRunning ∧ compiler.program.exitCode = 0
  | awaitDemangler => compiler.Answered demangler
  | checkDemangler code => compiler.Answered demangler ∧ code = demangler.program.exitCode

namespace Engine

variable {α : Type}

/-- A process is there, and at most this token guards it. -/
structure Keeps (engine : Engine α) (token : TokenId) (id : ProcessId) (process : Process) :
    Prop where
  found : engine.host.process? id = some process
  guarded : ∀ other, engine.Guards other id → other = token

/-- A process that is kept was started. -/
theorem Keeps.lt_started {engine : Engine α} {token : TokenId} {id : ProcessId}
    {process : Process} (h : engine.Keeps token id process) : id < engine.started :=
  (List.getElem?_eq_some_iff.1 h.found).1

/-- While its token is not cancelled, nobody else touches a process. -/
theorem Keeps.of_spares {base : Nat} {engine later : Engine α} {token : TokenId} {id : ProcessId}
    {process : Process} (h : engine.Keeps token id process) (spares : Spares base engine later)
    (there : id < base) (going : later.isCancelled token = false) :
    later.Keeps token id process := by
  refine ⟨?_, fun other hguards => h.guarded other (spares.guards other id there hguards)⟩
  rcases spares.processes id there with hkept | ⟨-, other, hguards, hcancelled⟩
  · rw [hkept, h.found]
  · -- a kill would come with the cancellation of the one token that guards the process
    rw [h.guarded other hguards, going] at hcancelled
    cases hcancelled

/-- What is done to a process whose tokens stay. -/
theorem Keeps.of_map {engine later : Engine α} {token : TokenId} {id : ProcessId}
    {process : Process} {f : Process → Process} (h : engine.Keeps token id process)
    (changed : later.host.process? id = (engine.host.process? id).map f)
    (tokens : later.tokens = engine.tokens) : later.Keeps token id (f process) := by
  refine ⟨by rw [changed, h.found, Option.map_some], fun other hguards => h.guarded other ?_⟩
  rwa [Guards, tokens] at hguards

/-- A process is kept where neither it nor the tokens change. -/
theorem Keeps.of_same {engine later : Engine α} {token : TokenId} {id : ProcessId}
    {process : Process} (h : engine.Keeps token id process)
    (same : later.host.process? id = engine.host.process? id)
    (tokens : later.tokens = engine.tokens) : later.Keeps token id process := by
  refine ⟨same.trans h.found, fun other hguards => h.guarded other ?_⟩
  rwa [Guards, tokens] at hguards

/-- Reporting what a process wrote keeps all processes. -/
theorem Keeps.reportDiagnostics {engine : Engine α} {token : TokenId} {id : ProcessId}
    {process : Process} (h : engine.Keeps token id process) (other : ProcessId) :
    (engine.after (reportDiagnostics other)).Keeps token id process := by
  have hsame := Task.sameRuns_reportDiagnostics engine other
  exact h.of_same (by rw [Host.process?, hsame.processes, Host.process?]) hsame.tokens

/-- A process that is started keeps those that were there. -/
theorem Keeps.addProcess {engine : Engine α} {token : TokenId} {id : ProcessId} {process : Process}
    (h : engine.Keeps token id process) (other : Process) :
    (engine.addProcess other).Keeps token id process :=
  h.of_same (List.getElem?_append_left h.lt_started) rfl

/-- Nobody guards a process that has just been started. -/
theorem Grounded.keeps_addProcess {engine : Engine α} (h : Grounded engine) (token : TokenId)
    (process : Process) : (engine.addProcess process).Keeps token engine.started process := by
  refine ⟨List.getElem?_concat_length, fun other hguards => ?_⟩
  exact absurd (h.guarded other _ hguards) (Nat.lt_irrefl _)

/-- Registering processes with a token cancels no token. -/
@[simp] theorem isCancelled_registerRun (engine : Engine α) (token other : TokenId)
    (run : RunProcesses) :
    (engine.registerRun token run).isCancelled other = engine.isCancelled other := by
  unfold Engine.registerRun isCancelled
  cases found : engine.tokens[token]? with
  | none => rfl
  | some old =>
    dsimp only
    by_cases hsame : token = other
    · subst hsame
      rw [List.getElem?_set_self', found]
      exact CancellationToken.cancelled_register old run
    · rw [List.getElem?_set_ne hsame]

/-- Registering a run whose token is not cancelled kills nothing. -/
theorem host_registerRun {engine : Engine α} {token : TokenId}
    (going : engine.isCancelled token = false) (run : RunProcesses) :
    (engine.registerRun token run).host = engine.host := by
  unfold Engine.registerRun
  cases found : engine.tokens[token]? with
  | none => rfl
  | some old =>
    rw [isCancelled, found, Option.any_some] at going
    dsimp only
    rw [CancellationToken.register, if_neg (Bool.eq_false_iff.1 going)]
    rfl

/-- Registering the processes of a run with its token keeps them, unless they are killed. -/
theorem Keeps.registerRun {engine : Engine α} {token : TokenId} {id : ProcessId}
    {process : Process} (h : engine.Keeps token id process) (run : RunProcesses)
    (going : (engine.registerRun token run).isCancelled token = false) :
    (engine.registerRun token run).Keeps token id process := by
  rw [isCancelled_registerRun] at going
  refine ⟨by rw [host_registerRun going]; exact h.found, fun other hguards => ?_⟩
  by_contra hne
  refine hne (h.guarded other (hguards.of_registerRun_ne hne))

end Engine

/-- What the processes of a run have done at a point of it, if its token was not cancelled. -/
def Point.Fits {α : Type} (task : Task α) (engine : Engine α) : Point → Prop
  | startDemangler _ _ id => ∃ process, engine.Keeps task.token id process ∧ process.isRunning
  | register pair => pair.compiler ≠ pair.demangler ∧ ∃ compiler demangler,
    engine.Keeps task.token pair.compiler compiler ∧
      engine.Keeps task.token pair.demangler demangler ∧ compiler.isRunning ∧
        demangler.isRunning ∧ demangler.input = some []
  | translating pair passage => pair.compiler ≠ pair.demangler ∧ ∃ compiler demangler,
    engine.Keeps task.token pair.compiler compiler ∧
      engine.Keeps task.token pair.demangler demangler ∧ passage.Fits compiler demangler
  | _ => True

namespace Task

variable {α : Type} {task : Task α} {point next : Point} {engine later : Engine α}

/-- **What a step of the translation leaves**: both processes have done what belongs to the passage
that it leads to, if the token is not cancelled then. -/
theorem PassageStep.fits {pair : Pair} {passage : Passage} {compiler demangler : Process}
    (step : task.PassageStep pair passage engine next later)
    (fires : ∀ executable moment other,
      From engine.started (Spares engine.started) other (task.fire executable moment other))
    (distinct : pair.compiler ≠ pair.demangler)
    (compiler_there : pair.compiler < engine.started)
    (demangler_there : pair.demangler < engine.started)
    (hcompiler : engine.Keeps task.token pair.compiler compiler)
    (hdemangler : engine.Keeps task.token pair.demangler demangler)
    (fits : passage.Fits compiler demangler) (going : later.isCancelled task.token = false) :
    next.Fits task later := by
  -- while the rest of the program acts, both processes stay as they are
  have hkept : ∀ other : Engine α, From engine.started (Spares engine.started) engine other →
      other.isCancelled task.token = false →
      other.Keeps task.token pair.compiler compiler ∧
        other.Keeps task.token pair.demangler demangler := fun other hspares hgoing =>
    ⟨hcompiler.of_spares (hspares (Nat.le_refl _)).2 compiler_there hgoing,
      hdemangler.of_spares (hspares (Nat.le_refl _)).2 demangler_there hgoing⟩
  -- a report changes the sink only
  have hreported : ∀ (waited : Engine α) id,
      (waited.after (reportDiagnostics id)).isCancelled task.token =
        waited.isCancelled task.token := fun waited id => by
    rw [isCancelled, (sameRuns_reportDiagnostics waited id).tokens, isCancelled]
  cases step with
  | readEnd | readChunk | closing =>
    obtain ⟨hc, hd⟩ := hkept _ (respects_interfereWhileRunning fires _ _ engine) going
    exact ⟨distinct, compiler, demangler, hc, hd, fits⟩
  | write =>
    obtain ⟨hc, hd⟩ := hkept _ (respects_interfere fires _ _ engine) going
    exact ⟨distinct, compiler, demangler, hc, hd, fits⟩
  | receivedEnd last =>
    obtain ⟨hc, hd⟩ := hkept _ (Std.Refl.refl _) going
    refine ⟨distinct, compiler, demangler, hc, hd, ?_⟩
    -- a compiler that runs was not killed, so the chunk is the end
    have hkilled : engine.wasKilled pair.compiler = false := by
      rw [wasKilled, hc.found]
      exact Process.wasKilled_of_isRunning fits.compiler_runs
    rw [hkilled, Bool.or_false] at last
    rwa [Passage.Fits, readUpToEnd_cons_of_isEmpty last] at fits
  | received more =>
    obtain ⟨hc, hd⟩ := hkept _ (Std.Refl.refl _) going
    refine ⟨distinct, compiler, demangler, hc, hd, ?_⟩
    have hchunk := (Bool.or_eq_false_iff.1 (Bool.eq_false_iff.2 more)).1
    rwa [Passage.Fits, readUpToEnd_cons hchunk] at fits
  | @taken _ chunk =>
    refine ⟨distinct, compiler, demangler.receive chunk, hcompiler.of_same ?_ rfl,
      hdemangler.of_map (f := fun p => p.receive chunk) ?_ rfl, fits.receive⟩
    · rw [Host.process?_modifyProcess, if_neg distinct.symm]
    · rw [Host.process?_modifyProcess, if_pos rfl]
  | ended =>
    refine ⟨distinct, compiler.finish, demangler, hcompiler.of_map ?_ rfl,
      hdemangler.of_same ?_ rfl,
      fits.finish, fits.demangler_runs⟩
    · rw [Host.process?_finish, if_pos rfl]
    · rw [Host.process?_finish, if_neg distinct]
  | awaitCompiler waited =>
    subst waited
    rw [hreported] at going
    obtain ⟨hc, hd⟩ := hkept _ (respects_awaitExit fires _ engine) going
    have hcode := exitCode_of_found hc.found fits.1.ended
    exact ⟨distinct, compiler, demangler, hc.reportDiagnostics _, hd.reportDiagnostics _, fits.1,
      fits.2, hcode⟩
  | compilerDone =>
    obtain ⟨hc, hd⟩ := hkept _ (Std.Refl.refl _) going
    exact ⟨distinct, compiler, demangler, hc, hd, fits.1, fits.2.1, fits.2.2.symm⟩
  | closed found =>
    refine ⟨distinct, compiler, demangler.endInput, hcompiler.of_same ?_ rfl,
      hdemangler.of_map ?_ rfl, fits.1.endInput fits.2.1 fits.2.2⟩
    · rw [Host.process?_endInput, if_neg distinct.symm]
    · rw [Host.process?_endInput, if_pos rfl]
  | awaitDemangler waited =>
    subst waited
    rw [hreported] at going
    obtain ⟨hc, hd⟩ := hkept _ (respects_awaitExit fires _ engine) going
    have hcode := exitCode_of_found hd.found fits.answered
    exact ⟨distinct, compiler, demangler, hc.reportDiagnostics _, hd.reportDiagnostics _, fits,
      hcode⟩
  | notTaken | notClosed =>
    obtain ⟨hc, hd⟩ := hkept _ (Std.Refl.refl _) going
    exact ⟨distinct, compiler, demangler, hc, hd, trivial⟩
  | _ => trivial

/-- While the token of a run is not cancelled, its processes are as the run has left them. -/
theorem Step.fits (step : task.Step point engine next later)
    (fires : ∀ first executable moment other,
      From first (Spares first) other (task.fire executable moment other))
    (grounded : Grounded engine) (fits : point.Fits task engine)
    (going : later.isCancelled task.token = false) : next.Fits task later := by
  -- what is there when a program has been started is there after the rest of the program acted
  have hspawned : ∀ {started : Engine α} {own id : ProcessId} {process : Process},
      started.Keeps task.token id process →
      (started.after (interfere task.fire own .spawned)).isCancelled task.token = false →
      (started.after (interfere task.fire own .spawned)).Keeps task.token id process := by
    intro started own id process hkeeps hgoing
    have hspares := respects_interfere (fires started.started) own .spawned started (Nat.le_refl _)
    exact hkeeps.of_spares hspares.2 hkeeps.lt_started hgoing
  cases step with
  | compilerStarted started =>
    obtain ⟨program, -, -, rfl, hstarted⟩ := exists_of_start started
    rw [hstarted] at going ⊢
    exact ⟨_, hspawned (grounded.keeps_addProcess _ _) going, rfl⟩
  | demanglerStarted text started =>
    obtain ⟨program, -, -, rfl, hstarted⟩ := exists_of_start started
    obtain ⟨compiler, hcompiler, hruns⟩ := fits
    rw [hstarted] at going ⊢
    refine ⟨Nat.ne_of_lt hcompiler.lt_started, compiler, _, hspawned (hcompiler.addProcess _) going,
      hspawned (grounded.keeps_addProcess _ _) going, hruns, rfl, rfl⟩
  | register registered =>
    subst registered
    obtain ⟨hdistinct, compiler, demangler, hc, hd, hcruns, hdruns, hinput⟩ := fits
    have hcompiler := hc.registerRun _ going
    have hdemangler := hd.registerRun _ going
    refine ⟨hdistinct, compiler, demangler, hcompiler, hdemangler, hcruns, hdruns, [], hinput, ?_⟩
    rw [hcompiler.found]
    rfl
  | translating step =>
    obtain ⟨hdistinct, compiler, demangler, hc, hd, hfits⟩ := fits
    exact step.fits (fires engine.started) hdistinct hc.lt_started hd.lt_started hc hd hfits going
  | _ => trivial

/-- A run is only decided on a text at its last look at the token. -/
theorem Step.gives {text : String} (step : task.Step point engine next later)
    (undecided : point.outcome? = none) (decided : next.outcome? = some (.ok text)) :
    ∃ pair, point = .translating pair (.checkDemangler 0) ∧
      engine.isCancelled task.token = false ∧ later = engine ∧
        text = Assembly.stripDirectives (Utf8.decodeReplacing
          (((engine.host.process? pair.demangler).map fun p => p.output).getD [])) := by
  cases step with
  | @translating _ _ pair _ _ step =>
    cases step with
    | demanglerDone going =>
      exact ⟨pair, rfl, going, rfl, (Except.ok.inj (Option.some.inj decided)).symm⟩
    | _ => cases decided
  | unregister | stopDemangler | stopCompiler | finished => cases undecided
  | _ => cases decided

end Task

/-- What the processes of a run have done that gives a text. -/
structure Process.Gives (compiler demangler : Process) (text : String) : Prop where
  /-- The compiler was not killed and ended by itself, with success. -/
  compiler_ended : compiler.status = .exited 0 ∧ compiler.program.exitCode = 0
  /-- The demangler has received all that can be read of the compiler's output. -/
  received : demangler.input = some (readUpToEnd compiler.program.chunks)
  /-- Where no chunk is empty, that is all of it. -/
  received_all : (∀ chunk ∈ compiler.program.chunks, chunk ≠ []) →
    demangler.input = some compiler.program.chunks.flatten
  /-- The demangler was not killed and ended by itself, with success. -/
  demangler_ended : demangler.status = .exited 0 ∧ demangler.program.exitCode = 0
  /-- It has answered all that it has received. -/
  output : demangler.output = demangler.program.respond (demangler.input.getD [])
  /-- The text is the whole answer without directives. -/
  text_eq : text = Assembly.stripDirectives (Utf8.decodeReplacing demangler.output)

/-- If the demangler has answered everything and succeeded, its output without directives is the
text that the two processes give. -/
theorem Process.Answered.gives {compiler demangler : Process} {text : String}
    (h : compiler.Answered demangler) (succeeded : demangler.program.exitCode = 0)
    (text_eq : text = Assembly.stripDirectives (Utf8.decodeReplacing demangler.output)) :
    compiler.Gives demangler text where
  compiler_ended := ⟨h.succeeded ▸ h.ended, h.succeeded⟩
  received := h.received
  received_all hchunks := by rw [h.received, readUpToEnd, readable_of_ne_nil hchunks]
  demangler_ended := ⟨succeeded ▸ h.answered, succeeded⟩
  output := by rw [h.output, h.received, Option.getD_some]
  text_eq := text_eq

namespace Scenario

open Engine

variable {depth : Nat} {task : Task Ledger} {begun : Stage}

/-- A run that is not cancelled now was not cancelled before. -/
theorem isCancelled_timeline_of_le (fire : task.fire = interference depth) {n m : Nat} (hle : n ≤ m)
    (going : (task.timeline begun m).2.isCancelled task.token = false) :
    (task.timeline begun n).2.isCancelled task.token = false := by
  rw [← Bool.not_eq_true] at going ⊢
  intro hcancelled
  exact going (Task.timeline_cancelled (respects_fire (Spares.allows 0) fire) hle hcancelled)

/-- What the processes of a run have done at a moment of it at which it is not cancelled. -/
theorem fits_timeline (fire : task.fire = interference depth) (reachable : Reachable begun)
    (n : Nat) (going : (task.timeline begun n).2.isCancelled task.token = false) :
    (task.timeline begun n).1.Fits task (task.timeline begun n).2 := by
  induction n with
  | zero => trivial
  | succ n ih =>
    -- the run was not cancelled a step earlier either
    have hfits := ih (isCancelled_timeline_of_le fire (Nat.le_succ n) going)
    have hgrounded := (reachable_timeline fire reachable n).grounded
    exact (Task.timeline_step task begun n).fits
      (fun first => respects_fire (Spares.allows first) fire) hgrounded hfits going

/-- What has ended at a moment of a run is found so after the run. -/
theorem settled_after_run {stage : Stage} {id : DatabaseId} {source : String}
    {override : Option (List String)}
    (begins : stage.Begins (interference depth) id source override task begun) (n : Nat) :
    Settled (task.timeline begun n).2
      (stage.after (run (interference depth) id source override)) := by
  obtain ⟨last, hlast⟩ := Task.exists_timeline_finished task begun
  have hfires : ∀ executable moment stage,
      From 0 Settled stage (task.fire executable moment stage) :=
    respects_fire (Settled.allows 0) begins.fire
  have hrest : Settled (task.timeline begun n).2 (task.timeline begun (max n last)).2 :=
    (Task.timeline_respects_of_le (Settled.allows 0) hfires (Nat.zero_le _)
      (Nat.le_max_left n last) (Nat.zero_le _)).2
  rw [Task.timeline_eq_of_le hlast (Nat.le_max_right n last)] at hrest
  rw [begins.after_run]
  have hreport := Settled.of_change _ _ (.elsewhere (Task.sameRuns_reportOutcome
    (begun.after task.compile) source (begun.result (timed task.compile))))
  exact IsTrans.trans _ _ _ hrest
    (IsTrans.trans _ _ _ hreport (Settled.of_change _ _ (.ended id task.token)))

/-- The processes of a run are numbered after those that were there before it. -/
theorem ownedFrom_of_translating {stage : Stage} {id : DatabaseId} {source : String}
    {override : Option (List String)} {n : Nat} {pair : Pair} {passage : Passage}
    (begins : stage.Begins (interference depth) id source override task begun)
    (point : (task.timeline begun n).1 = .translating pair passage) :
    pair.OwnedFrom stage.started := by
  have hfires : ∀ executable moment other,
      From begun.started Grows other (task.fire executable moment other) :=
    respects_fire (Task.allows_grows begun.started) begins.fire
  have howned := (Task.timeline_respects (Task.allows_grows begun.started) hfires
    (Nat.le_refl _) n).2
  rw [point] at howned
  obtain ⟨hcompiler, hdemangler⟩ := Point.ownedFrom_pair.1 howned
  have hstarted : begun.started = stage.started := by
    have hchange : (stage.beginCompilation id).2.started = stage.started :=
      Change.started_eq (.begun id)
    rwa [begins.start] at hchange
  rw [hstarted] at hcompiler hdemangler
  exact ⟨hcompiler.1, hdemangler.1⟩

/-- **No partial and no stale assembly.** Whatever is done meanwhile, a run that gives a text was
not cancelled up to its look at the token after it has waited for the demangler. Both of its
programs have then ended by themselves with success, the demangler has received the whole output of
the compiler, and the text is the whole answer of the demangler. -/
theorem processes_of_completed_run {stage : Stage} {id : DatabaseId} {source text : String}
    {override : Option (List String)} (reachable : Reachable stage)
    (given : stage.result (run (interference depth) id source override) = .ok text) :
    ∃ (task : Task Ledger) (begun : Stage) (n : Nat) (pair : Pair) (compiler demangler : Process),
      stage.Begins (interference depth) id source override task begun ∧
        (task.timeline begun n).1 = .translating pair (.checkDemangler 0) ∧
        (∀ m ≤ n, (task.timeline begun m).2.isCancelled task.token = false) ∧
        pair.OwnedFrom stage.started ∧ pair.compiler ≠ pair.demangler ∧
        let later := stage.after (run (interference depth) id source override)
        later.host.process? pair.compiler = some compiler ∧
          later.host.process? pair.demangler = some demangler ∧
          compiler.Gives demangler text := by
  obtain ⟨task, begun, hbegins, hcompile⟩ := exists_begins_of_ok given
  have hbegun : Reachable begun := by
    have hchange := reachable.change (.begun id)
    rwa [hbegins.start] at hchange
  -- go back from the text to the step in which it was decided
  obtain ⟨n, hundecided, hdecided⟩ := Task.exists_decision task begun
  rw [hcompile] at hdecided
  obtain ⟨pair, hpoint, hgoing, hlater, htext⟩ :=
    (Task.timeline_step task begun n).gives hundecided hdecided
  have hfits := fits_timeline hbegins.fire hbegun n hgoing
  rw [hpoint] at hfits
  obtain ⟨hdistinct, compiler, demangler, hcompiler, hdemangler, hanswered, hcode⟩ := hfits
  refine ⟨task, begun, n, pair, compiler, demangler, hbegins, hpoint, fun m hle => ?_, ?_,
    hdistinct, ?_, ?_, ?_⟩
  · exact isCancelled_timeline_of_le hbegins.fire hle hgoing
  · exact ownedFrom_of_translating hbegins hpoint
  -- both processes had ended by then, so they are found the same after the run
  · refine settled_after_run hbegins n _ compiler hcompiler.found ?_
    rw [Process.isRunning, hanswered.ended]
    rfl
  · refine settled_after_run hbegins n _ demangler hdemangler.found ?_
    rw [Process.isRunning, hanswered.answered]
    rfl
  · rw [hdemangler.found] at htext
    exact hanswered.gives hcode.symm htext

/-- The run of the sample gives both chunks of its compiler, which its demangler has received. -/
theorem processes_of_completed_run_sample :
    ∃ (task : Task Ledger) (begun : Stage) (n : Nat) (pair : Pair) (compiler demangler : Process),
      sampleStage.Begins (interference 0) 0 "a" none task begun ∧
        (task.timeline begun n).1 = .translating pair (.checkDemangler 0) ∧
        (∀ m ≤ n, (task.timeline begun m).2.isCancelled task.token = false) ∧
        pair.OwnedFrom sampleStage.started ∧ pair.compiler ≠ pair.demangler ∧
        let later := sampleStage.after (run (interference 0) 0 "a" none)
        later.host.process? pair.compiler = some compiler ∧
          later.host.process? pair.demangler = some demangler ∧
          compiler.Gives demangler "ab" :=
  processes_of_completed_run (.fresh rfl (by simp [sampleStage])) (by decide +kernel)

end Scenario

end AsmScope
