import AsmScope.Proofs.Forecast
import AsmScope.Proofs.Reports
/-! # Both processes of an undisturbed run

While the rest of the program does nothing, one always knows how both processes of a run are
(`Engine.Holds`). So every part of a run that passes output on answers what is known before it
(`Holds.relay`, `Holds.answer`, `Holds.translate`). -/

namespace AsmScope

open Engine

/-- Receiving nothing leaves a process as it is. -/
theorem Process.receive_nil (process : Process) : process.receive [] = process := by
  cases process
  simp [receive]

/-- What is received in two pieces is received in one. -/
theorem Process.receive_receive (process : Process) (first second : Bytes) :
    (process.receive first).receive second = process.receive (first ++ second) := by
  simp [receive, Function.comp_def]

namespace Engine

variable {α : Type}

/-- The rest of the program does nothing. -/
def idle : Interference α := fun _ _ engine => engine

/-- Where the rest of the program does nothing a moment passes without a trace. -/
@[simp] theorem after_interfere_idle (engine : Engine α) (id : ProcessId) (moment : Moment) :
    engine.after (interfere idle id moment) = engine := by
  rw [interfere, after_modify]
  split <;> rfl

/-- Where the rest of the program does nothing, so does a moment that is reached only while a
process runs. -/
theorem after_interfereWhileRunning_idle (engine : Engine α) (id : ProcessId) (moment : Moment) :
    engine.after (interfereWhileRunning idle id moment) = engine := by
  rw [interfereWhileRunning, after_get_bind]
  split
  · exact after_interfere_idle engine id moment
  · rfl

/-- Where the rest of the program does nothing, waiting for a process leaves everything as it is. -/
theorem after_awaitExit_idle (engine : Engine α) (id : ProcessId) :
    engine.after (awaitExit idle id) = engine := by
  rw [awaitExit, after_get_bind]
  split
  · exact after_interfere_idle engine id .waiting
  · rfl

section Rules

variable {β : Type} {engine : Engine α} {answer : Except Failure β} {Q : Engine α → Prop}
  {id : ProcessId} {moment : Moment}

/-- Nothing happens at the moments of an undisturbed run. -/
theorem Yields.interfere_bind {next : Unit → Action α β} (h : engine.Yields (next ()) answer Q) :
    engine.Yields (interfere idle id moment >>= next) answer Q :=
  .bind_of (Task.result_interfere engine idle id moment) (after_interfere_idle engine id moment) h

/-- What is yielded without such a moment is yielded with it. -/
theorem Yields.interfereWhileRunning_bind {next : Unit → Action α β}
    (h : engine.Yields (next ()) answer Q) :
    engine.Yields (interfereWhileRunning idle id moment >>= next) answer Q :=
  .bind_of (Task.result_interfereWhileRunning engine idle id moment)
    (after_interfereWhileRunning_idle engine id moment) h

/-- Waiting for a process tells its code. -/
theorem Yields.awaitExit_bind {next : Int → Action α β}
    (h : engine.Yields (next (engine.exitCode id)) answer Q) :
    engine.Yields (awaitExit idle id >>= next) answer Q := by
  have hresult := Task.result_awaitExit engine idle id
  rw [after_awaitExit_idle] at hresult
  exact .bind_of hresult (after_awaitExit_idle engine id) h

/-- Reporting what a process said shows it, if it said anything. -/
theorem Yields.reportDiagnostics_bind {next : PUnit → Action α β} {process : Process}
    (found : engine.host.process? id = some process)
    (rest : ∀ later, engine.SameRuns later →
      later.sink.shown = (engine.sink.shown || !process.program.diagnostics.isEmpty) →
      later.Yields (next ⟨⟩) answer Q) :
    engine.Yields (reportDiagnostics id >>= next) answer Q := by
  refine .bind_of (Task.result_reportDiagnostics engine id) rfl
    (rest _ (Task.sameRuns_reportDiagnostics engine id) ?_)
  rw [reportDiagnostics, after_get_bind, found]
  dsimp only [Option.map_some, Option.getD_some]
  cases process.program.diagnostics.isEmpty with
  | true => simp
  | false => simp [showOutput, appendLine]

end Rules

/-- The processes of a run that is not cancelled. -/
structure Holds (engine : Engine α) (token : TokenId) (run : RunProcesses)
    (compiler demangler : Process) : Prop where
  going : engine.isCancelled token = false
  distinct : run.compiler ≠ run.demangler
  compiler : engine.host.process? run.compiler = some compiler
  demangler : engine.host.process? run.demangler = some demangler

namespace Holds

variable {engine : Engine α} {token : TokenId} {run : RunProcesses} {compiler demangler : Process}

/-- The token of the run is looked at in vain. -/
theorem checkToken_bind {β : Type} {next : Unit → Action α β} {answer : Except Failure β}
    {Q : Engine α → Prop} (h : engine.Holds token run compiler demangler)
    (rest : engine.Yields (next ()) answer Q) :
    engine.Yields (checkToken token >>= next) answer Q :=
  .bind_of (by rw [result_checkToken, h.going]; rfl) (after_checkToken engine token) rest

/-- Where the demangler does not take its input, the run fails. -/
theorem result_refuse {β : Type} (h : engine.Holds token run compiler demangler) :
    engine.result (refuseInput token : Action α β) =
      .error (.inputRefused ⟨.brokenPipe, none⟩) := by
  rw [result_refuseInput, h.going]
  rfl

/-- A run holds its processes where the tokens are the same and these two are there. -/
theorem of_processes {later : Engine α} {compiler' demangler' : Process}
    (h : engine.Holds token run compiler demangler) (tokens : later.tokens = engine.tokens)
    (compiler_eq : later.host.process? run.compiler = some compiler')
    (demangler_eq : later.host.process? run.demangler = some demangler') :
    later.Holds token run compiler' demangler' := by
  refine ⟨?_, h.distinct, compiler_eq, demangler_eq⟩
  rw [isCancelled, tokens]
  exact h.going

/-- The demangler receives a chunk. -/
theorem receive (h : engine.Holds token run compiler demangler) (chunk : Bytes) :
    ({ engine with
      host := engine.host.modifyProcess run.demangler fun p => p.receive chunk } : Engine α).Holds
        token run compiler (demangler.receive chunk) := by
  refine h.of_processes rfl ?_ ?_
  · rw [Host.process?_modifyProcess, if_neg h.distinct.symm, h.compiler]
  · rw [Host.process?_modifyProcess, if_pos rfl, h.demangler, Option.map_some]

/-- The compiler ends by itself. -/
theorem finish (h : engine.Holds token run compiler demangler) :
    ({ engine with host := engine.host.finish run.compiler } : Engine α).Holds token run
      compiler.finish demangler := by
  refine h.of_processes rfl ?_ ?_
  · rw [Host.process?_finish, if_pos rfl, h.compiler, Option.map_some]
  · rw [Host.process?_finish, if_neg h.distinct, h.demangler]

/-- The demangler's input is closed. -/
theorem endInput (h : engine.Holds token run compiler demangler) :
    ({ engine with host := engine.host.endInput run.demangler } : Engine α).Holds token run
      compiler demangler.endInput := by
  refine h.of_processes rfl ?_ ?_
  · rw [Host.process?_endInput, if_neg h.distinct.symm, h.compiler]
  · rw [Host.process?_endInput, if_pos rfl, h.demangler, Option.map_some]

/-- A chunk is written to the demangler, unless the write fails. -/
theorem writeChunk (h : engine.Holds token run compiler demangler) (runs : demangler.isRunning)
    (index : Nat) (chunk : Bytes) :
    engine.Yields (writeChunk idle run.demangler index chunk)
      (.ok !(demangler.program.failingWrite == some index)) fun later =>
        later = if demangler.program.failingWrite == some index then engine else { engine with
          host := engine.host.modifyProcess run.demangler fun p => p.receive chunk } := by
  refine .interfere_bind (.get_bind ?_)
  rw [h.demangler]
  dsimp only
  rw [runs, Bool.not_true, Bool.false_or]
  cases demangler.program.failingWrite == some index with
  | true => exact .of_ok rfl rfl
  | false => exact .of_ok rfl rfl

/-- The chunks are passed on, unless one of the writes fails. -/
theorem relay (h : engine.Holds token run compiler demangler) (compiler_runs : compiler.isRunning)
    (demangler_runs : demangler.isRunning) (index : Nat) (chunks : List Bytes) :
    engine.Yields (relay idle token run index chunks)
      (if demangler.program.refuses index (readable chunks).length then
        .error (.inputRefused ⟨.brokenPipe, none⟩) else .ok ()) fun later =>
      later.Holds token run compiler.finish (demangler.receive (readUpToEnd chunks)) ∧
        later.sink = engine.sink := by
  have hend : ∀ {engine : Engine α} {demangler : Process},
      engine.Holds token run compiler demangler →
      engine.Yields (endOutput token run) (.ok ()) fun later =>
        later.Holds token run compiler.finish (demangler.receive []) ∧
          later.sink = engine.sink := by
    intro engine demangler h
    refine .modify_bind (.of_ok ?_ ?_)
    · rw [result_checkToken, h.finish.going]
      rfl
    · rw [after_checkToken, Process.receive_nil]
      exact ⟨h.finish, rfl⟩
  -- Induction on the chunks that are left: the demangler's input grows by each of them, and the
  -- number of the next write by one.
  induction chunks generalizing index engine demangler with
  | nil =>
    rw [readable_nil, List.length_nil, Program.refuses_zero, if_neg Bool.false_ne_true]
    exact .interfereWhileRunning_bind (hend h)
  | cons chunk rest ih =>
    refine .interfereWhileRunning_bind (.get_bind ?_)
    have hkilled : engine.wasKilled run.compiler = false := by
      rw [wasKilled, h.compiler]
      exact Process.wasKilled_of_isRunning compiler_runs
    rw [hkilled, Bool.or_false]
    cases hempty : chunk.isEmpty with
    | true =>
      -- read as the end: no write is left that could fail
      rw [readable_cons_of_isEmpty hempty, readUpToEnd_cons_of_isEmpty hempty, if_pos rfl,
        List.length_nil, Program.refuses_zero, if_neg Bool.false_ne_true]
      exact hend h
    | false =>
      rw [readable_cons hempty, List.length_cons, Program.refuses_succ, if_neg Bool.false_ne_true]
      refine h.checkToken_bind (.bind_ok (h.writeChunk demangler_runs index chunk) ?_)
      intro later hlater
      cases hrefused : demangler.program.failingWrite == some index with
      | true =>
        rw [hrefused, if_pos rfl] at hlater
        subst hlater
        exact .of_error h.result_refuse
      | false =>
        rw [hrefused, if_neg Bool.false_ne_true] at hlater
        subst hlater
        refine (ih (h.receive chunk) demangler_runs (index + 1)).mono fun later hlater => ?_
        rwa [Process.receive_receive, ← readUpToEnd_cons hempty] at hlater

/-- A run holds its processes where the runs in progress are the same. -/
theorem of_same {later : Engine α} (h : engine.Holds token run compiler demangler)
    (same : engine.SameRuns later) : later.Holds token run compiler demangler :=
  h.of_processes same.tokens (by rw [Host.process?, same.processes]; exact h.compiler)
    (by rw [Host.process?, same.processes]; exact h.demangler)

/-- The demangler's input is closed, unless that fails. -/
theorem closeInput (h : engine.Holds token run compiler demangler) :
    engine.Yields (closeInput idle run.demangler) (.ok !demangler.program.failsClose) fun later =>
      later = if demangler.program.failsClose then engine else
        { engine with host := engine.host.endInput run.demangler } := by
  refine .interfereWhileRunning_bind (.get_bind ?_)
  rw [h.demangler]
  dsimp only
  cases demangler.program.failsClose with
  | true => exact .of_ok rfl rfl
  | false => exact .of_ok rfl rfl

/-- A demangler whose input is closed answers it. -/
theorem answer (h : engine.Holds token run compiler demangler) (runs : demangler.isRunning)
    (name : String) :
    engine.Yields
      (do
        if !(← Engine.closeInput idle run.demangler) then refuseInput token
        let code ← awaitExit idle run.demangler
        reportDiagnostics run.demangler
        checkToken token
        if code ≠ 0 then throw (.demanglerExit name code)
        return (((← get).host.process? run.demangler).map fun process => process.output).getD [])
      (demangler.program.answer name (demangler.input.getD [])) fun later =>
        later.sink.shown = (engine.sink.shown || !demangler.program.diagnostics.isEmpty) := by
  -- with its input closed the demangler ends and has answered all of it
  have hended : demangler.endInput.status = .exited demangler.program.exitCode := by
    rw [Process.endInput_of_running runs]
  have houtput : demangler.endInput.output =
      demangler.program.respond (demangler.input.getD []) := by
    rw [Process.endInput_of_running runs]
  have hprogram : demangler.endInput.program = demangler.program := by
    rw [Process.endInput_of_running runs]
  refine .bind_ok h.closeInput ?_
  intro closed hclosed
  unfold Program.answer
  -- a close that fails is the one way to miss the answer
  cases hfails : demangler.program.failsClose with
  | true =>
    rw [hfails, if_pos rfl] at hclosed
    subst hclosed
    exact .bind_error h.result_refuse
  | false =>
    rw [hfails, if_neg Bool.false_ne_true] at hclosed
    subst hclosed
    refine .awaitExit_bind (.reportDiagnostics_bind h.endInput.demangler ?_)
    intro reported hsame hshown
    have hreported := h.endInput.of_same hsame
    refine hreported.checkToken_bind ?_
    rw [exitCode_of_found h.endInput.demangler hended]
    by_cases hcode : demangler.program.exitCode = 0
    · rw [if_neg (not_not_intro hcode), if_neg Bool.false_ne_true, if_neg (not_not_intro hcode)]
      refine .get_bind ?_
      rw [hreported.demangler, Option.map_some, Option.getD_some, houtput]
      exact .of_ok rfl (hprogram ▸ hshown)
    · rw [if_pos hcode, if_neg Bool.false_ne_true, if_pos hcode]
      exact .of_error rfl

/-- What both programs do together is what they are said to do. -/
theorem translate (h : engine.Holds token run compiler demangler)
    (compiler_runs : compiler.isRunning) (demangler_runs : demangler.isRunning)
    (input : demangler.input = some []) (compilerName demanglerName : String) :
    engine.Yields (translate idle token run compilerName demanglerName)
      (Programs.output ⟨compilerName, compiler.program, demanglerName, demangler.program⟩)
      fun later => later.sink.shown = (engine.sink.shown ||
        Programs.speak ⟨compilerName, compiler.program, demanglerName, demangler.program⟩) := by
  have hended : compiler.finish.status = .exited compiler.program.exitCode := by
    rw [Process.finish_of_running compiler_runs]
  have hprogram : compiler.finish.program = compiler.program := by
    rw [Process.finish_of_running compiler_runs]
  have hrelay := h.relay compiler_runs demangler_runs 0 compiler.program.chunks
  refine .get_bind ?_
  rw [h.compiler]
  cases hrefuses : demangler.program.refuses 0 (readable compiler.program.chunks).length with
  | true =>
    rw [hrefuses, if_pos rfl] at hrelay
    rw [Programs.output, if_pos hrefuses]
    exact .bind_error hrelay.result
  | false =>
    rw [hrefuses, if_neg Bool.false_ne_true] at hrelay
    rw [Programs.output, if_neg (Bool.eq_false_iff.1 hrefuses)]
    refine .bind_ok hrelay ?_
    rintro relayed ⟨hrelayed, hsink⟩
    refine .awaitExit_bind (.reportDiagnostics_bind hrelayed.compiler ?_)
    intro reported hsame hshown
    have hreported := hrelayed.of_same hsame
    refine hreported.checkToken_bind ?_
    rw [exitCode_of_found hrelayed.compiler hended]
    by_cases hcode : compiler.program.exitCode = 0
    · -- the demangler has received everything, and still runs
      rw [if_neg (not_not_intro hcode), if_neg (not_not_intro hcode)]
      have hanswer := hreported.answer demangler_runs demanglerName
      rw [Process.receive, input] at hanswer
      refine hanswer.mono fun later hlater => ?_
      rw [hlater, hshown, hsink, hprogram, Programs.speak, Bool.or_assoc]
    · rw [if_pos hcode, if_pos hcode]
      exact .of_error rfl

/-- Registration changes nothing for a run that is not cancelled. -/
theorem translateRegistered (h : engine.Holds token run compiler demangler)
    (compiler_runs : compiler.isRunning) (demangler_runs : demangler.isRunning)
    (input : demangler.input = some []) (compilerName demanglerName : String) :
    engine.Yields (translateRegistered idle token run compilerName demanglerName)
      (Programs.output ⟨compilerName, compiler.program, demanglerName, demangler.program⟩)
      fun later => later.sink.shown = (engine.sink.shown ||
        Programs.speak ⟨compilerName, compiler.program, demanglerName, demangler.program⟩) := by
  have hhost := host_registerRun h.going run
  have hsink : (engine.registerRun token run).sink = engine.sink := by
    unfold registerRun
    split <;> rfl
  have hregistered : (engine.registerRun token run).Holds token run compiler demangler :=
    ⟨by rw [isCancelled_registerRun, h.going], h.distinct, by rw [hhost, h.compiler],
      by rw [hhost, h.demangler]⟩
  rw [← hsink]
  exact .modify_bind (.ensuring (hregistered.translate compiler_runs demangler_runs input
    compilerName demanglerName) fun _ hlater => hlater)

end Holds

end Engine

end AsmScope
