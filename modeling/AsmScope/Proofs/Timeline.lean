import AsmScope.Engine.Run
import AsmScope.Proofs.Actions
import Mathlib.Logic.Function.Iterate
/-! # The timeline of a run

A run is taken apart into single steps, so that one can speak of what holds at a moment of it.
`Point` says how far a run is, `Task.step` goes on to the next point, and `Task.timeline` is the
sequence of all moments of a run. The rest of the program acts at most once in a step, and a step in
which it acts decides nothing after that: so whatever it does can be seen at the next moment, before
the run looks at its token again.

The timeline reaches a last moment, with the answer and the engine of `compileCommand`
(`exists_timeline_finished`). -/

namespace AsmScope

open Engine

/-- A compile request whose run has begun. -/
structure Task (α : Type) where
  /-- What the rest of the program does during the run. -/
  fire : Interference α
  /-- The token of the run. -/
  token : TokenId
  /-- The command of the source. -/
  command : CompileCommand
  /-- The source. -/
  source : String
  /-- The arguments that stand in for those of the command. -/
  override : Option (List String)

/-- Both processes of a run, with the names under which they were started. -/
structure Pair extends RunProcesses where
  /-- The name of the compiler. -/
  compilerName : String
  /-- The name of the demangler. -/
  demanglerName : String
  deriving DecidableEq, Repr

/-- How far a run is with passing the compiler's output through the demangler. -/
inductive Passage
  /-- About to read the chunk with this number, if there is one. -/
  | read (index : Nat) (rest : List Bytes)
  /-- A chunk has been read. -/
  | received (index : Nat) (chunk : Bytes) (rest : List Bytes)
  /-- About to write a chunk. -/
  | write (index : Nat) (chunk : Bytes) (rest : List Bytes)
  /-- A chunk is being written. -/
  | deliver (index : Nat) (chunk : Bytes) (rest : List Bytes)
  /-- The demangler does not take its input. -/
  | refused
  /-- The end of the output has been read. -/
  | ended
  /-- About to wait for the compiler. -/
  | awaitCompiler
  /-- The compiler has ended with this code. -/
  | checkCompiler (code : Int)
  /-- About to close the demangler's input. -/
  | closing
  /-- The demangler's input is being closed. -/
  | close
  /-- About to wait for the demangler. -/
  | awaitDemangler
  /-- The demangler has ended with this code. -/
  | checkDemangler (code : Int)
  deriving DecidableEq, Repr

/-- How far a run is. -/
inductive Point
  /-- Nothing has been started. -/
  | prepare
  /-- About to start the compiler. -/
  | startCompiler (invocation : Invocation) (demangler : Json)
  /-- About to start the demangler. -/
  | startDemangler (compilerName : String) (demangler : Json) (compiler : ProcessId)
  /-- Both programs have been started. -/
  | register (pair : Pair)
  /-- Output is passed on. -/
  | translating (pair : Pair) (passage : Passage)
  /-- The outcome is known; the token still guards the processes. -/
  | unregister (pair : Pair) (outcome : Except Failure Bytes)
  /-- The outcome is known; the demangler may still run. -/
  | stopDemangler (processes : RunProcesses) (outcome : Except Failure Bytes)
  /-- The outcome is known; the compiler may still run. -/
  | stopCompiler (compiler : ProcessId) (outcome : Except Failure Bytes)
  /-- The run is over. -/
  | finished (outcome : Except Failure String)

namespace Point

/-- Where a run is after a failure. -/
def failed : Point → Failure → Point
  | startDemangler _ _ compiler, failure => stopCompiler compiler (.error failure)
  | register pair, failure => stopDemangler pair.toRunProcesses (.error failure)
  | translating pair _, failure => unregister pair (.error failure)
  | _, failure => finished (.error failure)

/-- Neither has the run failed, nor has it looked at its token for the last time. -/
def Undecided : Point → Prop
  | prepare | startCompiler .. | startDemangler .. | register _ | translating .. => True
  | unregister .. | stopDemangler .. | stopCompiler .. | finished _ => False

/-- How the run is going to end, once that is known. -/
def outcome? : Point → Option (Except Failure String)
  | unregister _ outcome | stopDemangler _ outcome | stopCompiler _ outcome =>
    some (outcome.map fun output => Assembly.stripDirectives (Utf8.decodeReplacing output))
  | finished outcome => some outcome
  | _ => none

end Point

namespace Engine

variable {α β : Type} (engine : Engine α) (token : TokenId)

/-- The check of a token fails if it is cancelled. -/
@[simp] theorem result_checkToken : engine.result (checkToken token) =
    if engine.isCancelled token then .error .cancelled else .ok () := by
  simp only [checkToken, result_get_bind]
  split <;> rfl

/-- The check of a token leaves everything as it is. -/
@[simp] theorem after_checkToken : engine.after (checkToken token) = engine := by
  simp only [checkToken, after_get_bind]
  split <;> rfl

/-- A refused write is a cancellation if the token is cancelled, and else a broken pipe. -/
@[simp] theorem result_refuseInput : engine.result (refuseInput token : Action α β) =
    .error (if engine.isCancelled token then .cancelled
      else .inputRefused ⟨.brokenPipe, none⟩) := by
  rw [refuseInput, result_bind, result_checkToken]
  cases engine.isCancelled token <;> rfl

/-- A refused write leaves everything as it is. -/
@[simp] theorem after_refuseInput : engine.after (refuseInput token : Action α β) = engine := by
  rw [refuseInput, after_bind, after_checkToken, result_checkToken]
  cases engine.isCancelled token <;> rfl

end Engine

namespace Task

variable {α β γ : Type} (task : Task α)

/-- What a task has to do, in one go. -/
def compile : Action α String :=
  compileCommand task.fire task.token task.command task.source task.override

/-- What is done at a point while both processes are registered. -/
def advancePassage (pair : Pair) : Passage → Action α Point
  | .read _ [] => do
    interfereWhileRunning task.fire pair.compiler .beforeEnd
    return .translating pair .ended
  | .read index (chunk :: rest) => do
    interfereWhileRunning task.fire pair.compiler (.beforeChunk index)
    return .translating pair (.received index chunk rest)
  | .received index chunk rest => do
    if chunk.isEmpty || (← get).wasKilled pair.compiler then return .translating pair .ended
    else
      checkToken task.token
      return .translating pair (.write index chunk rest)
  | .write index chunk rest => do
    interfere task.fire pair.demangler (.beforeWrite index)
    return .translating pair (.deliver index chunk rest)
  | .deliver index chunk rest => do
    let engine ← get
    match engine.host.process? pair.demangler with
    | none => return .translating pair .refused
    | some process =>
      if !process.isRunning || process.program.failingWrite == some index then
        return .translating pair .refused
      else
        set { engine with
          host := engine.host.modifyProcess pair.demangler fun p => p.receive chunk }
        return .translating pair (.read (index + 1) rest)
  | .refused => refuseInput task.token
  | .ended => do
    endOutput task.token pair.toRunProcesses
    return .translating pair .awaitCompiler
  | .awaitCompiler => do
    let code ← awaitExit task.fire pair.compiler
    reportDiagnostics pair.compiler
    return .translating pair (.checkCompiler code)
  | .checkCompiler code => do
    checkToken task.token
    if code ≠ 0 then throw (.compilerExit pair.compilerName code)
    return .translating pair .closing
  | .closing => do
    interfereWhileRunning task.fire pair.demangler .beforeClose
    return .translating pair .close
  | .close => do
    let engine ← get
    match engine.host.process? pair.demangler with
    | none => return .translating pair .refused
    | some process =>
      if process.program.failsClose then return .translating pair .refused
      else
        set { engine with host := engine.host.endInput pair.demangler }
        return .translating pair .awaitDemangler
  | .awaitDemangler => do
    let code ← awaitExit task.fire pair.demangler
    reportDiagnostics pair.demangler
    return .translating pair (.checkDemangler code)
  | .checkDemangler code => do
    checkToken task.token
    if code ≠ 0 then throw (.demanglerExit pair.demanglerName code)
    let output := (((← get).host.process? pair.demangler).map fun p => p.output).getD []
    return .unregister pair (.ok output)

/-- Finds the demangler of an invocation and says what will be started. -/
def announce (invocation : Invocation) : Action α Json := do
  let demangler ← locateDemangler invocation.executable
  modify fun engine =>
    engine.appendLine ("Compiling using: " ++ " ".intercalate invocation.vector)
  modify fun engine => engine.appendLine ("Demangler: " ++ demangler.display)
  return demangler

/-- What is done at a point, and the point after it. -/
def advance : Point → Action α Point
  | .prepare => do
    let engine ← get
    let some invocation := Invocation.build? task.command (engine.host.absolute task.source)
        task.override engine.rewrites
      | throw (.emptyCommand task.command.file)
    let demangler ← announce invocation
    return .startCompiler invocation demangler
  | .startCompiler invocation demangler => do
    let engine ← get
    let compiler ← startProgram task.fire .compiler invocation.executable invocation.arguments
      (engine.compilerDirectory task.command) engine.compilerEnvironment
    return .startDemangler invocation.executable demangler compiler
  | .startDemangler compilerName demangler compiler => do
    let some demanglerName := demangler.text? | throw .settingNotText
    let demangler ← startProgram task.fire .demangler demanglerName [] none none
    return .register ⟨⟨compiler, demangler⟩, compilerName, demanglerName⟩
  | .register pair => do
    modify fun engine => engine.registerRun task.token pair.toRunProcesses
    let chunks := (((← get).host.process? pair.compiler).map fun p => p.program.chunks).getD []
    return .translating pair (.read 0 chunks)
  | .translating pair passage => advancePassage task pair passage
  | .unregister pair outcome => do
    modify fun engine => engine.unregisterRun task.token pair.toRunProcesses
    return .stopDemangler pair.toRunProcesses outcome
  | .stopDemangler processes outcome =>
    ensuring (pure (.stopCompiler processes.compiler outcome))
      (cleanUp task.fire processes.demangler)
  | .stopCompiler compiler outcome =>
    ensuring
      (pure (.finished (outcome.map fun output =>
        Assembly.stripDirectives (Utf8.decodeReplacing output))))
      (cleanUp task.fire compiler)
  | .finished outcome => pure (.finished outcome)

/-- One step of a run. -/
def step (moment : Point × Engine α) : Point × Engine α :=
  (match moment.2.result (task.advance moment.1) with
    | .ok point => point
    | .error failure => moment.1.failed failure,
    moment.2.after (task.advance moment.1))

/-- The moment of a run after some steps. -/
def timeline (begun : Engine α) (n : Nat) : Point × Engine α := task.step^[n] (.prepare, begun)

/-! ### The timeline of an action -/

/-- From a point on, the timeline does what an action does; it arrives where the value leads, or
where the failure does. -/
def Follows (point : Point) (action : Action α β) (next : β → Point) (failed : Failure → Point)
    (engine : Engine α) : Prop :=
  ∃ n, task.step^[n] (point, engine) =
    (match engine.result action with
      | .ok value => next value
      | .error failure => failed failure,
      engine.after action)

variable {task} {point : Point} {engine : Engine α} {failed : Failure → Point}

/-- One step follows an action that gives the same where it is taken. -/
theorem follows_step {action : Action α β} {next : β → Point}
    (result : engine.result (task.advance point) = (engine.result action).map next)
    (after : engine.after (task.advance point) = engine.after action) :
    task.Follows point action next point.failed engine := by
  refine ⟨1, ?_⟩
  rw [Function.iterate_one, step, result, after]
  cases engine.result action <;> rfl

/-- One step follows the action that is taken in it. -/
theorem follows_advance {action : Action α β} {next : β → Point}
    (h : task.advance point = action >>= fun value => pure (next value)) :
    task.Follows point action next point.failed engine := by
  refine follows_step ?_ ?_
  · rw [h, result_bind_pure]
  · rw [h, after_bind_pure]

/-- A step that leaves the engine alone may come first. -/
theorem Follows.head {action : Action α β} {next : β → Point} {between : Point}
    (first : task.step (point, engine) = (between, engine))
    (rest : task.Follows between action next failed engine) :
    task.Follows point action next failed engine := by
  obtain ⟨n, hn⟩ := rest
  exact ⟨n + 1, by rw [Function.iterate_succ_apply, first, hn]⟩

/-- Two actions in a row take their steps one after the other. -/
theorem Follows.bind {action : Action α β} {rest : β → Action α γ} {between : β → Point}
    {next : γ → Point} (first : task.Follows point action between failed engine)
    (second : ∀ value, engine.result action = .ok value →
      task.Follows (between value) (rest value) next failed (engine.after action)) :
    task.Follows point (action >>= rest) next failed engine := by
  obtain ⟨n, hn⟩ := first
  cases hresult : engine.result action with
  | error failure =>
    -- the second action is not reached
    refine ⟨n, ?_⟩
    rw [hn, result_bind, after_bind, hresult]
  | ok value =>
    obtain ⟨m, hm⟩ := second value hresult
    refine ⟨m + n, ?_⟩
    rw [Function.iterate_add_apply, hn, result_bind, after_bind, hresult]
    exact hm

/-- Two actions that are taken in one step, where the second one only has an effect. -/
theorem Follows.bind_effect {action : Action α β} {effect : β → Action α PUnit}
    {rest : β → Action α γ} (between : β → Point) {next : γ → Point}
    (first : task.Follows point (do let value ← action; effect value; return value) between failed
      engine)
    (second : ∀ value later, task.Follows (between value) (rest value) next failed later) :
    task.Follows point (do let value ← action; effect value; rest value) next failed engine := by
  have hassoc : (do let value ← action; effect value; rest value) =
      (do let value ← action; effect value; return value) >>= rest := by
    simp only [bind_assoc, pure_bind]
  rw [hassoc]
  exact .bind first fun value _ => second value _

/-- What is read from the engine takes no step. -/
theorem Follows.get_bind {rest : Engine α → Action α β} {next : β → Point}
    (h : task.Follows point (rest engine) next failed engine) :
    task.Follows point (get >>= rest) next failed engine := by
  obtain ⟨n, hn⟩ := h
  exact ⟨n, by rw [hn, result_get_bind, after_get_bind]⟩

/-- An action with a cleanup takes its own steps, and then the one of the cleanup. -/
theorem Follows.ensuring {action : Action α β} {cleanup : StateM (Engine α) Unit}
    {between next : β → Point} {before : Failure → Point}
    (first : task.Follows point action between before engine)
    (value : ∀ value later, task.step (between value, later) = (next value, (cleanup.run later).2))
    (failure : ∀ failure later, task.step (before failure, later) =
      (failed failure, (cleanup.run later).2)) :
    task.Follows point (ensuring action cleanup) next failed engine := by
  obtain ⟨n, hn⟩ := first
  -- the cleanup is one more step, from wherever the action has arrived
  refine ⟨n + 1, ?_⟩
  rw [Function.iterate_succ_apply', hn, result_ensuring, after_ensuring]
  cases engine.result action with
  | ok result => exact value result _
  | error reason => exact failure reason _

/-! ### The timeline of a run -/

/-- From a refused write on the timeline does what the program does about it. -/
theorem follows_refuseInput (pair : Pair) (next : β → Point) (engine : Engine α) :
    task.Follows (.translating pair .refused) (refuseInput task.token) next
      (.unregister pair ∘ .error) engine := by
  refine follows_step ?_ ?_
  · rw [advance, advancePassage, result_refuseInput, result_refuseInput]
    rfl
  · rw [advance, advancePassage, after_refuseInput, after_refuseInput]

/-- Writing a chunk takes one step to the write and one for it. -/
theorem follows_writeChunk (pair : Pair) (index : Nat) (chunk : Bytes) (rest : List Bytes)
    (engine : Engine α) :
    task.Follows (.translating pair (.write index chunk rest))
      (writeChunk task.fire pair.demangler index chunk)
      (fun taken => .translating pair (if taken then .read (index + 1) rest else .refused))
      (.unregister pair ∘ .error) engine := by
  refine .bind (follows_advance rfl) fun _ _ => .get_bind ?_
  generalize engine.after (interfere task.fire pair.demangler (.beforeWrite index)) = later
  refine follows_step ?_ ?_
  · rw [advance, advancePassage, result_get_bind]
    cases later.host.process? pair.demangler with
    | none => rfl
    | some process => dsimp only; split <;> rfl
  · rw [advance, advancePassage, after_get_bind]
    cases later.host.process? pair.demangler with
    | none => rfl
    | some process => dsimp only; split <;> rfl

/-- From the reading of some chunks on the timeline passes them on as the program does. -/
theorem follows_relay (pair : Pair) (index : Nat) (chunks : List Bytes) (engine : Engine α) :
    task.Follows (.translating pair (.read index chunks))
      (relay task.fire task.token pair.toRunProcesses index chunks)
      (fun _ => .translating pair .awaitCompiler) (.unregister pair ∘ .error) engine := by
  have hended : ∀ later : Engine α, task.Follows (.translating pair .ended)
      (endOutput task.token pair.toRunProcesses) (fun _ => .translating pair .awaitCompiler)
      (.unregister pair ∘ .error) later := fun _ => follows_advance rfl
  -- Induction on the chunks that are left. A chunk that is passed on takes four steps: it is read,
  -- the token is looked at, the write is announced, and the write takes place.
  induction chunks generalizing index engine with
  | nil => exact .bind (follows_advance rfl) fun _ _ => hended _
  | cons chunk rest ih =>
    refine .bind (follows_advance rfl) fun _ _ => .get_bind ?_
    generalize engine.after (interfereWhileRunning task.fire pair.compiler
      (.beforeChunk index)) = later
    by_cases hend : chunk.isEmpty || later.wasKilled pair.compiler
    · -- what was read is the end: the step that finds this out changes nothing
      rw [if_pos hend]
      refine .head ?_ (hended later)
      rw [step, advance, advancePassage, result_get_bind, after_get_bind, if_pos hend]
      rfl
    · rw [if_neg hend]
      have hcheck : task.Follows (.translating pair (.received index chunk rest))
          (checkToken task.token) (fun _ => .translating pair (.write index chunk rest))
          (.unregister pair ∘ .error) later := by
        refine follows_step ?_ ?_
        · rw [advance, advancePassage, result_get_bind, if_neg hend, result_bind]
          cases later.result (checkToken task.token) <;> rfl
        · rw [advance, advancePassage, after_get_bind, if_neg hend, after_bind]
          cases later.result (checkToken task.token) <;> rfl
      refine .bind hcheck fun _ _ => .bind (follows_writeChunk pair index chunk rest _) ?_
      intro taken _
      cases taken with
      | true => exact ih _ _
      | false =>
        -- the rest of the chunks is never read
        exact follows_refuseInput pair _ _

/-- Closing the demangler's input takes one step to the close and one for it. -/
theorem follows_closeInput (pair : Pair) (engine : Engine α) :
    task.Follows (.translating pair .closing) (closeInput task.fire pair.demangler)
      (fun closed => .translating pair (if closed then .awaitDemangler else .refused))
      (.unregister pair ∘ .error) engine := by
  refine .bind (follows_advance rfl) fun _ _ => .get_bind ?_
  generalize engine.after (interfereWhileRunning task.fire pair.demangler .beforeClose) = later
  refine follows_step ?_ ?_
  · rw [advance, advancePassage, result_get_bind]
    cases later.host.process? pair.demangler with
    | none => rfl
    | some process => dsimp only; split <;> rfl
  · rw [advance, advancePassage, after_get_bind]
    cases later.host.process? pair.demangler with
    | none => rfl
    | some process => dsimp only; split <;> rfl

/-- A check of the token and of an exit code takes one step. -/
theorem follows_check (point : Point) {code : Int} {failure : Failure} {next : Point}
    {last : β → Point} {rest : Action α β}
    (h : task.advance point = do
      checkToken task.token
      if code ≠ 0 then throw failure
      return next)
    (second : ∀ later, task.Follows next rest last point.failed later) :
    task.Follows point
      (do
        checkToken task.token
        if code ≠ 0 then throw failure
        rest)
      last point.failed engine := by
  have hcheck : task.Follows point (do checkToken task.token; if code ≠ 0 then throw failure)
      (fun _ => next) point.failed engine := by
    refine follows_advance ?_
    rw [h, bind_assoc]
    by_cases hcode : code = 0 <;> simp [hcode]
  have hassoc :
      (do
        checkToken task.token
        if code ≠ 0 then throw failure
        rest) =
      (do checkToken task.token; if code ≠ 0 then throw failure) >>= fun _ => rest := by
    rw [bind_assoc]
    by_cases hcode : code = 0 <;> simp [hcode]
  rw [hassoc]
  exact .bind hcheck fun _ _ => second _

/-- From the first chunk on it does what the whole translation does. -/
theorem follows_translate (pair : Pair) (engine : Engine α) :
    task.Follows (.translating pair (.read 0
        (((engine.host.process? pair.compiler).map fun p => p.program.chunks).getD [])))
      (translate task.fire task.token pair.toRunProcesses pair.compilerName pair.demanglerName)
      (fun output => .unregister pair (.ok output)) (.unregister pair ∘ .error) engine := by
  refine .get_bind (.bind (follows_relay pair 0 _ engine) fun _ _ => ?_)
  -- waiting for a process and reporting what it said are one step, looking at its code is the next
  refine .bind_effect (fun code => .translating pair (.checkCompiler code))
    (follows_advance ?_) fun code later => ?_
  · simp only [advance, advancePassage, bind_assoc, pure_bind]
  · refine follows_check (.translating pair (.checkCompiler code)) rfl fun later => ?_
    refine .bind (follows_closeInput pair later) fun closed _ => ?_
    cases closed with
    | false =>
      -- `refuseInput` has no value, so nothing comes after it
      refine .bind (follows_refuseInput pair (fun _ : Unit => .translating pair .refused) _) ?_
      intro value hvalue
      simp at hvalue
    | true =>
      change task.Follows (.translating pair .awaitDemangler) _ _ _ _
      refine .bind_effect (fun code => .translating pair (.checkDemangler code))
        (follows_advance ?_) fun code later => follows_step ?_ ?_
      · simp only [advance, advancePassage, bind_assoc, pure_bind]
      · rw [advance, advancePassage, result_bind, result_bind]
        cases later.result (checkToken task.token) with
        | error failure => rfl
        | ok => dsimp only; split <;> rfl
      · rw [advance, advancePassage, after_bind, after_bind]
        cases later.result (checkToken task.token) with
        | error failure => rfl
        | ok => dsimp only; split <;> rfl

/-- From the registration on it translates, and takes the registration back. -/
theorem follows_translateRegistered (pair : Pair) (engine : Engine α) :
    task.Follows (.register pair)
      (translateRegistered task.fire task.token pair.toRunProcesses pair.compilerName
        pair.demanglerName)
      (fun output => .stopDemangler pair.toRunProcesses (.ok output))
      (.stopDemangler pair.toRunProcesses ∘ .error) engine := by
  have hregister : task.Follows (.register pair)
      (modify fun engine => engine.registerRun task.token pair.toRunProcesses : Action α PUnit)
      (fun _ => .translating pair (.read 0
        ((((engine.registerRun task.token pair.toRunProcesses).host.process? pair.compiler).map
          fun p => p.program.chunks).getD [])))
      (.stopDemangler pair.toRunProcesses ∘ .error) engine := follows_step rfl rfl
  refine .bind hregister fun _ _ => ?_
  exact .ensuring (follows_translate pair _) (fun _ _ => rfl) fun _ _ => rfl

/-- From the start of the demangler on it does what the program does, up to stopping it. -/
theorem follows_startDemangler (compilerName : String) (demangler : Json) (compiler : ProcessId)
    (engine : Engine α) :
    task.Follows (.startDemangler compilerName demangler compiler)
      (do
        let some name := demangler.text? | throw .settingNotText
        let demangler ← startProgram task.fire .demangler name [] none none
        ensuring (translateRegistered task.fire task.token ⟨compiler, demangler⟩ compilerName name)
          (cleanUp task.fire demangler))
      (fun output => .stopCompiler compiler (.ok output)) (.stopCompiler compiler ∘ .error)
      engine := by
  cases hname : demangler.text? with
  | none => exact follows_step (by rw [advance, hname]; rfl) (by rw [advance, hname]; rfl)
  | some name =>
    refine .bind (follows_advance (by rw [advance, hname])) fun id _ => ?_
    exact .ensuring (follows_translateRegistered ⟨⟨compiler, id⟩, compilerName, name⟩ _)
      (fun _ _ => rfl) fun _ _ => rfl

/-- From the start of the compiler on it does what the program does, up to stopping that one too. -/
theorem follows_startCompiler (invocation : Invocation) (demangler : Json) (engine : Engine α) :
    task.Follows (.startCompiler invocation demangler)
      (do
        let compiler ← startProgram task.fire .compiler invocation.executable invocation.arguments
          (engine.compilerDirectory task.command) engine.compilerEnvironment
        let output ← ensuring
          (do
            let some name := demangler.text? | throw .settingNotText
            let demangler ← startProgram task.fire .demangler name [] none none
            ensuring (translateRegistered task.fire task.token ⟨compiler, demangler⟩
              invocation.executable name) (cleanUp task.fire demangler))
          (cleanUp task.fire compiler)
        return Assembly.stripDirectives (Utf8.decodeReplacing output))
      (.finished ∘ .ok) (.finished ∘ .error) engine := by
  have hstart : task.Follows (.startCompiler invocation demangler)
      (startProgram task.fire .compiler invocation.executable invocation.arguments
        (engine.compilerDirectory task.command) engine.compilerEnvironment)
      (.startDemangler invocation.executable demangler) (.finished ∘ .error) engine := by
    refine follows_step ?_ ?_
    · rw [advance, result_get_bind, result_bind_pure]
    · rw [advance, after_get_bind, after_bind_pure]
  refine .bind hstart fun compiler _ => ?_
  exact .bind (.ensuring (follows_startDemangler _ demangler compiler _) (fun _ _ => rfl)
    fun _ _ => rfl) fun output _ => ⟨0, rfl⟩

/-- What comes after an announcement is the rest of a run. -/
theorem announce_bind (invocation : Invocation) (rest : Json → Action α β) :
    announce invocation >>= rest = (do
      let demangler ← locateDemangler invocation.executable
      modify fun engine =>
        engine.appendLine ("Compiling using: " ++ " ".intercalate invocation.vector)
      modify fun engine => engine.appendLine ("Demangler: " ++ demangler.display)
      rest demangler) := by
  simp only [announce, bind_assoc, pure_bind]

/-- **The timeline of a run does what the run does.** -/
theorem follows_compileCommand (task : Task α) (engine : Engine α) :
    task.Follows .prepare task.compile (.finished ∘ .ok) (.finished ∘ .error) engine := by
  refine .get_bind ?_
  cases hbuild : Invocation.build? task.command (engine.host.absolute task.source) task.override
      engine.rewrites with
  | none =>
    refine follows_step ?_ ?_
    · rw [advance, result_get_bind, hbuild]
      rfl
    · rw [advance, after_get_bind, hbuild]
      rfl
  | some invocation =>
    -- the announcement and the search for the demangler are one step together
    have hannounce : task.Follows .prepare (announce invocation) (.startCompiler invocation)
        (.finished ∘ .error) engine := by
      refine follows_step ?_ ?_
      · rw [advance, result_get_bind, hbuild, result_bind_pure]
      · rw [advance, after_get_bind, hbuild, after_bind_pure]
    dsimp only
    rw [← announce_bind]
    exact .bind hannounce fun demangler _ => .get_bind (follows_startCompiler _ demangler _)

/-! ### The end of a run -/

/-- A run that is over stays as it is. -/
theorem timeline_eq_of_le {begun last : Engine α} {outcome : Except Failure String} {n m : Nat}
    (h : task.timeline begun n = (.finished outcome, last)) (hle : n ≤ m) :
    task.timeline begun m = (.finished outcome, last) := by
  obtain ⟨d, rfl⟩ := Nat.exists_eq_add_of_le' hle
  -- the last moment is a fixed point of the step
  rw [timeline, Function.iterate_add_apply, ← timeline, h]
  exact Function.iterate_fixed rfl d

/-- **Every run ends**, with the answer and the engine of its last moment. -/
theorem exists_timeline_finished (task : Task α) (begun : Engine α) :
    ∃ n, task.timeline begun n =
      (.finished (begun.result task.compile), begun.after task.compile) := by
  obtain ⟨n, hn⟩ := follows_compileCommand task begun
  refine ⟨n, ?_⟩
  rw [timeline, hn]
  cases begun.result task.compile <;> rfl

/-- The next moment is one step further. -/
theorem timeline_succ (task : Task α) (begun : Engine α) (n : Nat) :
    task.timeline begun (n + 1) = task.step (task.timeline begun n) :=
  Function.iterate_succ_apply' _ _ _

/-- What holds at the beginning of a run and is kept by its steps holds at all of its moments. -/
theorem timeline_induction {P : Point × Engine α → Prop} {begun : Engine α}
    (start : P (.prepare, begun)) (keep : ∀ moment, P moment → P (task.step moment)) (n : Nat) :
    P (task.timeline begun n) := by
  induction n with
  | zero => exact start
  | succ n ih =>
    rw [timeline_succ]
    exact keep _ ih

end Task

end AsmScope
