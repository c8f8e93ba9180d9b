import AsmScope.Proofs.Timeline
/-! # Runs and their timelines

How the answer of a run, and the engine that it leaves, follow from the last moment of its
timeline. -/

namespace AsmScope

namespace Engine

variable {α β : Type} (engine : Engine α)

/-- Reading the stopwatch answers its seconds, or fails if the format has no room for them. -/
theorem result_readStopwatch : engine.result readStopwatch =
    match engine.host.seconds? with
    | some seconds => .ok seconds
    | none => .error .beyondFormat := by
  rw [readStopwatch, result_get_bind]
  cases engine.host.seconds? <;> rfl

/-- Reading the stopwatch leaves everything as it is. -/
theorem after_readStopwatch : engine.after readStopwatch = engine := by
  rw [readStopwatch, after_get_bind]
  cases engine.host.seconds? <;> rfl

/-- An action is timed from one reading of the stopwatch to another. -/
theorem result_timed (action : Action α β) :
    engine.result (timed action) =
      match engine.host.seconds?, engine.result action, (engine.after action).host.seconds? with
      | none, _, _ => .error .beyondFormat
      | some _, .error failure, _ => .error failure
      | some _, .ok _, none => .error .beyondFormat
      | some start, .ok value, some finish => .ok (value, finish.sub start) := by
  rw [timed, result_bind, result_readStopwatch, after_readStopwatch]
  cases engine.host.seconds? with
  | none => rfl
  | some start =>
    dsimp only
    rw [result_bind]
    cases engine.result action with
    | error failure => rfl
    | ok value =>
      dsimp only
      rw [result_bind_pure, result_readStopwatch]
      cases (engine.after action).host.seconds? <;> rfl

/-- What is timed needs a stopwatch that can be read at the beginning and, after a success, at the
end. -/
def timedBy (start finish : Option Binary64) (outcome : Except Failure β) : Except Failure β :=
  match start, outcome, finish with
  | none, _, _ => .error .beyondFormat
  | some _, .error failure, _ => .error failure
  | some _, .ok _, none => .error .beyondFormat
  | some _, .ok value, some _ => .ok value

/-- A failure other than that of the stopwatch is one of what is timed. -/
theorem of_timedBy_error {start finish : Option Binary64} {outcome : Except Failure β}
    {failure : Failure} (h : timedBy start finish outcome = .error failure)
    (format : failure ≠ .beyondFormat) : outcome = .error failure := by
  unfold timedBy at h
  split at h
  · exact absurd (Except.error.inj h).symm format
  · exact h
  · exact absurd (Except.error.inj h).symm format
  · cases h

/-- What a timed action answers is told by what it answers and by the stopwatch before and after
it. -/
theorem map_result_timed (action : Action α β) :
    (engine.result (timed action)).map Prod.fst =
      timedBy engine.host.seconds? (engine.after action).host.seconds? (engine.result action) := by
  rw [result_timed]
  cases engine.host.seconds? with
  | none => rfl
  | some start =>
    cases engine.result action with
    | error failure => rfl
    | ok value => cases (engine.after action).host.seconds? <;> rfl

/-- If a timed action succeeds, the stopwatch could be read before it, and the action has
succeeded. -/
theorem of_result_timed_ok {engine : Engine α} {action : Action α β} {timing : β × Binary64}
    (h : engine.result (timed action) = .ok timing) :
    engine.host.seconds?.isSome ∧ engine.result action = .ok timing.1 := by
  rw [result_timed] at h
  split at h
  case h_4 start value finish hstart haction hfinish =>
    cases h
    exact ⟨by rw [hstart]; rfl, haction⟩
  all_goals cases h

/-- Timing an action leaves what the action leaves, if the stopwatch can be read before it. -/
theorem after_timed (action : Action α β) (h : engine.host.seconds?.isSome) :
    engine.after (timed action) = engine.after action := by
  obtain ⟨start, hstart⟩ := Option.isSome_iff_exists.1 h
  rw [timed, after_bind, result_readStopwatch, after_readStopwatch, hstart]
  dsimp only
  rw [after_bind]
  cases engine.result action with
  | error failure => rfl
  | ok value =>
    dsimp only
    rw [after_bind_pure, after_readStopwatch]

/-- Handing on an outcome answers it. -/
theorem result_ofExcept (outcome : Except Failure β) :
    engine.result (MonadExcept.ofExcept outcome : Action α β) = outcome := by
  cases outcome <;> rfl

/-- Handing on an outcome leaves everything as it is. -/
theorem after_ofExcept (outcome : Except Failure β) :
    engine.after (MonadExcept.ofExcept outcome : Action α β) = engine := by
  cases outcome <;> rfl

variable {engine} {fire : Interference α} {id : DatabaseId} {source : String}
  {override : Option (List String)}

/-- A run of a source without a command ends before it begins. -/
theorem result_run_of_none (h : engine.lookup id source = none) :
    engine.result (run fire id source override) = .error (.noCommand source) := by
  rw [run, result_get_bind, h]
  rfl

/-- A run without a command does nothing. -/
theorem after_run_of_none (h : engine.lookup id source = none) :
    engine.after (run fire id source override) = engine := by
  rw [run, after_get_bind, h]
  rfl

/-- A run of a source with a command gives what its programs give. -/
theorem result_run_of_start {command : CompileCommand} {token : TokenId} {begun : Engine α}
    (hcommand : engine.lookup id source = some command)
    (hstart : engine.beginCompilation id = (token, begun)) :
    engine.result (run fire id source override) =
      (begun.result (timed (compileCommand fire token command source override))).map Prod.fst := by
  rw [run, result_get_bind, hcommand]
  dsimp only
  rw [result_get_bind, hstart]
  dsimp only
  rw [result_set_bind, result_bind, result_observe]
  dsimp only
  rw [result_modify_bind, result_modify_bind, result_ofExcept]

/-- What a run of a source with a command leaves behind: its programs are run, the outcome is
reported, and the compilation ends. -/
theorem after_run_of_start {command : CompileCommand} {token : TokenId} {begun : Engine α}
    (hcommand : engine.lookup id source = some command)
    (hstart : engine.beginCompilation id = (token, begun)) :
    engine.after (run fire id source override) =
      (reportOutcome source
        (begun.result (timed (compileCommand fire token command source override)))
        (begun.after (timed (compileCommand fire token command source override)))).endCompilation
          id token := by
  rw [run, after_get_bind, hcommand]
  dsimp only
  rw [after_get_bind, hstart]
  dsimp only
  rw [after_set_bind, after_bind, result_observe, after_observe]
  dsimp only
  rw [after_modify_bind, after_modify_bind, after_ofExcept]

/-- A run begins as this task in this engine, with a stopwatch that can be read. -/
structure Begins (engine : Engine α) (fire : Interference α) (id : DatabaseId) (source : String)
    (override : Option (List String)) (task : Task α) (begun : Engine α) : Prop where
  command : engine.lookup id source = some task.command
  start : engine.beginCompilation id = (task.token, begun)
  fire : task.fire = fire
  source : task.source = source
  override : task.override = override
  readable : begun.host.seconds?.isSome

namespace Begins

variable {task : Task α} {begun : Engine α}

/-- A run that begins as a task answers what the task does. -/
theorem result_run (h : engine.Begins fire id source override task begun) :
    engine.result (run fire id source override) =
      (begun.result (timed task.compile)).map Prod.fst := by
  obtain ⟨hcommand, hstart, rfl, rfl, rfl, -⟩ := h
  exact result_run_of_start hcommand hstart

/-- A run that begins as a task leaves what the task leaves, with its outcome reported and the
compilation ended. -/
theorem after_run (h : engine.Begins fire id source override task begun) :
    engine.after (run fire id source override) =
      (reportOutcome source (begun.result (timed task.compile))
        (begun.after task.compile)).endCompilation id task.token := by
  rw [← begun.after_timed task.compile h.readable]
  obtain ⟨hcommand, hstart, rfl, rfl, rfl, -⟩ := h
  exact after_run_of_start hcommand hstart

/-- A run fails as its programs do. -/
theorem result_run_of_error (h : engine.Begins fire id source override task begun)
    {failure : Failure} (hfailure : begun.result task.compile = .error failure) :
    engine.result (run fire id source override) = .error failure := by
  obtain ⟨seconds, hseconds⟩ := Option.isSome_iff_exists.1 h.readable
  rw [h.result_run, result_timed, hseconds, hfailure]
  rfl

end Begins

/-- Without a stopwatch that can be read a run ends at once. -/
theorem result_run_of_unreadable {command : CompileCommand} {token : TokenId} {begun : Engine α}
    (hcommand : engine.lookup id source = some command)
    (hstart : engine.beginCompilation id = (token, begun))
    (unreadable : begun.host.seconds? = none) :
    engine.result (run fire id source override) = .error .beyondFormat := by
  rw [result_run_of_start hcommand hstart, result_timed, unreadable]
  rfl

/-- A run with a command begins, if the stopwatch can be read. -/
theorem begins_of_readable {command : CompileCommand} {token : TokenId} {begun : Engine α}
    {start : Binary64} (hcommand : engine.lookup id source = some command)
    (hstart : engine.beginCompilation id = (token, begun))
    (readable : begun.host.seconds? = some start) :
    engine.Begins fire id source override ⟨fire, token, command, source, override⟩ begun :=
  ⟨hcommand, hstart, rfl, rfl, rfl, by rw [readable]; rfl⟩

/-- A run that gives a text has begun, and its programs have given the text. -/
theorem exists_begins_of_ok {text : String}
    (h : engine.result (run fire id source override) = .ok text) :
    ∃ task begun, engine.Begins fire id source override task begun ∧
      begun.result task.compile = .ok text := by
  -- an answer needs a command, a readable clock and a compilation that succeeds
  cases hcommand : engine.lookup id source with
  | none =>
    rw [result_run_of_none hcommand] at h
    cases h
  | some command =>
    cases hstart : engine.beginCompilation id with
    | mk token begun =>
      rw [result_run_of_start hcommand hstart] at h
      refine ⟨⟨fire, token, command, source, override⟩, begun, ?_⟩
      cases htimed : begun.result (timed (compileCommand fire token command source override)) with
      | error failure =>
        rw [htimed] at h
        cases h
      | ok timing =>
        rw [htimed] at h
        obtain ⟨hseconds, hcompile⟩ := of_result_timed_ok htimed
        obtain rfl : timing.1 = text := Except.ok.inj h
        exact ⟨⟨hcommand, hstart, rfl, rfl, rfl, hseconds⟩, hcompile⟩

end Engine

end AsmScope
