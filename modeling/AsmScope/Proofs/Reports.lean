import AsmScope.Proofs.Runs
/-! # What a run tells

The lines that a run leaves in the sink. However disturbed it was, a run that fails by itself leaves
its failure as the last line, and the lines shown (`lastLine_run`). -/

namespace AsmScope

open Engine

/-- Whether showing was asked for. -/
def Sink.shown : Sink → Bool
  | .buffer lines => lines.showRequested
  | .journal shown => shown

/-- A line that is appended does not ask for anything to be shown. -/
@[simp] theorem Sink.shown_append (sink : Sink) (line : String) (host : Host) :
    (sink.append line host).1.shown = sink.shown := by
  cases sink <;> rfl

/-- After it was asked for, showing was asked for. -/
@[simp] theorem Sink.shown_requestShow (sink : Sink) : sink.requestShow.shown = true := by
  cases sink <;> rfl

namespace Engine

variable {α : Type}

/-- A line of output does not ask for the output to be shown. -/
theorem shown_appendLine (engine : Engine α) (line : String) :
    (engine.appendLine line).sink.shown = engine.sink.shown := by
  rw [appendLine, Sink.shown_append]

/-- The line that the sink was given last. A buffer that keeps no lines shows none. -/
def LastLine (engine : Engine α) (line : String) : Prop :=
  match engine.sink with
  | .buffer buffer => buffer.capacity ≠ some 0 →
    buffer.lines.getLast? = some (Text.withoutFinalLineFeeds line)
  | .journal _ => engine.host.journal.getLast? =
    some ⟨.info, "output", Text.withoutFinalLineFeeds line⟩

/-- The line that was added last is kept, if any line is. -/
theorem getLast?_lastLines {capacity : Option Nat} (h : capacity ≠ some 0) (lines : List String)
    (line : String) : (LineBuffer.lastLines capacity (lines ++ [line])).getLast? = some line := by
  cases capacity with
  | none => exact List.getLast?_concat
  | some n =>
    have hpos : n ≠ 0 := fun hn => h (congrArg some hn)
    rw [LineBuffer.lastLines, List.getLast?_drop, if_neg]
    · exact List.getLast?_concat
    · rw [List.length_append, List.length_singleton]
      omega

/-- A line of output is then the last one. -/
theorem lastLine_appendLine (engine : Engine α) (line : String) :
    (engine.appendLine line).LastLine line := by
  unfold LastLine appendLine
  cases engine.sink with
  | buffer buffer => exact fun hcapacity => getLast?_lastLines hcapacity _ _
  | journal shown => exact List.getLast?_concat

/-- The last line stays the last one when the output is asked to be shown. -/
theorem lastLine_showOutput {engine : Engine α} {line : String} (h : engine.LastLine line) :
    engine.showOutput.LastLine line := by
  unfold LastLine showOutput at *
  cases hsink : engine.sink with
  | buffer buffer =>
    rw [hsink] at h
    exact h
  | journal shown =>
    rw [hsink] at h
    exact h

/-- A run that failed by itself has its failure as the last output line, and the lines shown. -/
theorem lastLine_reportOutcome (engine : Engine α) (source : String) {failure : Failure}
    (h : failure.isRunFailure) :
    (reportOutcome source (.error failure) engine).LastLine failure.message ∧
      (reportOutcome source (.error failure) engine).sink.shown := by
  have hreport : reportOutcome source (.error failure) engine =
      ((engine.log .error "pipeline" failure.message).appendLine failure.message).showOutput := by
    rw [reportOutcome, if_neg, if_pos h]
    rintro rfl
    cases h
  rw [hreport]
  exact ⟨lastLine_showOutput (lastLine_appendLine _ _), Sink.shown_requestShow _⟩

/-! ### Runs -/

variable {engine : Engine α} {fire : Interference α} {id : DatabaseId} {source : String}
  {override : Option (List String)}

/-- A run that fails by itself has its failure as the last output line, and the lines shown. -/
theorem lastLine_run {failure : Failure}
    (h : engine.result (run fire id source override) = .error failure)
    (failed : failure.isRunFailure) :
    (engine.after (run fire id source override)).LastLine failure.message ∧
      (engine.after (run fire id source override)).sink.shown := by
  -- a run that fails earlier than its compilation fails otherwise
  cases hcommand : engine.lookup id source with
  | none =>
    rw [result_run_of_none hcommand] at h
    cases h
    cases failed
  | some command =>
    obtain ⟨token, begun, hstart⟩ : ∃ token begun, engine.beginCompilation id = (token, begun) :=
      ⟨_, _, rfl⟩
    cases hreadable : begun.host.seconds? with
    | none =>
      rw [result_run_of_unreadable hcommand hstart hreadable] at h
      cases h
      cases failed
    | some start =>
      have hbegins : engine.Begins fire id source override ⟨fire, token, command, source, override⟩
          begun := begins_of_readable hcommand hstart hreadable
      rw [hbegins.result_run] at h
      rw [hbegins.after_run]
      cases htimed : begun.result
          (timed (Task.compile ⟨fire, token, command, source, override⟩)) with
      | ok timing =>
        rw [htimed] at h
        cases h
      | error error =>
        rw [htimed] at h
        cases h
        exact lastLine_reportOutcome _ source failed

/-- Reporting how a run ended takes no time. -/
theorem stopwatch_reportOutcome (engine : Engine α) (source : String)
    (outcome : Except Failure (String × Binary64)) :
    (reportOutcome source outcome engine).host.stopwatch = engine.host.stopwatch := by
  have hline : ∀ (engine : Engine α) (line : String),
      (engine.appendLine line).host.stopwatch = engine.host.stopwatch := by
    intro engine line
    unfold appendLine
    cases engine.sink <;> rfl
  unfold reportOutcome
  split
  · exact hline _ _
  · split
    · rfl
    · split
      · exact hline _ _
      · rfl

end Engine

end AsmScope
