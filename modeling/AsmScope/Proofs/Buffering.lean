import AsmScope.Scenario.SinkSteps
import Mathlib.Data.List.DropRight
import Mathlib.Data.List.Range
/-! # A line buffer as a bounded queue

What a line buffer answers can be told from the operations before: a drain gives the last lines of
those that were appended since the drain before it, as many as the buffer holds (`lines_afterAll`),
and a request to be shown is there if it was made since the last one was taken
(`showRequested_afterAll`). So over a whole run the given lines stand in the order in which they
were appended, each once, and the lines that are missing are those behind which the buffer was
filled again before the next drain (`flatMap_given_answers`). -/

namespace AsmScope

/-- Of the line feeds at the end of a text none is left, and nothing else is taken away. -/
theorem Text.withoutFinalLineFeeds_eq_iff (s t : String) :
    withoutFinalLineFeeds s = t ↔
      (∃ n, s.toList = t.toList ++ List.replicate n '\n') ∧ t.toList.getLast? ≠ some '\n' := by
  -- on characters, the function is the library's `rdropWhile`
  have hsame : withoutFinalLineFeeds s = t ↔ s.toList.rdropWhile (· == '\n') = t.toList := by
    rw [← String.toList_inj, withoutFinalLineFeeds, String.toList_ofList]
    rfl
  rw [hsame]
  generalize s.toList = cs
  generalize t.toList = ds
  constructor
  · rintro rfl
    constructor
    · have hfeeds : cs.rtakeWhile (· == '\n') =
          List.replicate (cs.rtakeWhile (· == '\n')).length '\n' :=
        List.eq_replicate_length.2 fun c hc => by simpa using List.mem_rtakeWhile_imp hc
      exact ⟨_, by rw [← hfeeds, List.rdropWhile_append_rtakeWhile]⟩
    · intro hlast
      obtain ⟨front, hfront⟩ := List.getLast?_eq_some_iff.1 hlast
      have hne : cs.rdropWhile (· == '\n') ≠ [] := by simp [hfront]
      exact List.rdropWhile_last_not _ _ hne (by simp [hfront])
  · rintro ⟨⟨n, rfl⟩, hlast⟩
    -- the line feeds at the end go one by one, from the last
    induction n with
    | zero =>
      rw [List.replicate_zero, List.append_nil, List.rdropWhile_eq_self_iff]
      intro hne hfeed
      exact hlast (by simpa [List.getLast?_eq_some_getLast hne] using hfeed)
    | succ n ih =>
      rw [List.replicate_succ', ← List.append_assoc, List.rdropWhile_concat_pos _ _ _ (by simp), ih]

namespace Scenario

/-- The line that an operation appends. -/
def SinkStep.line? : SinkStep → Option String
  | .append line => some (Text.withoutFinalLineFeeds line)
  | _ => none

/-- Whether an operation is about lines, and not about showing them. -/
def SinkStep.isAboutLines : SinkStep → Bool
  | .append _ | .drain => true
  | .requestShow | .takeShowRequest => false

/-- The lines that an answer gives. -/
def SinkAnswer.given : SinkAnswer → List String
  | .lines given => given
  | .done | .flag _ => []

/-- The answers to the operations of one kind. -/
def answersTo {α : Type} (kind : SinkStep → Bool) (steps : List SinkStep) (answers : List α) :
    List α :=
  ((steps.zip answers).filter fun entry => kind entry.1).map Prod.snd

/-- Picking the answers to a kind of step commutes with doing something to every answer. -/
theorem answersTo_map {α β : Type} (f : α → β) (kind : SinkStep → Bool) (steps : List SinkStep)
    (answers : List α) :
    answersTo kind steps (answers.map f) = (answersTo kind steps answers).map f := by
  rw [answersTo, answersTo, List.zip_map_right, List.filter_map, List.map_map, List.map_map]
  rfl

/-! ### What the operations say -/

/-- The lines that were appended since the last drain. -/
def waitingLines (steps : List SinkStep) : List String :=
  (steps.rtakeWhile (· ≠ .drain)).filterMap SinkStep.line?

/-- Whether the lines were asked to be shown since that was last taken note of. -/
def Requested (steps : List SinkStep) : Prop :=
  .requestShow ∈ steps.rtakeWhile (· ≠ .takeShowRequest)

instance : DecidablePred Requested := fun steps =>
  inferInstanceAs (Decidable (.requestShow ∈ steps.rtakeWhile (· ≠ .takeShowRequest)))

/-- One more step takes all waiting lines, if it drains, and else adds the line that it appends. -/
theorem waitingLines_concat (steps : List SinkStep) (step : SinkStep) :
    waitingLines (steps ++ [step]) =
      if step = .drain then [] else waitingLines steps ++ step.line?.toList := by
  rw [waitingLines, List.rtakeWhile_concat]
  split
  · next h =>
    rw [if_neg (of_decide_eq_true h), List.filterMap_append, ← waitingLines]
    cases hline : step.line? <;> simp [hline]
  · next h => rw [if_pos (by simpa using h), List.filterMap_nil]

/-- A request is open after one more step if this asks for it, or if one was open that this does not
take. -/
theorem requested_concat (steps : List SinkStep) (step : SinkStep) :
    Requested (steps ++ [step]) ↔
      step ≠ .takeShowRequest ∧ (step = .requestShow ∨ Requested steps) := by
  rw [Requested, List.rtakeWhile_concat]
  split
  · next h =>
    rw [List.mem_append, List.mem_singleton, ← Requested, or_comm, eq_comm]
    exact (and_iff_right (of_decide_eq_true h)).symm
  · next h => simp only [List.not_mem_nil, false_iff, not_and_or]; exact .inl (by simpa using h)

/-- How many lines are appended before the next drain. -/
def newerLines (steps : List SinkStep) : Nat :=
  ((steps.takeWhile (· ≠ .drain)).filterMap SinkStep.line?).length

/-- The operation that comes first appends a line that the next drain gives. -/
def Survives (capacity : Nat) : List SinkStep → Prop
  | .append _ :: rest => .drain ∈ rest ∧ newerLines rest < capacity
  | _ => False

instance (capacity : Nat) : DecidablePred (Survives capacity)
  | .append _ :: rest => inferInstanceAs (Decidable (.drain ∈ rest ∧ newerLines rest < capacity))
  | [] | .requestShow :: _ | .drain :: _ | .takeShowRequest :: _ => .isFalse id

/-- The lines that are given in the end. -/
def survivors (capacity : Nat) : List SinkStep → List String
  | [] => []
  | step :: rest =>
    (if Survives capacity (step :: rest) then step.line?.toList else []) ++ survivors capacity rest

/-- An appended line is one more in front of the next drain. -/
theorem newerLines_append (line : String) (rest : List SinkStep) :
    newerLines (.append line :: rest) = newerLines rest + 1 := rfl

/-- An appended line survives if a drain comes before it is pushed out, and then it is the first of
those that do. -/
theorem survivors_append (capacity : Nat) (line : String) (rest : List SinkStep) :
    survivors capacity (.append line :: rest) =
      (if .drain ∈ rest ∧ newerLines rest < capacity then [Text.withoutFinalLineFeeds line] else [])
        ++ survivors capacity rest := rfl

/-- The places of the operations that append them. -/
def survivorPlaces (capacity : Nat) (steps : List SinkStep) : List Nat :=
  (List.range steps.length).filter fun place => Survives capacity (steps.drop place)

/-- The places of the survivors behind one more step are one further on, and its own is the
first. -/
theorem survivorPlaces_cons (capacity : Nat) (step : SinkStep) (rest : List SinkStep) :
    survivorPlaces capacity (step :: rest) =
      (if Survives capacity (step :: rest) then [0] else []) ++
        (survivorPlaces capacity rest).map Nat.succ := by
  rw [survivorPlaces, List.length_cons, List.range_succ_eq_map, List.filter_cons, List.filter_map,
    List.drop_zero]
  by_cases h : Survives capacity (step :: rest)
  · rw [if_pos (decide_eq_true h), if_pos h]
    rfl
  · rw [if_neg fun hs => h (of_decide_eq_true hs), if_neg h]
    rfl

/-- What survives is an appended line. -/
theorem exists_append_of_survives {capacity : Nat} {step : SinkStep} {rest : List SinkStep}
    (h : Survives capacity (step :: rest)) : ∃ line, step = .append line := by
  cases step with
  | append line => exact ⟨line, rfl⟩
  | requestShow | drain | takeShowRequest => exact h.elim

/-- The lines in front of the next drain are those appended before it. -/
theorem newerLines_of_next {between : List SinkStep} (h : .drain ∉ between)
    (later : List SinkStep) :
    newerLines (between ++ .drain :: later) = (between.filterMap SinkStep.line?).length := by
  have hbefore : (between ++ .drain :: later).takeWhile (· ≠ SinkStep.drain) = between := by
    rw [List.takeWhile_append_of_pos fun step hstep => ?_, List.takeWhile_cons_of_neg (by simp),
      List.append_nil]
    exact decide_eq_true fun hdrain => h (hdrain ▸ hstep)
  rw [newerLines, hbefore]

/-- The place of an appended line is that of a survivor exactly if a drain follows before as many
lines as there is room for are appended. -/
theorem mem_survivorPlaces_iff (capacity : Nat) (front rest : List SinkStep) (line : String) :
    front.length ∈ survivorPlaces capacity (front ++ .append line :: rest) ↔
      ∃ between later, rest = between ++ .drain :: later ∧ .drain ∉ between ∧
        (between.filterMap SinkStep.line?).length < capacity := by
  have hplace : front.length < (front ++ .append line :: rest).length := by simp
  rw [survivorPlaces, List.mem_filter, List.mem_range, and_iff_right hplace, decide_eq_true_iff,
    List.drop_left]
  constructor
  · rintro ⟨hnext, hroom⟩
    obtain ⟨between, later, rfl, hbetween⟩ := List.eq_append_cons_of_mem hnext
    exact ⟨between, later, rfl, hbetween, newerLines_of_next hbetween later ▸ hroom⟩
  · rintro ⟨between, later, rfl, hbetween, hroom⟩
    exact ⟨by simp, (newerLines_of_next hbetween later).symm ▸ hroom⟩

end Scenario

namespace LineBuffer

open Scenario

/-! ### Operations on a buffer -/

/-- What a buffer answers to an operation. -/
def answer (buffer : LineBuffer) : SinkStep → SinkAnswer
  | .append _ | .requestShow => .done
  | .drain => .lines buffer.lines
  | .takeShowRequest => .flag buffer.showRequested

/-- The buffer after an operation. -/
def after (buffer : LineBuffer) : SinkStep → LineBuffer
  | .append line => buffer.append line
  | .requestShow => buffer.requestShow
  | .drain => buffer.drain.2
  | .takeShowRequest => buffer.takeShowRequest.2

/-- The buffer after operations. -/
def afterAll (buffer : LineBuffer) (steps : List SinkStep) : LineBuffer := steps.foldl after buffer

/-- What a buffer answers to operations. -/
def answers (buffer : LineBuffer) : List SinkStep → List SinkAnswer
  | [] => []
  | step :: rest => buffer.answer step :: (buffer.after step).answers rest

variable {buffer other : LineBuffer} {capacity : Nat}

/-- A step on a buffer goes well, answers what the buffer answers, and leaves the host alone. -/
theorem perform_eq (buffer : LineBuffer) (step : SinkStep) (host : Host) :
    step.perform (some (.buffer buffer)) host =
      (.ok (buffer.answer step), some (.buffer (buffer.after step)), host) := by
  cases step <;> rfl

/-- A buffer answers every operation. -/
theorem takeSinkSteps_eq (buffer : LineBuffer) (steps : List SinkStep) (host : Host) :
    takeSinkSteps steps (some (.buffer buffer)) host =
      ((buffer.answers steps).map .ok, some (.buffer (buffer.afterAll steps)), host) := by
  induction steps generalizing buffer with
  | nil => rfl
  | cons step rest ih =>
    rw [takeSinkSteps, perform_eq]
    dsimp only
    rw [ih]
    rfl

/-- The answers to steps in a row are those to the first ones, and then those of the buffer that
they leave to the rest. -/
theorem answers_append (buffer : LineBuffer) (front rest : List SinkStep) :
    buffer.answers (front ++ rest) =
      buffer.answers front ++ (buffer.afterAll front).answers rest := by
  induction front generalizing buffer with
  | nil => rfl
  | cons step front ih =>
    rw [List.cons_append, answers, ih]
    rfl

/-- Every step has an answer. -/
theorem length_answers (buffer : LineBuffer) (steps : List SinkStep) :
    (buffer.answers steps).length = steps.length := by
  induction steps generalizing buffer with
  | nil => rfl
  | cons step rest ih => rw [answers, List.length_cons, ih, List.length_cons]

/-- The answer to an operation is that of the buffer after the operations before. -/
theorem getElem?_answers (buffer : LineBuffer) (front rest : List SinkStep) (step : SinkStep) :
    (buffer.answers (front ++ step :: rest))[front.length]? =
      some ((buffer.afterAll front).answer step) := by
  rw [answers_append, ← length_answers buffer front, List.getElem?_append_right le_rfl,
    Nat.sub_self]
  rfl

/-! ### What a buffer holds -/

/-- A step leaves the room that there is. -/
theorem capacity_after (buffer : LineBuffer) (step : SinkStep) :
    (buffer.after step).capacity = buffer.capacity := by
  cases step <;> rfl

/-- Many steps leave the room that there is. -/
theorem capacity_afterAll (buffer : LineBuffer) (steps : List SinkStep) :
    (buffer.afterAll steps).capacity = buffer.capacity := by
  induction steps generalizing buffer with
  | nil => rfl
  | cons step rest ih => exact (ih _).trans (capacity_after buffer step)

/-- An appended line comes last, and the oldest ones go if there is no room. -/
theorem lines_append (h : buffer.capacity = some capacity) (line : String) :
    (buffer.append line).lines =
      (buffer.lines ++ [Text.withoutFinalLineFeeds line]).rtake capacity := by
  rw [append, h]
  rfl

/-- The last items of the last items. -/
theorem rtake_rtake {α : Type} (items : List α) {n k : Nat} (h : k ≤ n) :
    (items.rtake n).rtake k = items.rtake k := by
  rw [List.rtake_eq_reverse_take_reverse, List.rtake_eq_reverse_take_reverse,
    List.rtake_eq_reverse_take_reverse, List.reverse_reverse, List.take_take, Nat.min_eq_left h]

/-- What gives way to a new item has given way to it earlier too. -/
theorem rtake_rtake_concat {α : Type} (items : List α) (item : α) (n : Nat) :
    (items.rtake n ++ [item]).rtake n = (items ++ [item]).rtake n := by
  cases n with
  | zero => rw [List.rtake_zero, List.rtake_zero]
  | succ n =>
    rw [List.rtake_concat_succ, List.rtake_concat_succ, rtake_rtake items (Nat.le_succ n)]

/-- **What a buffer holds** are the last lines of those that were appended since the last drain. -/
theorem lines_afterAll (steps : List SinkStep) :
    (afterAll { capacity := some capacity } steps).lines = (waitingLines steps).rtake capacity := by
  induction steps using List.reverseRecOn with
  | nil => exact (List.rtake_nil _).symm
  | append_singleton steps step ih =>
    have hcapacity : (afterAll { capacity := some capacity } steps).capacity = some capacity :=
      capacity_afterAll _ steps
    rw [afterAll, List.foldl_concat, ← afterAll, waitingLines_concat]
    cases step with
    | append line =>
      rw [after, lines_append hcapacity, ih, rtake_rtake_concat, if_neg nofun]
      rfl
    | requestShow | takeShowRequest =>
      rw [if_neg nofun]
      exact ih.trans (congrArg (List.rtake · capacity) (List.append_nil _).symm)
    | drain =>
      rw [if_pos rfl]
      exact (List.rtake_nil _).symm

/-- **A request is there** if it was made since the last one was taken. -/
theorem showRequested_afterAll (steps : List SinkStep) :
    (afterAll { capacity := some capacity } steps).showRequested = decide (Requested steps) := by
  induction steps using List.reverseRecOn with
  | nil => rfl
  | append_singleton steps step ih =>
    rw [afterAll, List.foldl_concat, ← afterAll, Bool.eq_iff_iff, decide_eq_true_iff,
      requested_concat]
    have hkept : (afterAll { capacity := some capacity } steps).showRequested = true ↔
        Requested steps := by
      rw [ih, decide_eq_true_iff]
    cases step with
    | append line => simpa [after] using hkept
    | requestShow => simp [after, requestShow]
    | drain => simpa [after] using hkept
    | takeShowRequest => simp [after, takeShowRequest]

/-! ### What is given over a whole run -/

/-- **What is given over a whole run**: of the lines that are there already those that do not give
way before the next drain, and then the survivors of the run. -/
theorem flatMap_given_answers (buffer : LineBuffer) (steps : List SinkStep)
    (hcapacity : buffer.capacity = some capacity) (fits : buffer.lines.length ≤ capacity) :
    (buffer.answers steps).flatMap SinkAnswer.given =
      (if .drain ∈ steps then buffer.lines.rtake (capacity - newerLines steps) else []) ++
        survivors capacity steps := by
  -- the lines that are there change with every operation, so the statement is about any of them
  induction steps generalizing buffer with
  | nil => rfl
  | cons step rest ih =>
    have hkept := ih (buffer.after step) ((capacity_after buffer step).trans hcapacity)
    rw [answers, List.flatMap_cons]
    cases step with
    | append line =>
      have hlines := lines_append hcapacity line
      have hfits : (buffer.append line).lines.length ≤ capacity := by
        rw [hlines, List.rtake, List.length_drop]
        omega
      have hdrain : (.drain ∈ SinkStep.append line :: rest) ↔ .drain ∈ rest := by simp
      refine (hkept hfits).trans ?_
      rw [after, newerLines_append, survivors_append, hlines, rtake_rtake _ (Nat.sub_le _ _),
        if_congr hdrain rfl rfl]
      by_cases hnext : .drain ∈ rest
      · rw [if_pos hnext, if_pos hnext]
        by_cases hroom : newerLines rest < capacity
        · -- the line stays, and one more of those before it gives way
          have hafter : capacity - newerLines rest = capacity - (newerLines rest + 1) + 1 := by
            omega
          rw [if_pos ⟨hnext, hroom⟩, hafter, List.rtake_concat_succ, List.append_assoc]
        · have hafter : capacity - newerLines rest = 0 := by omega
          have hbefore : capacity - (newerLines rest + 1) = 0 := by omega
          rw [if_neg fun h => hroom h.2, hafter, hbefore, List.rtake_zero, List.rtake_zero]
          rfl
      · rw [if_neg hnext, if_neg hnext, if_neg fun h => hnext h.1]
        rfl
    | requestShow | takeShowRequest =>
      exact (hkept fits).trans (congrArg₂ (· ++ ·) (if_congr (by simp) rfl rfl) rfl)
    | drain =>
      -- all lines are given, and none is left
      have hempty : ((buffer.after .drain).answers rest).flatMap SinkAnswer.given =
          survivors capacity rest := by
        have hnone : (buffer.after .drain).lines.rtake (capacity - newerLines rest) = [] :=
          List.rtake_nil _
        rw [hkept (Nat.zero_le _), hnone, ite_self, List.nil_append]
      have hall : buffer.lines.rtake (capacity - newerLines (.drain :: rest)) = buffer.lines := by
        have hnone : buffer.lines.length - (capacity - newerLines (.drain :: rest)) = 0 :=
          Nat.sub_eq_zero_of_le fits
        rw [List.rtake, hnone, List.drop_zero]
      rw [hempty, if_pos List.mem_cons_self, hall]
      rfl

/-- **The places of the survivors** are those of the operations that append them. -/
theorem map_survivorPlaces (steps : List SinkStep) :
    (survivorPlaces capacity steps).map (fun place => steps[place]?.bind SinkStep.line?) =
      (survivors capacity steps).map some := by
  induction steps with
  | nil => rfl
  | cons step rest ih =>
    have hrest : ((survivorPlaces capacity rest).map Nat.succ).map
        (fun place => (step :: rest)[place]?.bind SinkStep.line?) =
          (survivors capacity rest).map some := by
      rw [List.map_map, ← ih]
      rfl
    rw [survivorPlaces_cons, survivors, List.map_append, List.map_append, hrest]
    split
    · next hsurvives =>
      obtain ⟨line, rfl⟩ := exists_append_of_survives hsurvives
      rfl
    · rfl

/-! ### Lines and requests apart -/

/-- Operations of one kind are answered as if the others were not there, if these leave alone what
the answers depend on. -/
theorem answers_filter (kind : SinkStep → Bool) (Alike : LineBuffer → LineBuffer → Prop)
    (kept : ∀ {buffer other step}, Alike buffer other → kind step = true →
      buffer.answer step = other.answer step ∧ Alike (buffer.after step) (other.after step))
    (skipped : ∀ {buffer other step}, Alike buffer other → kind step = false →
      Alike (buffer.after step) other)
    (steps : List SinkStep) (alike : Alike buffer other) :
    other.answers (steps.filter kind) = answersTo kind steps (buffer.answers steps) := by
  induction steps generalizing buffer other with
  | nil => rfl
  | cons step rest ih =>
    rw [answers, answersTo, List.zip_cons_cons, List.filter_cons, List.filter_cons]
    split
    · next hkind =>
      obtain ⟨hanswer, halike⟩ := kept alike hkind
      rw [answers, List.map_cons, ih halike, hanswer]
      rfl
    · next hkind => exact ih (skipped alike (Bool.eq_false_iff.2 hkind))

/-- What is done about lines does not depend on what is asked to be shown. -/
theorem answers_filter_lines (buffer : LineBuffer) (steps : List SinkStep) :
    buffer.answers (steps.filter SinkStep.isAboutLines) =
      answersTo SinkStep.isAboutLines steps (buffer.answers steps) := by
  refine answers_filter SinkStep.isAboutLines
    (fun buffer other => buffer.lines = other.lines ∧ buffer.capacity = other.capacity)
    ?_ ?_ steps ⟨rfl, rfl⟩
  · rintro buffer other step ⟨hlines, hcapacity⟩ hkind
    cases step with
    | append line => exact ⟨rfl, by simp only [after, append, hlines, hcapacity, and_self]⟩
    | drain => exact ⟨by simp only [answer, hlines], rfl, hcapacity⟩
    | requestShow | takeShowRequest => cases hkind
  · rintro buffer other step alike hkind
    cases step with
    | requestShow | takeShowRequest => exact alike
    | append | drain => cases hkind

/-- What is asked to be shown does not depend on the lines. -/
theorem answers_filter_requests (buffer : LineBuffer) (steps : List SinkStep) :
    buffer.answers (steps.filter fun step => !step.isAboutLines) =
      answersTo (fun step => !step.isAboutLines) steps (buffer.answers steps) := by
  refine answers_filter (fun step => !step.isAboutLines)
    (fun buffer other => buffer.showRequested = other.showRequested) ?_ ?_ steps rfl
  · intro buffer other step hrequested hkind
    cases step with
    | requestShow => exact ⟨rfl, rfl⟩
    | takeShowRequest => exact ⟨by simp only [answer, hrequested], rfl⟩
    | append | drain => cases hkind
  · intro buffer other step hrequested hkind
    cases step with
    | append | drain => exact hrequested
    | requestShow | takeShowRequest => cases hkind

end LineBuffer

namespace Scenario

/-- What a new buffer that holds so many lines answers to operations. -/
def bufferAnswers (capacity : Nat) (host : Host) (steps : List SinkStep) :
    List (Except SinkError SinkAnswer) :=
  (takeSinkSteps steps (some (.buffer { capacity := some capacity })) host).1

/-- The lines that are given by answers. -/
def givenLines (answers : List (Except SinkError SinkAnswer)) : List String :=
  answers.flatMap fun
    | .ok answer => answer.given
    | .error _ => []

section Answers

variable (capacity : Nat) (host : Host)

/-- No step of a session on a buffer fails, and its answers are those of an empty buffer. -/
theorem bufferAnswers_eq (steps : List SinkStep) :
    bufferAnswers capacity host steps =
      (LineBuffer.answers { capacity := some capacity } steps).map .ok := by
  rw [bufferAnswers, LineBuffer.takeSinkSteps_eq]

/-- The answer to a step is that of the buffer as the steps before it have left it. -/
theorem getElem?_bufferAnswers (front rest : List SinkStep) (step : SinkStep) :
    (bufferAnswers capacity host (front ++ step :: rest))[front.length]? =
      some (.ok ((LineBuffer.afterAll { capacity := some capacity } front).answer step)) := by
  rw [bufferAnswers_eq, List.getElem?_map, LineBuffer.getElem?_answers]
  rfl

/-- The lines that drains hand out in a session are the survivors. -/
theorem givenLines_bufferAnswers (steps : List SinkStep) :
    givenLines (bufferAnswers capacity host steps) = survivors capacity steps := by
  have hnone : (if .drain ∈ steps then ([] : List String).rtake (capacity - newerLines steps)
      else []) = [] := by
    rw [List.rtake_nil, ite_self]
  have hgiven := LineBuffer.flatMap_given_answers { capacity := some capacity } steps rfl
    (Nat.zero_le _)
  rw [hnone, List.nil_append] at hgiven
  rw [bufferAnswers_eq, givenLines, List.flatMap_map, ← hgiven]

/-- **A line buffer is a bounded queue.** Whatever is done with a new buffer, a drain gives exactly
the last lines of those that were appended since the drain before it, as many as the buffer holds,
in order and without the line feeds at their ends; and a request to be shown is taken exactly if it
was made since the last one was taken. So the lines that are given over the whole run were appended
at places that follow each other, none twice, and a line that is appended is among them exactly if
there is a next drain and fewer lines than the buffer holds are appended before that. The operations
on lines are answered as if those on requests were not there, and the other way round. -/
theorem answers_of_lineBuffer (steps : List SinkStep) :
    (∀ line given, (SinkStep.append line).line? = some given ↔
      (∃ n, line.toList = given.toList ++ List.replicate n '\n') ∧
        given.toList.getLast? ≠ some '\n') ∧
    (∀ front rest, steps = front ++ .drain :: rest →
      (bufferAnswers capacity host steps)[front.length]? =
        some (.ok (.lines ((waitingLines front).rtake capacity)))) ∧
    (∀ front rest, steps = front ++ .takeShowRequest :: rest →
      (bufferAnswers capacity host steps)[front.length]? =
        some (.ok (.flag (Requested front)))) ∧
    (∃ places : List Nat, places.Pairwise (· < ·) ∧
      (givenLines (bufferAnswers capacity host steps)).map some =
        places.map (fun place => steps[place]?.bind SinkStep.line?) ∧
      ∀ front line rest, steps = front ++ .append line :: rest →
        (front.length ∈ places ↔ ∃ between later, rest = between ++ .drain :: later ∧
          .drain ∉ between ∧ (between.filterMap SinkStep.line?).length < capacity)) ∧
    bufferAnswers capacity host (steps.filter SinkStep.isAboutLines) =
      answersTo SinkStep.isAboutLines steps (bufferAnswers capacity host steps) ∧
    bufferAnswers capacity host (steps.filter fun step => !step.isAboutLines) =
      answersTo (fun step => !step.isAboutLines) steps (bufferAnswers capacity host steps) := by
  refine ⟨?_, ?_, ?_, ⟨survivorPlaces capacity steps, ?_, ?_, ?_⟩, ?_, ?_⟩
  · intro line given
    rw [SinkStep.line?, Option.some.injEq, Text.withoutFinalLineFeeds_eq_iff]
  · rintro front rest rfl
    rw [getElem?_bufferAnswers, LineBuffer.answer, LineBuffer.lines_afterAll]
  · rintro front rest rfl
    rw [getElem?_bufferAnswers, LineBuffer.answer, LineBuffer.showRequested_afterAll]
  · exact List.pairwise_lt_range.filter _
  · rw [givenLines_bufferAnswers, LineBuffer.map_survivorPlaces]
  · rintro front line rest rfl
    exact mem_survivorPlaces_iff capacity front rest line
  · rw [bufferAnswers_eq, bufferAnswers_eq, answersTo_map, LineBuffer.answers_filter_lines]
  · rw [bufferAnswers_eq, bufferAnswers_eq, answersTo_map, LineBuffer.answers_filter_requests]

example : bufferAnswers 2 {}
    [.append "a", .append "b\n", .requestShow, .append "c", .drain, .takeShowRequest, .drain] =
      [.ok .done, .ok .done, .ok .done, .ok .done, .ok (.lines ["b", "c"]), .ok (.flag true),
        .ok (.lines [])] := by
  decide +kernel

end Answers

end Scenario

end AsmScope
