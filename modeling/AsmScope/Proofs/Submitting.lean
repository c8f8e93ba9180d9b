import AsmScope.Proofs.Visits
/-! # Submitting a typed line

A line that is submitted is refused if it is not blank and has no words or begins with a flag
(`Refused`). A refusal only changes what the palette says; any other line becomes the override, closes
the palette and asks for one run. The palette writes the override as its line when it is opened, and
what it writes from the words of a line that was not refused is read back as these words
(`reads_back`), so submitting it as it is keeps the override. -/

namespace AsmScope

open CommandLine

/-! ### Lines -/

namespace CommandLine

/-- Outside quotes a blank separates. -/
theorem role_of_isBlank {c : Char} (blank : Text.isBlank c) :
    Scanner.start.role c = .separator := by
  have hslash : c ≠ '\\' := by
    rintro rfl
    revert blank
    decide
  have hquotes : ¬(c = '\'' ∨ c = '"') := by
    rintro (rfl | rfl) <;> revert blank <;> decide
  simp [Scanner.role, Scanner.start, hslash, hquotes, blank]

/-- A blank line has no words. -/
theorem split_of_isBlankText {line : String} (blank : Text.isBlankText line) : split line = [] := by
  have hwords : ∀ cs : List Char, cs.all Text.isBlank → wordsOf [] (Scanner.start.roles cs) = [] := by
    intro cs hcs
    induction cs with
    | nil => rfl
    | cons c cs ih =>
      rw [List.all_cons, Bool.and_eq_true] at hcs
      have hrole := role_of_isBlank hcs.1
      have hstill : Scanner.start.next c = Scanner.start := by
        rw [Scanner.next, hrole]
        rfl
      rw [Scanner.roles_cons, hrole, hstill, wordsOf, ih hcs.2]
      rfl
  rw [split, splitChars, hwords _ blank]
  rfl

end CommandLine

/-- A line that is not submitted: one that is not blank, and has no words or begins with a flag. -/
def Refused (line : String) : Prop :=
  Text.isBlankText line = false ∧
    (split line = [] ∨ ∃ flag rest, split line = flag :: rest ∧ isFlag flag)

/-- A line that is not to be submitted is refused for some reason. -/
theorem exists_refusal_of_refused {line : String} (refused : Refused line) :
    ∃ refusal, refusal? line = some refusal := by
  obtain ⟨hblank, hwords⟩ := refused
  rw [refusal?, hblank]
  rcases hwords with hnone | ⟨flag, rest, hwords, hflag⟩
  · rw [hnone]
    exact ⟨_, rfl⟩
  · rw [hwords]
    exact ⟨.startsWithFlag flag, if_pos hflag⟩

/-- Every other line is accepted. -/
theorem refusal?_of_not_refused {line : String} (accepted : ¬Refused line) :
    refusal? line = none := by
  rw [refusal?]
  split
  · rfl
  · next hblank =>
    have hblank' : Text.isBlankText line = false := Bool.eq_false_iff.2 hblank
    cases hwords : split line with
    | nil => exact absurd ⟨hblank', .inl hwords⟩ accepted
    | cons word rest =>
      refine if_neg fun hflag => accepted ⟨hblank', .inr ⟨word, rest, hwords, hflag⟩⟩

/-- A line is refused exactly if it is not to be submitted. -/
theorem isSome_refusal?_iff {line : String} : (refusal? line).isSome ↔ Refused line := by
  constructor
  · intro hsome
    by_contra accepted
    rw [refusal?_of_not_refused accepted] at hsome
    cases hsome
  · intro refused
    obtain ⟨refusal, hrefusal⟩ := exists_refusal_of_refused refused
    rw [hrefusal]
    rfl

instance : DecidablePred Refused := fun _ => decidable_of_iff _ isSome_refusal?_iff

/-- A line that is submitted has no words only if it is blank. -/
theorem split_eq_nil_iff {line : String} (accepted : ¬Refused line) :
    split line = [] ↔ Text.isBlankText line := by
  refine ⟨fun hnone => ?_, split_of_isBlankText⟩
  by_contra hblank
  exact accepted ⟨Bool.eq_false_iff.2 hblank, .inl hnone⟩

/-- **What is written from the words of a line that was submitted is submitted as these words.** -/
theorem reads_back {line : String} (accepted : ¬Refused line) :
    ¬Refused (join (split line)) ∧ split (join (split line)) = split line := by
  have hread : split (join (split line)) = split line := by
    rw [split_join, List.filter_eq_self]
    intro word hword
    exact decide_eq_true (ne_of_mem_of_not_mem hword (empty_notMem_split line))
  refine ⟨?_, hread⟩
  rintro ⟨hblank, hwords⟩
  rw [hread] at hwords
  cases hline : split line with
  | nil =>
    -- no words are written as nothing, which is blank
    rw [hline] at hblank
    cases hblank
  | cons word rest =>
    have hnonblank : Text.isBlankText line = false := by
      rw [Bool.eq_false_iff]
      intro h
      rw [split_of_isBlankText h] at hline
      cases hline
    exact accepted ⟨hnonblank, hwords⟩

namespace Palette

variable (palette : Palette)

/-- A line that is put into the palette leaves it open or closed. -/
@[simp] theorem isOpen_setLine (line : String) :
    (palette.setLine line).isOpen = palette.isOpen := by
  unfold setLine
  split
  · rfl
  · cases refusal? line <;> rfl

/-- A palette that is presented is open. -/
@[simp] theorem isOpen_present (entryArguments override : List String) :
    (palette.present entryArguments override).isOpen = true :=
  isOpen_setLine _ _

/-- A palette that is presented has the override in it, as one line. -/
@[simp] theorem line_present (entryArguments override : List String) :
    (palette.present entryArguments override).line = join override :=
  line_setLine _ _

end Palette

/-! ### The explorer -/

namespace Explorer

variable (explorer : Explorer)

/-- A refresh leaves the override. -/
@[simp] theorem override_refresh : explorer.refresh.override = explorer.override := rfl

/-- A refresh leaves the palette. -/
@[simp] theorem palette_refresh : explorer.refresh.palette = explorer.palette := rfl

/-- A refusal is told by the palette, which stays as it is apart from that. -/
theorem submit_of_refused (refused : Refused explorer.palette.line) :
    ∃ status, explorer.submit =
      { explorer with palette := { explorer.palette with status, invalid := true } } := by
  obtain ⟨refusal, hrefusal⟩ := exists_refusal_of_refused refused
  refine ⟨Text.onScreen refusal.message, ?_⟩
  rw [submit, Palette.submit, hrefusal]
  rfl

/-- The palette closes and wants the words of its line. -/
theorem submit_of_not_refused (accepted : ¬Refused explorer.palette.line) :
    explorer.submit = ({ explorer with palette := explorer.palette.close } : Explorer).post
      (.commandChanged (split explorer.palette.line)) := by
  rw [submit, Palette.submit, refusal?_of_not_refused accepted]

/-- One run is asked for with the words of the line. -/
theorem handleAll_submit_of_not_refused (quiet : explorer.inbox = [])
    (accepted : ¬Refused explorer.palette.line) :
    ∃ notes, explorer.submit.handleAll =
      ({ explorer with
          palette := explorer.palette.close
          override := split explorer.palette.line
          notes } : Explorer).refresh := by
  have hquiet : ({ explorer with palette := explorer.palette.close } : Explorer).inbox = [] := quiet
  rw [submit_of_not_refused explorer accepted, handleAll_post hquiet]
  exact handle_commandChanged _ _

end Explorer

namespace ExplorerStage

open Engine Explorer

variable {kind : ExplorerStep → Prop} {working : Nat} {stage : ExplorerStage}

/-- Between steps no message waits. -/
theorem Visited.quiet (visited : Visited kind working stage) : stage.front.inbox = [] := by
  obtain ⟨history, hchronicle, -⟩ := visited.chronicle
  exact hchronicle.quiet

/-- Typing a line changes the line of the palette, and nothing else if no message waits. -/
theorem after_take_type (quiet : stage.front.inbox = []) (fire : Interference Explorer)
    (line : String) :
    stage.after (take fire (.type line)) = stage.withFront
      { stage.front with palette := stage.front.palette.setLine line } := by
  have hquiet : ({ stage.front with palette := stage.front.palette.setLine line } :
      Explorer).inbox = [] := quiet
  have hstill := handleAll_of_inbox hquiet
  exact congrArg stage.withFront hstill

/-- A line is typed and submitted. -/
theorem after_take_type_submit (quiet : stage.front.inbox = []) (fire : Interference Explorer)
    (line : String) :
    (stage.after (take fire (.type line))).after (take fire .submit) = stage.withFront
      ({ stage.front with palette := stage.front.palette.setLine line } :
        Explorer).submit.handleAll := by
  rw [after_take_submit, after_take_type quiet]
  rfl

/-- The palette shows the line that is written from an override, and this override was read from a line
that is not refused. Then it stays the same when the line is submitted. -/
theorem override_after_take_submit (quiet : stage.front.inbox = []) (fire : Interference Explorer)
    {line : String} (accepted : ¬Refused line) (override : stage.front.override = split line)
    (shown : stage.front.palette.line = join stage.front.override) :
    (stage.after (take fire .submit)).front.override = stage.front.override ∧
      (stage.after (take fire .submit)).front.palette.isOpen = false := by
  obtain ⟨haccepted, hread⟩ := reads_back accepted
  rw [← override, ← shown] at haccepted hread
  obtain ⟨notes, hsubmit⟩ := handleAll_submit_of_not_refused stage.front quiet haccepted
  rw [after_take_submit, front_withFront, hsubmit, override_refresh, palette_refresh]
  exact ⟨hread, rfl⟩

/-- Looking the build's own command up does not touch the explorer. -/
theorem front_entryArguments (stage : ExplorerStage) :
    (stage.after entryArguments).front = stage.front :=
  respects_entryArguments (R := Maintains fun later => later.front = stage.front)
    (fun _ _ deed h => deed.front_eq.trans h) stage rfl

/-- The palette is opened over some arguments, with the override as its line. -/
theorem exists_front_after_toggleCommand (quiet : stage.front.inbox = [])
    {fire : Interference Explorer} (opens : stage.result (perform fire .toggleCommand) = .ok ()) :
    ∃ arguments, (stage.after (take fire .toggleCommand)).front =
      { stage.front with
        palette := stage.front.palette.present arguments stage.front.override } := by
  -- asking for the arguments leaves the front as it is
  have hfront := front_entryArguments stage
  have htake : take fire .toggleCommand =
      toggleCommand >>= fun _ => modify (modifyFront Explorer.handleAll) := rfl
  change stage.result toggleCommand = .ok () at opens
  rw [htake, after_bind, opens]
  rw [toggleCommand, result_bind] at opens
  rw [toggleCommand, after_bind]
  cases hresult : stage.result entryArguments with
  | error failure =>
    rw [hresult] at opens
    cases opens
  | ok arguments =>
    refine ⟨arguments, ?_⟩
    change ({ (stage.after entryArguments).front with
      palette := (stage.after entryArguments).front.palette.present arguments
        (stage.after entryArguments).front.override } : Explorer).handleAll = _
    rw [hfront]
    exact handleAll_of_inbox (by exact quiet)

/-- **What submitting a line does**, wherever a session has come to, and however it was typed. A line
that is refused changes nothing but what the palette says about it: the palette stays open, the
override stays, and no run is asked for. Any other line closes the palette, its words become the
override, and one run is asked for with them; they are none exactly if the line is blank.

Whenever the words of such a line are the override and the palette is opened, it shows a line that
keeps them when it is submitted. -/
theorem submit_of_visited (visited : Visited kind working stage) (depth : Nat) :
    (∀ line,
      let fire := interference depth
      let submitted := (stage.after (take fire (.type line))).after (take fire .submit)
      (Refused line →
        submitted = stage.withFront { stage.front with palette := submitted.front.palette } ∧
          submitted.front.palette.isOpen = stage.front.palette.isOpen ∧
          submitted.front.palette.line = line) ∧
      (¬Refused line →
        submitted = stage.withFront
          { stage.front with
            override := split line
            running := stage.front.running + 1
            busy := true
            queue := stage.front.queue ++ [split line]
            palette := submitted.front.palette
            notes := submitted.front.notes } ∧
          submitted.front.palette.isOpen = false ∧
          (submitted.front.override = [] ↔ Text.isBlankText line))) ∧
    ∀ line, ¬Refused line → stage.front.override = split line →
      stage.result (perform (interference depth) .toggleCommand) = .ok () →
      let fire := interference depth
      let opened := stage.after (take fire .toggleCommand)
      let submitted := opened.after (take fire .submit)
      opened.front.palette.isOpen ∧ opened.front.palette.line = join stage.front.override ∧
        submitted.front.override = stage.front.override ∧ submitted.front.palette.isOpen = false := by
  have hquiet := visited.quiet
  refine ⟨fun line => ?_, fun line accepted override opens => ?_⟩
  · intro fire submitted
    let typed : Explorer := { stage.front with palette := stage.front.palette.setLine line }
    have htyped : typed.palette.line = line := stage.front.palette.line_setLine line
    have hsubmitted : submitted = stage.withFront typed.submit.handleAll :=
      after_take_type_submit hquiet fire line
    constructor
    · intro refused
      obtain ⟨status, hsubmit⟩ := submit_of_refused typed (htyped ▸ refused)
      have hstill : typed.submit.handleAll = typed.submit :=
        handleAll_of_inbox (by rw [hsubmit]; exact hquiet)
      rw [hsubmitted, hstill, hsubmit]
      exact ⟨rfl, stage.front.palette.isOpen_setLine line, htyped⟩
    · intro accepted
      obtain ⟨notes, hsubmit⟩ := handleAll_submit_of_not_refused typed hquiet
        (htyped ▸ accepted)
      rw [htyped] at hsubmit
      rw [hsubmitted, hsubmit]
      exact ⟨rfl, rfl, split_eq_nil_iff accepted⟩
  · intro fire opened submitted
    obtain ⟨arguments, hopened⟩ : ∃ arguments, opened.front = _ :=
      exists_front_after_toggleCommand hquiet opens
    have hisOpen : opened.front.palette.isOpen := by
      rw [hopened]
      exact Palette.isOpen_present _ _ _
    have hline : opened.front.palette.line = join stage.front.override := by
      rw [hopened]
      exact Palette.line_present _ _ _
    -- opening the palette has changed nothing but the palette
    have hkept : opened.front.override = stage.front.override := by rw [hopened]
    have hstill : opened.front.inbox = [] := by
      rw [hopened]
      exact hquiet
    obtain ⟨hoverride, hclosed⟩ := override_after_take_submit hstill fire accepted
      (hkept.trans override) (by rw [hline, hkept])
    have hsubmitted : opened.after (take fire .submit) = submitted := rfl
    rw [hsubmitted] at hoverride hclosed
    exact ⟨hisOpen, hline, hoverride.trans hkept, hclosed⟩

/-- The explorer of the sample can be made. -/
theorem created_spaced : (create spacedHost "/a" none [] []).1.toOption.isSome := by
  decide +kernel

/-- A session without scripts passes through the stage of the sample. -/
theorem visited_spacedStage : Visited ExplorerStep.Genuine 0 spacedStage := by
  have hscripts : ∀ script ∈ ([] : List (Script ExplorerStep)),
      ∀ step ∈ script.steps, step.Genuine := by decide
  exact (Visited.created (ok_get_toOption created_spaced) hscripts).playScript 0 (by decide)

/-- A flag is refused. A compiler with a quoted flag is submitted, and once more when the palette has
written it as its line. -/
theorem submit_of_visited_sample :
    let fire := interference 0
    let refused := (spacedStage.after (take fire (.type "-O2"))).after (take fire .submit)
    let submitted := (spacedStage.after (take fire (.type "g '-D a'"))).after (take fire .submit)
    let again := (submitted.after (take fire .toggleCommand)).after (take fire .submit)
    Refused "-O2" ∧ refused.front.queue = spacedStage.front.queue ∧
      ¬Refused "g '-D a'" ∧ submitted.front.override = ["g", "-D a"] ∧
      submitted.front.queue = spacedStage.front.queue ++ [["g", "-D a"]] ∧
      again.front.override = ["g", "-D a"] := by
  intro fire refused submitted again
  obtain ⟨hlines, -⟩ := submit_of_visited visited_spacedStage 0
  have hflag : Refused "-O2" := by decide
  have hline : ¬Refused "g '-D a'" := by decide
  have hwords : split "g '-D a'" = ["g", "-D a"] := by decide
  obtain ⟨hrefused, -, -⟩ : refused = _ ∧ _ := (hlines "-O2").1 hflag
  obtain ⟨hsubmitted, -, -⟩ : submitted = _ ∧ _ := (hlines "g '-D a'").2 hline
  have hoverride : submitted.front.override = split "g '-D a'" := by
    rw [hsubmitted, front_withFront]
  have hvisited : Visited ExplorerStep.Genuine 0 submitted :=
    (visited_spacedStage.taken 0 (by decide)).taken 0 (by decide)
  obtain ⟨-, hagain⟩ := submit_of_visited hvisited 0
  obtain ⟨-, -, hkept, -⟩ := hagain _ hline hoverride (by decide +kernel)
  rw [hwords] at hoverride
  refine ⟨hflag, ?_, hline, hoverride, ?_, hkept.trans hoverride⟩
  · have hkeeps (stage : ExplorerStage) (palette : Palette) :
        (stage.withFront { stage.front with palette }).front.queue = stage.front.queue := rfl
    rw [hrefused]
    exact hkeeps spacedStage _
  · rw [hsubmitted, front_withFront, hwords]

end ExplorerStage

end AsmScope
