import AsmScope.Proofs.Compiling
import AsmScope.Proofs.ExplorerRequests
import AsmScope.Proofs.Quoting
import AsmScope.Proofs.Vectors
/-! # Submitting the entry as it is

The palette writes the words of the build's own command as one line, and a line that is submitted is
cut into words again. What comes back are the words that are not empty (`submittable`), so a worker
is queued with other words than those of the command if one of them is empty, and with the same
words if none is, as for every entry with a command line (`RecordedBy.empty_notMem`). The worker
asks for the command that a worker without an override asks for, so what its run launches is decided
by these words (`ExplorerStage.launches_of_offers`). -/

namespace AsmScope

open CommandLine

/-! ### Lines that are written from words -/

namespace CommandLine

/-- A written word is not blank: it begins with a quote or with a character that needs none. -/
theorem exists_cons_writeWord (word : List Char) :
    ∃ c rest, writeWord word = c :: rest ∧ Text.isBlank c = false := by
  unfold writeWord
  split
  case isTrue h =>
    rw [Bool.and_eq_true, Bool.not_eq_true', Bool.not_eq_true'] at h
    obtain ⟨hne, hplain⟩ := h
    cases word with
    | nil => cases hne
    | cons c word =>
      rw [List.any_cons, Bool.or_eq_false_iff, needsQuotes] at hplain
      simp only [Bool.or_eq_false_iff] at hplain
      exact ⟨c, word, rfl, hplain.1.1.1.1⟩
  case isFalse => exact ⟨'"', _, rfl, rfl⟩

/-- A line that is written from words is not blank, even if all of them are empty. -/
theorem isBlankText_join {words : List String} (ne : words ≠ []) :
    Text.isBlankText (join words) = false := by
  obtain ⟨word, words, rfl⟩ := List.exists_cons_of_ne_nil ne
  obtain ⟨c, rest, hword, hblank⟩ := exists_cons_writeWord word.toList
  have hjoin : ∃ more, joinChars ((word :: words).map String.toList) = c :: more := by
    cases words with
    | nil => exact ⟨rest, by simpa [joinChars] using hword⟩
    | cons next words =>
      rw [List.map_cons, List.map_cons, joinChars_cons_cons, hword]
      exact ⟨_, rfl⟩
  obtain ⟨more, hmore⟩ := hjoin
  rw [Text.isBlankText, join, String.toList_ofList, hmore, List.all_cons, hblank, Bool.false_and]

end CommandLine

/-- The words as which a line written from words is submitted, if it is not refused. -/
def submittable (words : List String) : Option (List String) :=
  match words.filter (· ≠ "") with
  | [] => none
  | word :: rest => if isFlag word then none else some (word :: rest)

/-- What is kept of words that may be submitted is all but the empty ones, and it is not nothing. -/
theorem submittable_eq_some {words kept : List String} (h : submittable words = some kept) :
    kept = words.filter (· ≠ "") ∧ kept ≠ [] := by
  unfold submittable at h
  split at h
  · cases h
  · next word rest hkept =>
    split at h
    · cases h
    · obtain rfl := Option.some.inj h
      exact ⟨hkept.symm, List.cons_ne_nil _ _⟩

/-- Words without an empty one are submitted as they are, if they do not begin with a flag. -/
theorem submittable_of_notMem {word : String} {words : List String} (full : "" ∉ word :: words)
    (starts : isFlag word = false) : submittable (word :: words) = some (word :: words) := by
  have hkept : (word :: words).filter (· ≠ "") = word :: words := by
    rw [List.filter_eq_self]
    exact fun other hother => decide_eq_true (ne_of_mem_of_not_mem hother full)
  rw [submittable, hkept]
  simp only [starts, Bool.false_eq_true, if_false]

/-- Only the empty path is joined to another one as nothing. -/
theorem Path.join_ne_empty (base : String) {path : String} (ne : path ≠ "") :
    Path.join base path ≠ "" := by
  have hpath : path.toList ≠ [] := by simpa using ne
  have hchars : Path.Chars.join base.toList path.toList ≠ [] := by
    unfold Path.Chars.join
    split
    · exact hpath
    · split
      · exact List.append_ne_nil_of_right_ne_nil _ hpath
      · exact List.append_ne_nil_of_right_ne_nil _ (List.cons_ne_nil _ _)
  rw [Path.join]
  simpa using hchars

/-- An entry with a command line has no empty word. -/
theorem CompileCommand.RecordedBy.empty_notMem {command : CompileCommand} {host : Host}
    {location : String} {entry : Entry} {compiler : String} {rest : List String}
    (recorded : command.RecordedBy host location entry compiler rest) (line : entry.line ≠ "") :
    "" ∉ command.arguments := by
  have hwords : split entry.line = compiler :: rest := by
    rw [← recorded.words, Entry.words, if_neg line]
  have hempty := empty_notMem_split entry.line
  rw [hwords, List.mem_cons, not_or] at hempty
  rw [recorded.arguments, List.mem_cons, not_or]
  exact ⟨(Path.join_ne_empty _ (Ne.symm hempty.1)).symm,
    fun hmem => hempty.2 ((entry.remaining_sublist rest).mem hmem)⟩

namespace Palette

variable (palette : Palette)

/-- A line that is put into the palette stands there. -/
@[simp] theorem line_setLine (line : String) : (palette.setLine line).line = line := by
  unfold setLine
  split
  case isTrue same => exact same.symm
  case isFalse => cases refusal? line <;> rfl

/-- A line that is put into the palette leaves the arguments of its entry. -/
@[simp] theorem entryArguments_setLine (line : String) :
    (palette.setLine line).entryArguments = palette.entryArguments := by
  unfold setLine
  split
  · rfl
  · cases refusal? line <;> rfl

/-- Editing the entry puts its arguments there, as one line. -/
theorem line_editEntry {words : List String} (entry : palette.entryArguments = words)
    (ne : words ≠ []) : palette.editEntry.line = join words := by
  rw [editEntry, entry, if_neg (by simpa using ne)]
  exact line_setLine palette (join words)

/-- A line that was written from words is submitted as those that are not empty. -/
theorem submit_of_line {words : List String} (line : palette.line = join words) (ne : words ≠ []) :
    palette.submit.2 = submittable words := by
  rw [submit, line, refusal?, isBlankText_join ne, split_join, submittable]
  simp only [Bool.false_eq_true, if_false]
  cases words.filter (· ≠ "") with
  | nil => rfl
  | cons word rest => by_cases h : isFlag word <;> simp [h]

end Palette

/-! ### The explorer -/

namespace Explorer

/-- Handling a message touches neither the palette nor the source, and leaves no other message. -/
theorem frame_handle (explorer : Explorer) (message : Message) :
    (explorer.handle message).palette = explorer.palette ∧
      (explorer.handle message).source = explorer.source ∧
      (explorer.handle message).inbox = explorer.inbox := by
  cases message with
  | finished asm => exact ⟨rfl, rfl, rfl⟩
  | failed error cancelled =>
    cases cancelled with
    | false => exact ⟨rfl, rfl, rfl⟩
    | true =>
      rw [handle_cancelled]
      exact ⟨rfl, rfl, rfl⟩
  | commandChanged arguments =>
    obtain ⟨notes, hhandle⟩ := explorer.handle_commandChanged arguments
    rw [hhandle]
    exact ⟨rfl, rfl, rfl⟩

/-- Handling messages touches neither the palette nor the source, and none is left waiting. -/
theorem frame_handleAll (explorer : Explorer) :
    explorer.handleAll.palette = explorer.palette ∧
      explorer.handleAll.source = explorer.source ∧ explorer.handleAll.inbox = [] := by
  have hfold : ∀ (messages : List Message) (other : Explorer),
      (messages.foldl handle other).palette = other.palette ∧
        (messages.foldl handle other).source = other.source ∧
        (messages.foldl handle other).inbox = other.inbox := by
    intro messages
    induction messages with
    | nil => exact fun _ => ⟨rfl, rfl, rfl⟩
    | cons message messages ih =>
      intro other
      obtain ⟨hpalette, hsource, hinbox⟩ := other.frame_handle message
      obtain ⟨hpalette', hsource', hinbox'⟩ := ih (other.handle message)
      exact ⟨hpalette'.trans hpalette, hsource'.trans hsource, hinbox'.trans hinbox⟩
  exact hfold explorer.inbox { explorer with inbox := [] }

/-- Submitting leaves the source as it is. -/
theorem source_submit (explorer : Explorer) : explorer.submit.source = explorer.source := by
  unfold submit
  split <;> rfl

/-- Submitting a line that was written from words queues a worker with those that are not empty,
unless the line is refused. -/
theorem queue_submit_handleAll {explorer : Explorer} {words : List String}
    (quiet : explorer.inbox = []) (line : explorer.palette.line = join words) (ne : words ≠ []) :
    explorer.submit.handleAll.queue = explorer.queue ++ (submittable words).toList := by
  have hsubmit := explorer.palette.submit_of_line line ne
  unfold submit
  cases hpalette : explorer.palette.submit with
  | mk palette outcome =>
    rw [hpalette] at hsubmit
    dsimp only at hsubmit
    cases outcome with
    | none =>
      rw [← hsubmit, handleAll_of_inbox (by exact quiet)]
      exact (List.append_nil _).symm
    | some kept =>
      -- the one message that waits is handled, and its words are not empty
      obtain ⟨-, hkept⟩ := submittable_eq_some hsubmit.symm
      rw [← hsubmit]
      simp only [handleAll, post, quiet, List.nil_append, List.foldl_cons, List.foldl_nil, handle,
        changeCommand, List.isEmpty_iff, if_neg hkept]
      rfl

end Explorer

namespace ExplorerStage

open Engine

section Palette

variable {stage : ExplorerStage} (fire : Interference Explorer) {command : CompileCommand}

/-- Editing the entry changes the palette, and then messages are handled. -/
theorem after_take_editEntry : stage.after (take fire .editEntry) = stage.withFront
    { stage.front with palette := stage.front.palette.editEntry : Explorer }.handleAll := rfl

/-- Submitting does what it does to the explorer, and then messages are handled. -/
theorem after_take_submit :
    stage.after (take fire .submit) = stage.withFront stage.front.submit.handleAll := rfl

/-- The arguments of the entry are those of the command that is offered for the source, whose
database is opened for this. -/
theorem entryArguments_of_offers (offers : stage.Offers stage.front.source command) :
    stage.result entryArguments = .ok command.arguments ∧
      stage.after entryArguments = stage.after (databaseFor stage.front.source) := by
  obtain ⟨id, hresult, -, hcommand⟩ := offers
  constructor
  · rw [entryArguments, result_get_bind, result_bind, result_observe]
    simp only [after_observe, hresult, result_get_bind, result_pure, hcommand]
    rfl
  · rw [entryArguments, after_get_bind, after_bind, result_observe]
    simp only [after_observe, hresult, after_get_bind, after_pure]

/-- The palette is opened over the words of the command that is offered, and no message waits. -/
theorem exists_after_toggleCommand (offers : stage.Offers stage.front.source command) :
    ∃ explorer : Explorer,
      stage.after (take fire .toggleCommand) =
          (stage.after (databaseFor stage.front.source)).withFront explorer ∧
        explorer.palette.entryArguments = command.arguments ∧
        explorer.source = stage.front.source ∧ explorer.inbox = [] := by
  obtain ⟨hresult, hafter⟩ := entryArguments_of_offers offers
  have hfront := (Alike.databaseFor stage.front.source stage).front
  generalize hbase : stage.after (databaseFor stage.front.source) = base at *
  let presented : Explorer :=
    { base.front with
      palette := base.front.palette.present command.arguments base.front.override }
  obtain ⟨hpalette, hsource, hquiet⟩ := presented.frame_handleAll
  refine ⟨presented.handleAll, ?_, ?_, ?_, hquiet⟩
  · change stage.after (toggleCommand >>= fun _ => modify (modifyFront Explorer.handleAll)) = _
    rw [toggleCommand, after_bind, result_bind, hresult, after_bind, hresult, hafter]
    rfl
  · rw [hpalette]
    exact Palette.entryArguments_setLine _ _
  · rw [hsource, ← hfront]

/-- **What the palette submits.** The palette is opened, takes the words of the command that is
offered as its line, and the line is submitted. Unless it is refused, a worker is queued with those
of the words that are not empty. The command is still offered. -/
theorem submission_of_offers (offers : stage.Offers stage.front.source command)
    (ne : command.arguments ≠ []) :
    let opened := stage.after (take fire .toggleCommand)
    let submitted := playScript fire [.toggleCommand, .editEntry, .submit] stage
    submitted.front.source = stage.front.source ∧
      submitted.Offers stage.front.source command ∧
      submitted.front.queue = opened.front.queue ++ (submittable command.arguments).toList := by
  intro opened submitted
  obtain ⟨explorer, hopened, hentry, hsource, hquiet⟩ :
      ∃ explorer : Explorer, opened = _ ∧ _ := exists_after_toggleCommand fire offers
  let edited : Explorer := { explorer with palette := explorer.palette.editEntry }
  have hedited : edited.handleAll = edited := Explorer.handleAll_of_inbox hquiet
  -- whatever the palette does is done in front of the engine that has the database
  have hsubmitted : submitted =
      (stage.after (databaseFor stage.front.source)).withFront edited.submit.handleAll := by
    have hplay : submitted = (opened.after (take fire .editEntry)).after (take fire .submit) := rfl
    rw [hplay, after_take_submit fire, after_take_editEntry fire, hopened]
    simp only [front_withFront, withFront_withFront]
    rw [hedited]
  rw [hsubmitted, hopened]
  refine ⟨?_, offers.after_databaseFor.withFront _, ?_⟩
  · exact ((Explorer.frame_handleAll _).2.1.trans edited.source_submit).trans hsource
  · exact Explorer.queue_submit_handleAll hquiet (explorer.palette.line_editEntry hentry ne) ne

end Palette

/-! ### Workers -/

section Workers

variable {stage : ExplorerStage} {command : CompileCommand} {invocation : Invocation}
  {depth : Nat} {override : List String}

/-- The stage with other workers in the queue, given by their overrides. -/
def withQueue (stage : ExplorerStage) (queue : List (List String)) : ExplorerStage :=
  stage.withFront { stage.front with queue }

/-- What a worker with this override asks the engine for. -/
def request (depth : Nat) (source : String) (override : List String) : Action Explorer String :=
  Engine.compile (interference depth) source (if override.isEmpty then none else some override)

/-- When a worker with this override is the next one, its run launches this invocation. -/
def Launches (stage : ExplorerStage) (depth : Nat) (override : List String)
    (invocation : Invocation) : Prop :=
  ∀ queue, stage.Launching invocation
    ((stage.withQueue queue).result (request depth stage.front.source override))
    ((stage.withQueue (override :: queue)).after (take (interference depth) .work))

/-- A worker asks and reports, and then the messages are handled. -/
theorem after_take_work (queue : List (List String)) :
    (stage.withQueue (override :: queue)).after (take (interference depth) .work) =
      ((stage.withQueue queue).after (request depth stage.front.source override)).after
        (report ((stage.withQueue queue).result (request depth stage.front.source override)) >>=
          fun _ => modify (modifyFront Explorer.handleAll)) :=
  after_take_of_queue rfl

/-- Reporting an outcome launches nothing. -/
theorem launched_report (outcome : Except Failure String) :
    (stage.after (report outcome >>= fun _ => modify (modifyFront Explorer.handleAll))).launched =
      stage.launched := by
  unfold report
  split <;> rfl

/-- What scripts do at a moment only adds to what was launched. -/
theorem extends_interference (depth : Nat) (executable : String) (moment : Moment)
    (stage : ExplorerStage) : Extends stage (interference depth executable moment stage) :=
  (respects_interference_from (Extends.allows 0) depth executable moment stage (Nat.zero_le _)).2

/-- **What a worker launches** is the invocation of the command that is offered. -/
theorem launches_of_offers (offers : stage.Offers stage.front.source command)
    (built : Invocation.build? command (stage.host.absolute stage.front.source)
      (if override.isEmpty then none else some override) stage.rewrites = some invocation) :
    stage.Launches depth override invocation := by
  intro queue
  have hlaunching := launching_compile (extends_interference depth)
    (offers.withFront { stage.front with queue }) built
  have hlaunched :
      ((stage.withQueue (override :: queue)).after (take (interference depth) .work)).launched =
        ((stage.withQueue queue).after (request depth stage.front.source override)).launched := by
    rw [after_take_work, launched_report]
  exact hlaunching.congr rfl hlaunched

/-- Workers that ask for the same arguments do the same. -/
theorem after_take_work_congr {other : List String}
    (offers : stage.Offers stage.front.source command)
    (same : Invocation.effectiveArguments command (if override.isEmpty then none else some override)
      = Invocation.effectiveArguments command (if other.isEmpty then none else some other))
    (queue : List (List String)) :
    (stage.withQueue (override :: queue)).after (take (interference depth) .work) =
      (stage.withQueue (other :: queue)).after (take (interference depth) .work) := by
  obtain ⟨hresult, hafter⟩ : (stage.withQueue queue).result (request depth _ override) = _ ∧
      (stage.withQueue queue).after (request depth _ override) = _ :=
    compile_congr (offers.withFront _) same
  rw [after_take_work, after_take_work, hresult, hafter]
  rfl

/-- **What comes of submitting the entry as it is.** The command of the source is offered, and its
compiler is no flag. The palette is opened, takes the words of the command as its line, and the line
is submitted. Then the command is still offered, and unless the line is refused, a worker is queued
with those of the words that are not empty: with all of them, if none is. Whenever this worker runs
while the command is offered, it launches what a worker without an override launches exactly if no
word is empty. -/
theorem edit_of_offers {compiler : String} {rest : List String}
    (offers : stage.Offers stage.front.source command)
    (arguments : command.arguments = compiler :: rest) (starts : isFlag compiler = false) :
    let fire := interference depth
    let opened := stage.after (take fire .toggleCommand)
    let submitted := playScript fire [.toggleCommand, .editEntry, .submit] stage
    submitted.front.source = stage.front.source ∧ submitted.Offers stage.front.source command ∧
      submitted.front.queue = opened.front.queue ++ (submittable command.arguments).toList ∧
      ("" ∉ command.arguments → submittable command.arguments = some command.arguments) ∧
      ∀ kept, submittable command.arguments = some kept →
        kept = command.arguments.filter (· ≠ "") ∧
        ∀ later : ExplorerStage, later.Offers later.front.source command →
          let path := later.host.absolute later.front.source
          ∃ edited own : Invocation,
            Invocation.build? command path (some kept) later.rewrites = some edited ∧
              Invocation.build? command path none later.rewrites = some own ∧
              later.Launches depth kept edited ∧ later.Launches depth [] own ∧
              (edited.vector = own.vector ↔ "" ∉ command.arguments) := by
  intro fire opened submitted
  have hne : command.arguments ≠ [] := arguments ▸ List.cons_ne_nil _ _
  obtain ⟨hsource, hoffers, hqueue⟩ := submission_of_offers fire offers hne
  have hfull : "" ∉ command.arguments →
      submittable command.arguments = some command.arguments := by
    rw [arguments]
    exact fun full => submittable_of_notMem full starts
  refine ⟨hsource, hoffers, hqueue, hfull, fun kept hkept => ?_⟩
  obtain ⟨hwords, hsome⟩ := submittable_eq_some hkept
  refine ⟨hwords, fun later hlater => ?_⟩
  intro path
  -- the words are not empty, so the request does not fall back to those of the command
  obtain ⟨word, words, rfl⟩ := List.exists_cons_of_ne_nil hsome
  have hedited : Invocation.build? command path (some (word :: words)) later.rewrites = some _ :=
    Invocation.build?_of_words rfl
  have hown : Invocation.build? command path none later.rewrites = some _ :=
    Invocation.build?_of_words arguments
  refine ⟨_, _, hedited, hown, launches_of_offers hlater hedited,
    launches_of_offers hlater hown, ?_⟩
  constructor
  · -- a word that is lost makes the vector shorter
    intro hsame hempty
    have hlength : (word :: words).length < command.arguments.length := by
      rw [hwords]
      exact List.length_filter_lt_length_iff_exists.2 ⟨"", hempty, by simp⟩
    have hvector := congrArg List.length hsame
    simp only [Invocation.vector, List.length_cons, List.length_map, List.length_append] at hvector
    rw [arguments] at hlength
    simp only [List.length_cons] at hlength
    omega
  · intro full
    obtain ⟨rfl, rfl⟩ := List.cons.inj
      (arguments.symm.trans (Option.some.inj ((hfull full).symm.trans hkept)))
    rfl

/-- **Editing an entry with a command line changes nothing**, if its compiler is no flag. The worker
that is queued does whatever a worker without an override does. -/
theorem edit_of_line {host : Host} {location : String} {entry : CompileCommand.Entry}
    {compiler : String} {rest : List String}
    (recorded : command.RecordedBy host location entry compiler rest) (line : entry.line ≠ "")
    (offers : stage.Offers stage.front.source command)
    (starts : isFlag (Path.join entry.directory compiler) = false) :
    let fire := interference depth
    let opened := stage.after (take fire .toggleCommand)
    let submitted := playScript fire [.toggleCommand, .editEntry, .submit] stage
    submitted.front.queue = opened.front.queue ++ [command.arguments] ∧
      ∀ later : ExplorerStage, later.Offers later.front.source command → ∀ queue,
        (later.withQueue (command.arguments :: queue)).after (take fire .work) =
          (later.withQueue ([] :: queue)).after (take fire .work) := by
  intro fire opened submitted
  have hfull := recorded.empty_notMem line
  have hne : command.arguments ≠ [] := recorded.arguments ▸ List.cons_ne_nil _ _
  obtain ⟨-, -, hqueue⟩ := submission_of_offers fire offers hne
  have hkept : submittable command.arguments = some command.arguments := by
    rw [recorded.arguments] at hfull ⊢
    exact submittable_of_notMem hfull starts
  refine ⟨by rw [hqueue, hkept]; rfl, fun later hlater => after_take_work_congr hlater ?_⟩
  rw [recorded.arguments]
  exact recorded.arguments.symm

end Workers

/-- A machine with a source and a compile-commands file whose entry has an empty word. -/
def spacedHost : Host :=
  let index := "[\x7b\"directory\":\"/\",\"file\":\"a\",\"arguments\":[\"g\",\"\",\"-O2\"]\x7d]"
  { tree := ⟨[([['a']], .file { content := [] }),
      ([Engine.indexName.toList], .file { content := Utf8.encode index })], []⟩
    programs := [("/g", { output := some [] }), ("c++filt", {})] }

/-- An explorer of the source on this machine, which has compiled it once. -/
def spacedStage : ExplorerStage :=
  playScript (interference 0) [.mount, .work]
    ((create spacedHost "/a" none [] []).1.toOption.get (by decide +kernel))

/-- What the file has for the source. -/
def spacedCommand : CompileCommand := ⟨"/", "a", ["/g", "", "-O2"]⟩

/-- What the engine and the explorer hold then. -/
theorem spacedStage_engine :
    spacedStage.indexLocation "/a" = .ok "/compile_commands.json" ∧
      spacedStage.registered? "/compile_commands.json" = some 0 ∧
      (spacedStage.database? 0).any (fun database => database.attached) ∧
      (spacedStage.database? 0).map (fun database => database.commands) =
        some [("a", spacedCommand)] ∧
      spacedStage.lookup 0 "/a" = some spacedCommand ∧
      spacedStage.front.source = "/a" ∧ spacedStage.front.override = [] := by
  decide +kernel

/-- The sample offers its command for its source. -/
theorem offers_spacedStage : spacedStage.Offers spacedStage.front.source spacedCommand := by
  obtain ⟨hlocation, hregistered, hattached, -, hcommand, hsource, -⟩ := spacedStage_engine
  rw [hsource]
  exact offers_of_registersFor ⟨_, hlocation, hregistered⟩ hattached hcommand

/-- The worker that is queued launches something else than a worker without an override. -/
theorem edit_of_offers_sample :
    isFlag "/g" = false ∧
      let opened := spacedStage.after (take (interference 0) .toggleCommand)
      let submitted :=
        playScript (interference 0) [.toggleCommand, .editEntry, .submit] spacedStage
      submitted.front.queue = opened.front.queue ++ [["/g", "-O2"]] ∧
        ∃ edited own : Invocation, submitted.Launches 0 ["/g", "-O2"] edited ∧
          submitted.Launches 0 [] own ∧ edited.vector ≠ own.vector := by
  have hstarts : isFlag "/g" = false := by decide
  have hkept : submittable spacedCommand.arguments = some ["/g", "-O2"] := by decide
  obtain ⟨hsource, hoffers, hqueue, -, hworkers⟩ := edit_of_offers offers_spacedStage rfl hstarts
  rw [hkept] at hqueue
  obtain ⟨-, hlater⟩ := hworkers _ hkept
  rw [← hsource] at hoffers
  obtain ⟨edited, own, -, -, hedited, hown, hsame⟩ := hlater _ hoffers
  exact ⟨hstarts, hqueue, edited, own, hedited, hown, fun heq => hsame.1 heq (by decide)⟩

/-- **Not every edit without changes changes nothing.** The database of the source is loaded, the
compiler of its command is no flag, and there is no override. The palette is opened, takes the
command as its line, and the line is submitted. The worker that is then queued passes one word less
to the compiler than a worker that is queued without the palette. -/
theorem not_all_edits_without_changes_change_nothing :
    spacedStage.Offers spacedStage.front.source spacedCommand ∧
      (spacedStage.database? 0).map (fun database => database.commands) =
        some [("a", spacedCommand)] ∧
      isFlag "/g" = false ∧ spacedStage.front.override = [] ∧
      (playScript (interference 0) [.toggleCommand, .editEntry, .submit, .work]
          spacedStage).launched =
        spacedStage.launched ++ [["/g", "-O2", "/a", "-g", "-S", "-o", "-"], ["c++filt"]] ∧
      (playScript (interference 0) [.refresh, .work] spacedStage).launched =
        spacedStage.launched ++ [["/g", "", "-O2", "/a", "-g", "-S", "-o", "-"], ["c++filt"]] := by
  obtain ⟨-, -, -, hcommands, -, -, hoverride⟩ := spacedStage_engine
  exact ⟨offers_spacedStage, hcommands, by decide, hoverride, by decide +kernel⟩

end ExplorerStage

end AsmScope
