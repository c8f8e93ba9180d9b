import AsmScope.Proofs.Deeds
import AsmScope.Proofs.Encoding
import Mathlib
/-! # Entries of a compile-commands file

What an entry says is a relation between the fields of an object and the parts of a command
(`Entry.SaidBy`): a field that is left out, or whose value stands for nothing, says the same as one
that is empty. An entry gives a command exactly if it describes one (`ofEntry_eq_ok_iff`), and each
fault has a reason of its own (`ofEntry_eq_error_iff`). An array of entries is a list of commands
that are written into a table one after the other (`CommandIndex.addEntries_eq_ok_iff`), so the
index of a file is known from its entries (`CommandIndex.load_of_array`). -/

namespace AsmScope

universe u v

namespace Table

/-! ### Tables written entry by entry -/

variable {κ : Type u} {ν : Type v} [DecidableEq κ]

/-- A table of entries with one more at the end is the one without it, with this value put under its
key. -/
theorem ofEntries_concat (entries : List (κ × ν)) (key : κ) (value : ν) :
    ofEntries (entries ++ [(key, value)]) = (ofEntries entries).put key value := by
  simp [ofEntries, update]

/-- The keys stand in the order of their first entries. -/
theorem keys_ofEntries (entries : List (κ × ν)) :
    (ofEntries entries).keys = (entries.map Prod.fst).eraseDups := by
  induction entries using List.reverseRecOn with
  | nil => rfl
  | append_singleton entries entry ih =>
    obtain ⟨key, value⟩ := entry
    have hnew : ([key].removeAll (entries.map Prod.fst)).eraseDups =
        if key ∈ entries.map Prod.fst then [] else [key] := by
      by_cases hkey : key ∈ entries.map Prod.fst <;> simp_all [List.removeAll, List.eraseDups_cons]
    rw [ofEntries_concat, keys_put, ih, List.map_append, List.map_singleton, List.eraseDups_append,
      hnew]
    by_cases hkey : key ∈ entries.map Prod.fst <;> simp [hkey]

/-- What is read back was written by the last entry of its key. -/
theorem exists_eq_append_of_get?_ofEntries {entries : List (κ × ν)} {key : κ} {value : ν}
    (found : (ofEntries entries).get? key = some value) :
    ∃ before later, entries = before ++ (key, value) :: later ∧ ∀ entry ∈ later, entry.1 ≠ key := by
  induction entries using List.reverseRecOn with
  | nil => cases found
  | append_singleton entries entry ih =>
    -- the last entry is of this key, or it changes nothing for it
    obtain ⟨other, written⟩ := entry
    rw [ofEntries_concat, get?_put] at found
    split at found
    · next hsame =>
      obtain rfl : other = key := hsame
      obtain rfl : written = value := Option.some.inj found
      exact ⟨entries, [], rfl, List.forall_mem_nil _⟩
    · next hother =>
      obtain ⟨before, later, rfl, hlater⟩ := ih found
      refine ⟨before, later ++ [(other, written)], by simp, ?_⟩
      intro entry hentry
      rcases List.mem_append.1 hentry with hentry | hentry
      · exact hlater entry hentry
      · rw [List.mem_singleton.1 hentry]
        exact hother

end Table

namespace Json

/-- Only a text value has a text. -/
@[simp] theorem text?_eq_some_iff {value : Json} {text : String} :
    value.text? = some text ↔ value = .text text := by
  cases value <;> simp [text?]

/-- Only an array has items. -/
@[simp] theorem items?_eq_some_iff {value : Json} {items : List Json} :
    value.items? = some items ↔ value = .array items := by
  cases value <;> simp [items?]

/-- Only an object has fields. -/
@[simp] theorem fields?_eq_some_iff {value : Json} {fields : Table String Json} :
    value.fields? = some fields ↔ value = .object fields := by
  cases value <;> simp [fields?]

/-- A list of values is one of texts, or has an item that is none. -/
theorem mapM_text?_eq_some_iff {items : List Json} {texts : List String} :
    items.mapM text? = some texts ↔ items = texts.map .text := by
  induction items generalizing texts with
  | nil => cases texts <;> simp
  | cons item items ih =>
    cases texts with
    | nil => simp [List.mapM_cons, Option.bind_eq_bind, Option.bind_eq_some_iff]
    | cons text texts => simp [List.mapM_cons, Option.bind_eq_bind, Option.bind_eq_some_iff, ih]

end Json

namespace CompileCommand

/-! ### Flags of the build's own object file -/

/-- The flags that are dropped. -/
def IsBuildFlag (argument : String) : Prop := argument = "-o" ∨ argument = "-c" ∨ argument = "-g"

/-- Dropping build flags adds no argument and keeps the order. -/
theorem dropBuildFlags_sublist (arguments : List String) :
    (dropBuildFlags arguments).Sublist arguments := by
  fun_induction dropBuildFlags arguments with
  | case1 => exact .slnil
  | case2 argument => exact List.nil_sublist _
  | case3 argument => exact .refl _
  | case4 next rest ih => exact (ih.cons next).cons _
  | case5 argument next rest _ _ ih => exact ih.cons argument
  | case6 argument next rest _ _ ih => exact ih.cons_cons argument

/-- Neither a flag nor one that was the value of another is left. -/
theorem not_isBuildFlag_of_mem_dropBuildFlags {arguments : List String} {argument : String}
    (left : argument ∈ dropBuildFlags arguments) : ¬IsBuildFlag argument := by
  fun_induction dropBuildFlags arguments with
  | case1 => cases left
  | case2 => cases left
  | case3 only hkept => exact List.mem_singleton.1 left ▸ hkept
  | case4 next rest ih => exact ih left
  | case5 first next rest _ _ ih => exact ih left
  | case6 first next rest hoption hflag ih =>
    rcases List.mem_cons.1 left with rfl | hrest
    · exact not_or.2 ⟨hoption, hflag⟩
    · exact ih hrest

/-! ### What an entry says -/

/-- What a well-formed entry says. -/
structure Entry where
  /-- The working directory. -/
  directory : String
  /-- The source file. -/
  file : String
  /-- The command line; empty if there is none. -/
  line : String
  /-- The argument list; empty if there is none. -/
  arguments : List String

namespace Entry

/-- The words of an entry: those of its command line, or its arguments if that is empty. -/
def words (entry : Entry) : List String :=
  if entry.line = "" then entry.arguments else CommandLine.split entry.line

/-- A field is missing, or its value stands for nothing. -/
def LeftOut (fields : Table String Json) (name : String) : Prop :=
  ∀ value, fields.get? name = some value → value.isEmptyValue

/-- The directory and the file are texts. -/
def SaysPlace (fields : Table String Json) (directory file : String) : Prop :=
  fields.get? "directory" = some (.text directory) ∧ fields.get? "file" = some (.text file)

/-- A field that may be left out holds this, or is left out where it would hold nothing. -/
def Says {β : Type} (write : β → Json) (nothing : β) (fields : Table String Json) (name : String)
    (said : β) : Prop :=
  fields.get? name = some (write said) ∨ LeftOut fields name ∧ said = nothing

/-- The command line is a text, or left out. -/
def SaysLine (fields : Table String Json) (line : String) : Prop :=
  Says .text "" fields "command" line

/-- The arguments are a list of texts, or left out. -/
def SaysArguments (fields : Table String Json) (arguments : List String) : Prop :=
  Says (fun texts => .array (texts.map .text)) [] fields "arguments" arguments

/-- What the fields of an object say as an entry. -/
structure SaidBy (fields : Table String Json) (entry : Entry) : Prop where
  place : SaysPlace fields entry.directory entry.file
  line : SaysLine fields entry.line
  arguments : SaysArguments fields entry.arguments

end Entry

open Entry

/-- The command that a value describes as an entry. -/
inductive Describes : Json → CompileCommand → Prop
  | intro {fields : Table String Json} {entry : Entry} {compiler : String} {rest : List String}
      (said : entry.SaidBy fields) (words : entry.words = compiler :: rest) :
      Describes (.object fields) ⟨entry.directory, entry.file,
        Path.join entry.directory compiler :: (dropBuildFlags rest).filter (· ≠ entry.file)⟩

/-- An entry that says everything that it has to say: an object with two texts, a command line and
arguments that are texts or left out, and at least one word. -/
def WellFormed (value : Json) : Prop :=
  ∃ fields entry, value = .object fields ∧ Entry.SaidBy fields entry ∧ entry.words ≠ []

/-- Why a value is no entry; what is looked at before is in order. -/
inductive IllFormed : Json → EntryFault → Prop
  | notObject {value : Json} (other : ∀ fields, value ≠ .object fields) :
      IllFormed value .notObject
  | missingText {fields : Table String Json}
      (other : ∀ directory file, ¬SaysPlace fields directory file) :
      IllFormed (.object fields) .missingText
  | commandNotText {fields : Table String Json} {directory file : String}
      (place : SaysPlace fields directory file) (other : ∀ line, ¬SaysLine fields line) :
      IllFormed (.object fields) .commandNotText
  | argumentsNotTexts {fields : Table String Json} {directory file line : String}
      (place : SaysPlace fields directory file) (command : SaysLine fields line)
      (other : ∀ arguments, ¬SaysArguments fields arguments) :
      IllFormed (.object fields) .argumentsNotTexts
  | noArguments {fields : Table String Json} {entry : Entry} (said : entry.SaidBy fields)
      (nothing : entry.words = []) : IllFormed (.object fields) (.noArguments entry.file)

section Fields

variable {fields : Table String Json}

/-- A field that may be left out counts as left out if it is missing or stands for nothing. -/
theorem optionalField_eq_none_iff {name : String} :
    optionalField fields name = none ↔ LeftOut fields name := by
  simp [optionalField, LeftOut, Option.filter_eq_none_iff]

/-- A field that may be left out has the value that the object holds under its name, unless this
stands for nothing. -/
theorem optionalField_eq_some_iff {name : String} {value : Json} :
    optionalField fields name = some value ↔
      fields.get? name = some value ∧ value.isEmptyValue = false := by
  simp [optionalField, Option.filter_eq_some_iff]

/-- **A field that may be left out** is read as what it says. -/
theorem says_iff {β : Type} {write : β → Json} {nothing : β} (read? : Json → Option β)
    (reads : ∀ value said, read? value = some said ↔ value = write said)
    (empty : ∀ said, (write said).isEmptyValue ↔ said = nothing) (name : String) (said : β) :
    Says write nothing fields name said ↔
      Option.map (fun held : Option β => held.getD nothing)
        (match optionalField fields name with
        | none => some none
        | some value => (read? value).map some) = some said := by
  cases hfield : optionalField fields name with
  | none =>
    have hout := optionalField_eq_none_iff.1 hfield
    constructor
    · rintro (hsaid | ⟨-, rfl⟩)
      · -- what is written there stands for nothing, so nothing is what it says
        rw [(empty said).1 (hout _ hsaid)]
        rfl
      · rfl
    · intro h
      exact .inr ⟨hout, (Option.some.inj h).symm⟩
  | some value =>
    obtain ⟨hvalue, hfull⟩ := optionalField_eq_some_iff.1 hfield
    have hread : ((read? value).map some).map (·.getD nothing) = read? value := by
      cases read? value <;> rfl
    rw [hread, reads, Says, hvalue]
    constructor
    · rintro (hsaid | ⟨hout, -⟩)
      · exact Option.some.inj hsaid
      · rw [hout value hvalue] at hfull
        cases hfull
    · rintro rfl
      exact .inl rfl

/-- What an object says as a command line is what is read as one, or the empty line where it is left
out. -/
theorem saysLine_iff (line : String) :
    SaysLine fields line ↔ (commandField? fields).map (·.getD "") = some line := by
  refine says_iff Json.text? (fun value said => Json.text?_eq_some_iff) ?_ "command" line
  intro said
  simp [Json.isEmptyValue]

/-- What an object says as arguments is what is read as such, or none where they are left out. -/
theorem saysArguments_iff (arguments : List String) :
    SaysArguments fields arguments ↔
      (argumentsField? fields).map (·.getD []) = some arguments := by
  refine says_iff (fun value => value.items?.bind fun items => items.mapM Json.text?) ?_ ?_
    "arguments" arguments
  · intro value said
    simp [Option.bind_eq_some_iff, Json.mapM_text?_eq_some_iff]
  · intro said
    simp [Json.isEmptyValue]

/-- Leaving the command line or the arguments out is the same as leaving them empty. -/
theorem rawArguments_eq (command : Option String) (arguments : Option (List String)) :
    rawArguments command arguments =
      if command.getD "" = "" then arguments.getD [] else CommandLine.split (command.getD "") := by
  cases command with
  | none => rfl
  | some line => simp [rawArguments, String.isEmpty_iff]

end Fields

/-- The file that an entry names. -/
def fileOf? (value : Json) : Option String :=
  (value.fields?.bind (·.get? "file")).bind Json.text?

/-! ### Reading an entry -/

section Reading

variable {value : Json}

/-- An entry that says everything is read by its words. -/
theorem ofEntry_of_said {fields : Table String Json} {entry : Entry} (said : entry.SaidBy fields) :
    ofEntry (.object fields) =
      match entry.words with
      | [] => .error (.noArguments entry.file)
      | compiler :: rest => .ok ⟨entry.directory, entry.file,
          Path.join entry.directory compiler ::
            (dropBuildFlags rest).filter (· ≠ entry.file)⟩ := by
  obtain ⟨⟨hdirectory, hfile⟩, hline, harguments⟩ := said
  obtain ⟨line, hcommand, hline⟩ := Option.map_eq_some_iff.1 ((saysLine_iff _).1 hline)
  obtain ⟨texts, hfield, htexts⟩ := Option.map_eq_some_iff.1 ((saysArguments_iff _).1 harguments)
  have hraw : rawArguments line texts = entry.words := by
    rw [rawArguments_eq, hline, htexts, words]
  simp only [ofEntry, Json.fields?, hdirectory, hfile, Option.bind_some, Json.text?, hcommand,
    hfield, reconstruct, hraw]
  cases entry.words <;> rfl

/-- What describes a command is read as this command. -/
theorem ofEntry_of_describes {command : CompileCommand} (described : Describes value command) :
    ofEntry value = .ok command := by
  obtain ⟨said, hwords⟩ := described
  rw [ofEntry_of_said said, hwords]

/-- What is no entry is refused for the reason for which it is none. -/
theorem ofEntry_of_illFormed {fault : EntryFault} (illFormed : IllFormed value fault) :
    ofEntry value = .error fault := by
  -- the checks are made in the order of the constructors; each fault has passed those before
  cases illFormed with
  | notObject other =>
    have hfields : value.fields? = none := by
      rw [Option.eq_none_iff_forall_ne_some]
      exact fun fields h => other fields (Json.fields?_eq_some_iff.1 h)
    simp only [ofEntry, hfields]
    rfl
  | @missingText fields other =>
    simp only [ofEntry, Json.fields?]
    cases hdirectory : (fields.get? "directory").bind Json.text? with
    | none => rfl
    | some directory =>
      cases hfile : (fields.get? "file").bind Json.text? with
      | none => rfl
      | some file =>
        simp only [Option.bind_eq_some_iff, Json.text?_eq_some_iff, exists_eq_right]
          at hdirectory hfile
        exact absurd ⟨hdirectory, hfile⟩ (other directory file)
  | @commandNotText fields directory file place other =>
    have hcommand : commandField? fields = none := by
      cases h : commandField? fields with
      | none => rfl
      | some line => exact absurd ((saysLine_iff _).2 (by rw [h]; rfl)) (other (line.getD ""))
    simp only [ofEntry, Json.fields?, place.1, place.2, Option.bind_some, Json.text?, hcommand]
    rfl
  | @argumentsNotTexts fields directory file line place command other =>
    obtain ⟨line, hcommand, -⟩ := Option.map_eq_some_iff.1 ((saysLine_iff _).1 command)
    have harguments : argumentsField? fields = none := by
      cases h : argumentsField? fields with
      | none => rfl
      | some texts =>
        exact absurd ((saysArguments_iff _).2 (by rw [h]; rfl)) (other (texts.getD []))
    simp only [ofEntry, Json.fields?, place.1, place.2, Option.bind_some, Json.text?, hcommand,
      harguments]
    rfl
  | noArguments said nothing => rw [ofEntry_of_said said, nothing]

/-- Every value describes a command, or is ill-formed. -/
theorem describes_or_illFormed (value : Json) :
    (∃ command, Describes value command) ∨ ∃ fault, IllFormed value fault := by
  -- in the order in which a reader looks for faults: each when those before are ruled out
  by_cases hobject : ∃ fields, value = .object fields
  · obtain ⟨fields, rfl⟩ := hobject
    by_cases hplace : ∃ directory file, SaysPlace fields directory file
    · obtain ⟨directory, file, hplace⟩ := hplace
      by_cases hline : ∃ line, SaysLine fields line
      · obtain ⟨line, hline⟩ := hline
        by_cases harguments : ∃ arguments, SaysArguments fields arguments
        · obtain ⟨arguments, harguments⟩ := harguments
          have hsaid : SaidBy fields ⟨directory, file, line, arguments⟩ :=
            ⟨hplace, hline, harguments⟩
          cases hwords : words ⟨directory, file, line, arguments⟩ with
          | nil => exact .inr ⟨_, .noArguments hsaid hwords⟩
          | cons compiler rest => exact .inl ⟨_, .intro hsaid hwords⟩
        · exact .inr ⟨_, .argumentsNotTexts hplace hline (not_exists.1 harguments)⟩
      · exact .inr ⟨_, .commandNotText hplace (not_exists.1 hline)⟩
    · exact .inr ⟨_, .missingText fun directory file h => hplace ⟨directory, file, h⟩⟩
  · exact .inr ⟨_, .notObject (not_exists.1 hobject)⟩

/-- **An entry gives a command** exactly if it describes it. -/
theorem ofEntry_eq_ok_iff {command : CompileCommand} :
    ofEntry value = .ok command ↔ Describes value command := by
  refine ⟨fun h => ?_, ofEntry_of_describes⟩
  rcases describes_or_illFormed value with ⟨other, hother⟩ | ⟨fault, hfault⟩
  · obtain rfl : other = command := Except.ok.inj ((ofEntry_of_describes hother).symm.trans h)
    exact hother
  · rw [ofEntry_of_illFormed hfault] at h
    cases h

/-- **An entry gives a fault** exactly if it is ill-formed in this way. -/
theorem ofEntry_eq_error_iff {fault : EntryFault} :
    ofEntry value = .error fault ↔ IllFormed value fault := by
  refine ⟨fun h => ?_, ofEntry_of_illFormed⟩
  rcases describes_or_illFormed value with ⟨command, hcommand⟩ | ⟨other, hother⟩
  · rw [ofEntry_of_describes hcommand] at h
    cases h
  · obtain rfl : other = fault := Except.error.inj ((ofEntry_of_illFormed hother).symm.trans h)
    exact hother

/-- An entry is well formed exactly if it describes a command. -/
theorem wellFormed_iff : WellFormed value ↔ ∃ command, Describes value command := by
  constructor
  · rintro ⟨fields, entry, rfl, hsaid, hwords⟩
    obtain ⟨compiler, rest, hwords⟩ := List.exists_cons_of_ne_nil hwords
    exact ⟨_, .intro hsaid hwords⟩
  · rintro ⟨_, ⟨hsaid, hwords⟩⟩
    exact ⟨_, _, rfl, hsaid, by simp [hwords]⟩

/-- An entry is not well formed exactly if there is a reason for which it is none. -/
theorem not_wellFormed_iff : ¬WellFormed value ↔ ∃ fault, IllFormed value fault := by
  simp only [wellFormed_iff, ← ofEntry_eq_ok_iff, ← ofEntry_eq_error_iff]
  cases ofEntry value <;> simp

end Reading

namespace Describes

variable {value : Json} {command : CompileCommand}

/-- **The command of an entry**: the compiler comes first, and no flag of the build's own object
file and not the source file comes after it. -/
theorem arguments_eq (described : Describes value command) :
    ∃ compiler rest, command.arguments = compiler :: rest ∧
      ∀ argument ∈ rest, ¬IsBuildFlag argument ∧ argument ≠ command.file := by
  obtain ⟨said, hwords⟩ := described
  refine ⟨_, _, rfl, ?_⟩
  intro argument hargument
  obtain ⟨hkept, hfile⟩ := List.mem_filter.1 hargument
  exact ⟨not_isBuildFlag_of_mem_dropBuildFlags hkept, by simpa using hfile⟩

/-- What describes a command names the file of this command. -/
theorem fileOf?_eq (described : Describes value command) : fileOf? value = some command.file := by
  obtain ⟨⟨⟨-, hfile⟩, -, -⟩, -⟩ := described
  simp [fileOf?, Json.fields?, hfile, Json.text?]

end Describes

end CompileCommand

namespace CommandIndex

open CompileCommand

/-! ### Reading a list of entries -/

section Entries

variable {entries : List Json} {index : Nat} {commands : CommandIndex}

/-- A command under the file that it compiles. -/
def byFile (command : CompileCommand) : String × CompileCommand := (command.file, command)

/-- **Entries that are all in order** are written into the table one after the other. -/
theorem addEntries_eq_ok_iff {loaded : CommandIndex} :
    addEntries index commands entries = .ok loaded ↔
      ∃ described : List CompileCommand, entries.map ofEntry = described.map .ok ∧
        commands.update (described.map byFile) = loaded := by
  -- induction on the entries that are left, with the commands and the number of the next one
  induction entries generalizing index commands with
  | nil =>
    simp only [addEntries, List.map_nil, Except.ok.injEq, List.nil_eq, List.map_eq_nil_iff]
    simp [Table.update]
  | cons entry entries ih =>
    rw [addEntries]
    cases hentry : ofEntry entry with
    | error fault =>
      refine iff_of_false nofun ?_
      rintro ⟨described, heq, -⟩
      cases described <;> simp [hentry] at heq
    | ok command =>
      dsimp only
      rw [ih]
      constructor
      · rintro ⟨described, heq, rfl⟩
        exact ⟨command :: described, by rw [List.map_cons, hentry, heq, List.map_cons], rfl⟩
      · rintro ⟨described, heq, rfl⟩
        obtain ⟨first, described, rfl, hfirst, heq⟩ := List.map_eq_cons_iff.1 heq.symm
        obtain rfl : first = command := Except.ok.inj (hfirst.trans hentry)
        exact ⟨described, heq.symm, rfl⟩

/-- **Entries that are not all in order** give the fault of the first one that is not. -/
theorem addEntries_of_illFormed {before later : List Json} {entry : Json} {fault : EntryFault}
    (inOrder : ∀ entry ∈ before, WellFormed entry) (illFormed : IllFormed entry fault) :
    addEntries index commands (before ++ entry :: later) =
      .error (.entry (index + before.length) fault) := by
  induction before generalizing index commands with
  | nil => simp [addEntries, ofEntry_of_illFormed illFormed]
  | cons first before ih =>
    obtain ⟨command, hcommand⟩ := wellFormed_iff.1 (inOrder first List.mem_cons_self)
    have hbefore : addEntries (index + 1) (commands.put command.file command)
        (before ++ entry :: later) = .error (.entry (index + 1 + before.length) fault) :=
      ih fun entry hentry => inOrder entry (List.mem_cons_of_mem first hentry)
    simp only [List.cons_append, addEntries, ofEntry_of_describes hcommand, hbefore]
    rw [List.length_cons, Nat.add_assoc, Nat.add_comm 1]

/-- Entries that are in order are read as commands, one for each. -/
theorem exists_described (inOrder : ∀ entry ∈ entries, WellFormed entry) :
    ∃ described : List CompileCommand, entries.map ofEntry = described.map .ok := by
  induction entries with
  | nil => exact ⟨[], rfl⟩
  | cons entry entries ih =>
    obtain ⟨command, hcommand⟩ := wellFormed_iff.1 (inOrder entry List.mem_cons_self)
    obtain ⟨described, heq⟩ := ih fun entry hentry => inOrder entry (List.mem_cons_of_mem _ hentry)
    exact ⟨command :: described, by
      rw [List.map_cons, ofEntry_of_describes hcommand, heq, List.map_cons]⟩

/-- The files that such entries name are those of their commands. -/
theorem fileOf?_of_described {described : List CompileCommand}
    (heq : entries.map ofEntry = described.map .ok) :
    entries.filterMap fileOf? = described.map (·.file) := by
  induction described generalizing entries with
  | nil => simp [List.map_eq_nil_iff.1 heq]
  | cons command described ih =>
    obtain ⟨entry, entries, rfl, hentry, heq⟩ := List.map_eq_cons_iff.1 heq
    have hfile := (ofEntry_eq_ok_iff.1 hentry).fileOf?_eq
    rw [List.filterMap_cons_some hfile, ih heq, List.map_cons]

/-- The first entry that is not in order, if there is one. -/
theorem exists_first_illFormed (disorder : ¬∀ entry ∈ entries, WellFormed entry) :
    ∃ before entry later fault, entries = before ++ entry :: later ∧
      (∀ entry ∈ before, WellFormed entry) ∧ IllFormed entry fault := by
  induction entries with
  | nil => exact absurd nofun disorder
  | cons first entries ih =>
    by_cases hfirst : WellFormed first
    · have hrest : ¬∀ entry ∈ entries, WellFormed entry := by
        intro hrest
        exact disorder (List.forall_mem_cons.2 ⟨hfirst, hrest⟩)
      obtain ⟨before, entry, later, fault, rfl, hbefore, hentry⟩ := ih hrest
      exact ⟨first :: before, entry, later, fault, rfl,
        List.forall_mem_cons.2 ⟨hfirst, hbefore⟩, hentry⟩
    · obtain ⟨fault, hfault⟩ := not_wellFormed_iff.1 hfirst
      exact ⟨[], first, entries, fault, rfl, nofun, hfault⟩

/-- **The keys of an index** stand in the order in which the files came first. -/
theorem keys_of_addEntries {loaded : CommandIndex} (added : addEntries 0 [] entries = .ok loaded) :
    loaded.keys = (entries.filterMap fileOf?).eraseDups := by
  obtain ⟨described, heq, rfl⟩ := addEntries_eq_ok_iff.1 added
  have hkeys := Table.keys_ofEntries (described.map byFile)
  rw [fileOf?_of_described heq]
  simpa [Table.ofEntries, byFile, Function.comp_def] using hkeys

/-- **The command of a key** is the one that the last entry of its file describes. -/
theorem describes_of_addEntries {loaded : CommandIndex} {key : String} {command : CompileCommand}
    (added : addEntries 0 [] entries = .ok loaded) (found : loaded.get? key = some command) :
    command.file = key ∧ ∃ before entry later, entries = before ++ entry :: later ∧
      Describes entry command ∧ ∀ other ∈ later, fileOf? other ≠ some key := by
  obtain ⟨described, heq, rfl⟩ := addEntries_eq_ok_iff.1 added
  obtain ⟨before, later, hsplit, hlater⟩ := Table.exists_eq_append_of_get?_ofEntries found
  obtain ⟨before, last, rfl, -, hlast⟩ := List.map_eq_append_iff.1 hsplit
  obtain ⟨command', later, rfl, hbyFile, rfl⟩ := List.map_eq_cons_iff.1 hlast
  obtain ⟨rfl, rfl⟩ := Prod.mk.inj hbyFile
  rw [List.map_append, List.map_cons] at heq
  obtain ⟨first, others, rfl, -, hothers⟩ := List.map_eq_append_iff.1 heq
  obtain ⟨entry, others, rfl, hentry, hothers⟩ := List.map_eq_cons_iff.1 hothers
  refine ⟨rfl, first, entry, others, rfl, ofEntry_eq_ok_iff.1 hentry, ?_⟩
  intro other hother hfile
  have hmem : command'.file ∈ others.filterMap fileOf? :=
    List.mem_filterMap.2 ⟨other, hother, hfile⟩
  rw [fileOf?_of_described hothers] at hmem
  obtain ⟨overwriting, hin, hsame⟩ := List.mem_map.1 hmem
  exact hlater _ (List.mem_map_of_mem hin) hsame

end Entries

/-! ### Loading a file -/

/-- The file at a location holds an array of these values. -/
def HoldsArray (host : Host) (location : String) (entries : List Json) : Prop :=
  ∃ content text, host.tree.read host.directory location = .ok content ∧
    Utf8.decodeFile? content = some text ∧ Json.parse text = .ok (.array entries)

section Loading

variable {host : Host} {location : String} {entries : List Json}

/-- The index of a file that holds an array is what adding its entries one after the other gives. -/
theorem ofFile_of_holds (holds : HoldsArray host location entries) :
    ofFile host location = addEntries 0 [] entries := by
  obtain ⟨content, text, hread, hdecoded, hparsed⟩ := holds
  simp [ofFile, hread, ofBytes, hdecoded, hparsed, ofJson]

/-- **The index of an array.** Loading succeeds exactly if every entry is well-formed, and fails
with the number and the fault of the first one that is not. The keys of the index are the files of
the entries, each where it came first. The command of a key is the one that the last entry of this
file describes; it has a compiler, and none of `-c`, `-g`, `-o` and the file after it. -/
theorem load_of_array (holds : HoldsArray host location entries) :
    ((∃ commands, (load host location).1 = .ok commands) ↔
      ∀ entry ∈ entries, WellFormed entry) ∧
    ((¬∀ entry ∈ entries, WellFormed entry) →
      ∃ before entry later fault, entries = before ++ entry :: later ∧
        (∀ entry ∈ before, WellFormed entry) ∧ IllFormed entry fault ∧
        (load host location).1 = .error (.entry before.length fault)) ∧
    ∀ commands, (load host location).1 = .ok commands →
      commands.keys = (entries.filterMap fileOf?).eraseDups ∧
      ∀ key command, commands.get? key = some command →
        (∃ before entry later, entries = before ++ entry :: later ∧ Describes entry command ∧
          ∀ other ∈ later, fileOf? other ≠ some key) ∧
        command.file = key ∧
        ∃ compiler rest, command.arguments = compiler :: rest ∧
          "-c" ∉ rest ∧ "-g" ∉ rest ∧ "-o" ∉ rest ∧ key ∉ rest := by
  rw [Engine.load_fst, ofFile_of_holds holds]
  refine ⟨⟨?_, ?_⟩, ?_, ?_⟩
  · rintro ⟨commands, hloaded⟩ entry hentry
    obtain ⟨described, heq, -⟩ := addEntries_eq_ok_iff.1 hloaded
    obtain ⟨command, -, hcommand⟩ := List.mem_map.1 (heq ▸ List.mem_map_of_mem hentry)
    exact wellFormed_iff.2 ⟨command, ofEntry_eq_ok_iff.1 hcommand.symm⟩
  · intro hinOrder
    obtain ⟨described, heq⟩ := exists_described hinOrder
    exact ⟨_, addEntries_eq_ok_iff.2 ⟨described, heq, rfl⟩⟩
  · -- the ones before the first entry that is not in order do no harm
    intro hdisorder
    obtain ⟨before, entry, later, fault, rfl, hbefore, hentry⟩ := exists_first_illFormed hdisorder
    refine ⟨before, entry, later, fault, rfl, hbefore, hentry, ?_⟩
    rw [addEntries_of_illFormed hbefore hentry, Nat.zero_add]
  · intro commands hloaded
    refine ⟨keys_of_addEntries hloaded, fun key command hfound => ?_⟩
    obtain ⟨rfl, before, entry, later, hsplit, hdescribed, hlast⟩ :=
      describes_of_addEntries hloaded hfound
    obtain ⟨compiler, rest, harguments, hrest⟩ := hdescribed.arguments_eq
    have hflags : ∀ flag, IsBuildFlag flag → flag ∉ rest := fun flag hflag hmem =>
      (hrest flag hmem).1 hflag
    exact ⟨⟨before, entry, later, hsplit, hdescribed, hlast⟩, rfl, compiler, rest, harguments,
      hflags _ (.inr (.inl rfl)), hflags _ (.inr (.inr rfl)), hflags _ (.inl rfl),
      fun hmem => (hrest _ hmem).2 rfl⟩

end Loading

/-- A file with two entries for one source. The second one has a zero in place of a command line,
and names the source in two spellings and the flag for the output twice. -/
def repeatedText : String :=
  "[\x7b\"directory\":\"/\",\"file\":\"a\",\"command\":\"g\"\x7d," ++
    "\x7b\"directory\":\"/\",\"file\":\"a\",\"command\":0," ++
      "\"arguments\":[\"h\",\"./a\",\"a\",\"-o\",\"-o\"]\x7d]"

/-- The entries of the file. -/
def repeatedEntries : List Json :=
  [.object [("directory", .text "/"), ("file", .text "a"), ("command", .text "g")],
    .object [("directory", .text "/"), ("file", .text "a"), ("command", .int 0),
      ("arguments", .array [.text "h", .text "./a", .text "a", .text "-o", .text "-o"])]]

/-- A machine with this file. -/
def repeatedHost : Host :=
  { tree := ⟨[([['c']], .file { content := Utf8.encode repeatedText })], []⟩ }

/-- The file of the sample holds the two entries. -/
theorem holds_repeatedHost : HoldsArray repeatedHost "/c" repeatedEntries := by
  refine ⟨_, repeatedText, rfl, ?_, ?_⟩
  · have hdecoded : Utf8.decode? (Utf8.encode repeatedText) = some repeatedText :=
      (Utf8.decode?_eq_some_iff _ _).2 rfl
    rw [Utf8.decodeFile?, hdecoded, Option.map_some]
    decide +kernel
  · cbv

/-- The index of the file. -/
def repeatedIndex : CommandIndex := [("a", ⟨"/", "a", ["/h", "./a"]⟩)]

/-- The index of the sample has the one command of the second entry. -/
theorem ofFile_repeatedHost : ofFile repeatedHost "/c" = .ok repeatedIndex := by
  rw [ofFile_of_holds holds_repeatedHost]
  rfl

/-- The second entry is the one that is kept, with the spelling that is not its file. -/
theorem load_of_array_sample :
    HoldsArray repeatedHost "/c" repeatedEntries ∧
      (load repeatedHost "/c").1 = .ok repeatedIndex ∧
      (∀ entry ∈ repeatedEntries, WellFormed entry) ∧
      repeatedIndex.keys = (repeatedEntries.filterMap fileOf?).eraseDups := by
  have hloaded := (Engine.load_fst repeatedHost "/c").trans ofFile_repeatedHost
  obtain ⟨hinOrder, -, hindex⟩ := load_of_array holds_repeatedHost
  exact ⟨holds_repeatedHost, hloaded, hinOrder.1 ⟨_, hloaded⟩, (hindex _ hloaded).1⟩

end CommandIndex

end AsmScope
