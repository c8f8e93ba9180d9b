import AsmScope.Proofs.Entries
import AsmScope.Proofs.Launches
import AsmScope.Proofs.Lookup
/-! # The argument vector of a run

What a run passes to its compiler comes from an entry of a file, from the source and from the table
of rewrites. Where the table leaves the flags and the source alone, the vector asks for assembly on
the standard output and for nothing else (`Scenario.flags_of_run`). Beside the source that a run
names on its own, words of the entry that name it stay if they are spelled otherwise than its file
(`Scenario.sources_of_run`). -/

namespace AsmScope

namespace Path

/-! ### Words that name a source -/

namespace Chars

/-- A path has two slashes at its root at most. -/
theorem rootSlashes_le (p : List Char) : rootSlashes p ≤ 2 := by
  unfold rootSlashes
  split <;> omega

/-- A path that is made of proper names with two slashes at its root has two there. -/
theorem rootSlashes_ofNames_two {names : List Name} (h : ∀ name ∈ names, Proper name) :
    rootSlashes (ofNames 2 names) = 2 := by
  change rootSlashes ('/' :: '/' :: ['/'].intercalate names) = 2
  rw [rootSlashes]
  exact fun rest hrest => ne_slash_of_proper h hrest

/-- A normal form is its own normal form, also with two slashes at the beginning. -/
theorem normalize_normalize {p : List Char} (h : isAbsolute p) :
    normalize (normalize p) = normalize p := by
  have hnormal := normal_normalize h
  have hslashes : rootSlashes p = 1 ∨ rootSlashes p = 2 := by
    have hpos := rootSlashes_pos h
    have hle := rootSlashes_le p
    omega
  rcases hslashes with hone | htwo
  · rw [hone] at hnormal
    exact hnormal.normalize_eq
  · rw [htwo] at hnormal
    rw [normalize, hnormal.normalNames_eq, hnormal.eq, rootSlashes_ofNames_two hnormal.proper]

end Chars

variable {directory : String}

/-- An absolute path stays what it is when it is joined to another one. -/
theorem join_of_isAbsolute {p : String} (h : isAbsolute p) (base : String) : join base p = p := by
  have hchars : Chars.isAbsolute p.toList := h
  rw [join, Chars.join, if_pos hchars, String.ofList_toList]

/-- The absolute form of a path is its own normal form. -/
theorem normalize_absolute (h : isAbsolute directory) (p : String) :
    normalize (absolute directory p) = absolute directory p := by
  rw [normalize, absolute, String.toList_ofList]
  exact congrArg String.ofList (Chars.normalize_normalize (Chars.isAbsolute_join h p.toList))

/-- A word, read from a directory, names a source. -/
def Names (directory source word : String) : Prop := normalize (join directory word) = source

instance (directory source word : String) : Decidable (Names directory source word) :=
  inferInstanceAs (Decidable (_ = _))

/-- An absolute normal form names itself, wherever it is read. -/
theorem names_absolute (h : isAbsolute directory) (base p : String) :
    Names base (absolute directory p) (absolute directory p) := by
  rw [Names, join_of_isAbsolute (isAbsolute_absolute h p), normalize_absolute h]

/-- The absolute form is its own absolute form. -/
theorem absolute_absolute (h : isAbsolute directory) (p : String) :
    absolute directory (absolute directory p) = absolute directory p := by
  have hdefinition (q : String) : absolute directory q = normalize (join directory q) := by
    rw [normalize, join, String.toList_ofList]
    rfl
  rw [hdefinition (absolute directory p)]
  exact names_absolute h directory p

end Path

namespace CompileCommand

/-- The arguments of an entry that a command keeps of the words after the compiler. -/
def Entry.remaining (entry : Entry) (rest : List String) : List String :=
  (dropBuildFlags rest).filter (· ≠ entry.file)

/-- What a command keeps of the words of an entry is some of them, in their order. -/
theorem Entry.remaining_sublist (entry : Entry) (rest : List String) :
    (entry.remaining rest).Sublist rest :=
  List.filter_sublist.trans (dropBuildFlags_sublist rest)

/-- The command is the one of this entry of the file, whose words are these. -/
structure RecordedBy (host : Host) (location : String) (command : CompileCommand) (entry : Entry)
    (compiler : String) (rest : List String) : Prop where
  recorded : ∃ entries fields, CommandIndex.HoldsArray host location entries ∧
    .object fields ∈ entries ∧ entry.SaidBy fields
  words : entry.words = compiler :: rest
  directory : command.directory = entry.directory
  file : command.file = entry.file
  arguments : command.arguments = Path.join entry.directory compiler :: entry.remaining rest

end CompileCommand

namespace CommandIndex

open CompileCommand

variable {host : Host} {location : String} {commands : CommandIndex}

/-- A file that has an index holds an array, whose entries make this index. -/
theorem exists_holds_of_ofFile (loaded : ofFile host location = .ok commands) :
    ∃ entries, HoldsArray host location entries ∧ addEntries 0 [] entries = .ok commands := by
  unfold ofFile at loaded
  split at loaded
  · cases loaded
  · next content hread =>
    unfold ofBytes at loaded
    split at loaded
    · cases loaded
    · next text hdecoded =>
      split at loaded
      · cases loaded
      · cases loaded
      · cases loaded
      · next value hparsed =>
        cases value with
        | array entries => exact ⟨entries, ⟨content, text, hread, hdecoded, hparsed⟩, loaded⟩
        | _ => cases loaded

/-- What is found for a source stands in the index under some key. -/
theorem exists_get?_of_lookup {base p : String} {command : CompileCommand}
    (found : commands.lookup base p = some command) : ∃ key, commands.get? key = some command := by
  unfold lookup at found
  dsimp only at found
  split at found
  · next other hkey =>
    cases found
    exact ⟨_, hkey⟩
  · split at found
    · cases found
    · exact ⟨p, found⟩

/-- **What is found was recorded** by an entry of the file that was read. -/
theorem exists_recordedBy {base p : String} {command : CompileCommand}
    (loaded : ofFile host location = .ok commands)
    (found : commands.lookup base p = some command) :
    ∃ entry compiler rest, command.RecordedBy host location entry compiler rest := by
  obtain ⟨entries, hholds, hadded⟩ := exists_holds_of_ofFile loaded
  obtain ⟨key, hkey⟩ := exists_get?_of_lookup found
  obtain ⟨-, before, value, later, rfl, hdescribed, -⟩ := describes_of_addEntries hadded hkey
  obtain ⟨hsaid, hwords⟩ := hdescribed
  exact ⟨_, _, _, ⟨_, _, hholds, by simp, hsaid⟩, hwords, rfl, rfl, rfl⟩

end CommandIndex

namespace Invocation

open CompileCommand

/-- Neither what is looked up in a table nor what is put in its place is one of these words. -/
def LeavesAlone (rewrites : Rewrites) (words : List String) : Prop :=
  ∀ entry ∈ rewrites, entry.1 ∉ words ∧ entry.2 ∉ words

instance (rewrites : Rewrites) (words : List String) : Decidable (LeavesAlone rewrites words) :=
  inferInstanceAs (Decidable (∀ entry ∈ rewrites, _ ∧ _))

/-- A word that a table leaves alone comes from itself only. -/
theorem rewrite_eq_iff {rewrites : Rewrites} {words : List String} {word : String}
    (alone : LeavesAlone rewrites words) (mem : word ∈ words) (argument : String) :
    rewrite rewrites argument = word ↔ argument = word := by
  unfold rewrite
  cases hfound : rewrites.get? argument with
  | none => rfl
  | some replacement =>
    obtain ⟨htoken, hreplacement⟩ := alone _ (Table.mem_of_get? hfound)
    refine iff_of_false ?_ ?_
    · rintro rfl
      exact hreplacement mem
    · rintro rfl
      exact htoken mem

/-- Without rewrites an argument stays as it is. -/
@[simp] theorem rewrite_nil (argument : String) : rewrite [] argument = argument := rfl

/-- A request for words is an invocation of the first one, with the source and the flags last. -/
theorem build?_of_words {command : CompileCommand} {override : Option (List String)}
    {first source : String} {rest : List String} {rewrites : Rewrites}
    (words : effectiveArguments command override = first :: rest) :
    build? command source override rewrites =
      some ⟨first, (rest ++ source :: assemblyFlags).map (rewrite rewrites)⟩ := by
  rw [build?, words]

section Flags

variable {rewrites : Rewrites} {source : String}
  (alone : LeavesAlone rewrites (source :: "-c" :: assemblyFlags))
include alone

/-- The source and the flags are passed as they are. -/
theorem map_rewrite_append (rest : List String) :
    (rest ++ source :: assemblyFlags).map (rewrite rewrites) =
      rest.map (rewrite rewrites) ++ source :: assemblyFlags := by
  have hsame : ∀ word ∈ source :: assemblyFlags, rewrite rewrites word = word := fun word hword =>
    (rewrite_eq_iff alone (List.mem_cons.2 ((List.mem_cons.1 hword).imp_right
      (List.mem_cons_of_mem _))) word).2 rfl
  rw [List.map_append, List.map_congr_left hsame, List.map_id']

/-- A flag of the build's own object file is passed as often as a run asks for it. -/
theorem count_of_isBuildFlag {entry : Entry} {rest : List String} {flag : String}
    (absolute : Path.isAbsolute source) (build : IsBuildFlag flag) :
    ((entry.remaining rest).map (rewrite rewrites) ++ source :: assemblyFlags).count flag =
      assemblyFlags.count flag := by
  have hmem : flag ∈ source :: "-c" :: assemblyFlags := by
    rcases build with rfl | rfl | rfl <;> simp [assemblyFlags]
  have hnone : flag ∉ (entry.remaining rest).map (rewrite rewrites) := by
    -- a word that is this flag after rewriting was it before, and would have been dropped
    intro hflag
    obtain ⟨argument, hargument, heq⟩ := List.mem_map.1 hflag
    obtain rfl := (rewrite_eq_iff alone hmem argument).1 heq
    exact not_isBuildFlag_of_mem_dropBuildFlags (List.mem_filter.1 hargument).1 build
  have hsource : source ≠ flag := by
    rintro rfl
    rcases build with rfl | rfl | rfl <;> cases absolute
  rw [List.count_append, List.count_eq_zero_of_not_mem hnone, List.count_cons_of_ne hsource,
    Nat.zero_add]

end Flags

/-- The source that is passed at last is the only word that names it exactly if all others of the
entry are spelled as its file and no flag names it. -/
theorem filter_names_eq_singleton_iff {entry : Entry} {path : String}
    (self : Path.Names entry.directory path path) (rest : List String) :
    (entry.remaining rest ++ path :: assemblyFlags).filter
        (Path.Names entry.directory path ·) = [path] ↔
      (∀ word ∈ dropBuildFlags rest, Path.Names entry.directory path word →
        word = entry.file) ∧
      ∀ flag ∈ assemblyFlags, ¬Path.Names entry.directory path flag := by
  -- of the recorded words none may name the source but the file itself, which is dropped
  have hwords : (entry.remaining rest).filter (Path.Names entry.directory path ·) = [] ↔
      ∀ word ∈ dropBuildFlags rest, Path.Names entry.directory path word → word = entry.file := by
    rw [List.filter_eq_nil_iff]
    refine ⟨fun hnone word hword hnames => ?_, fun hspelled word hword hnames => ?_⟩
    · by_contra hfile
      exact hnone word (List.mem_filter.2 ⟨hword, decide_eq_true hfile⟩) (decide_eq_true hnames)
    · obtain ⟨hword, hfile⟩ := List.mem_filter.1 hword
      exact of_decide_eq_true hfile (hspelled word hword (of_decide_eq_true hnames))
  have hflags : assemblyFlags.filter (Path.Names entry.directory path ·) = [] ↔
      ∀ flag ∈ assemblyFlags, ¬Path.Names entry.directory path flag := by
    rw [List.filter_eq_nil_iff]
    exact forall₂_congr fun flag _ => not_congr decide_eq_true_iff
  have hself : (path :: assemblyFlags).filter (Path.Names entry.directory path ·) =
      path :: assemblyFlags.filter (Path.Names entry.directory path ·) :=
    List.filter_cons_of_pos (decide_eq_true self)
  rw [List.filter_append, hself, ← hwords, ← hflags, List.append_eq_singleton_iff]
  constructor
  · rintro (⟨hnil, hcons⟩ | ⟨-, hcons⟩)
    · exact ⟨hnil, (List.cons.inj hcons).2⟩
    · cases hcons
  · rintro ⟨hnil, hrest⟩
    exact .inl ⟨hnil, by rw [hrest]⟩

end Invocation

namespace Scenario

open CompileCommand Engine Invocation

section Arguments

variable {stage : Stage} {depth : Nat} {id : DatabaseId} {database : Database} {origin : Host}
  {location source : String} {command : CompileCommand}

/-- What scripts do at a moment only adds to what was launched. -/
theorem extends_interference (depth : Nat) (executable : String) (moment : Moment)
    (stage : Stage) : Extends stage (interference depth executable moment stage) :=
  (respects_interference_from (Extends.allows 0) depth executable moment stage (Nat.zero_le _)).2

/-- What a run without an override launches for a recorded command. -/
theorem launching_of_recordedBy {entry : Entry} {compiler : String} {rest : List String}
    (recorded : command.RecordedBy origin location entry compiler rest)
    (found : stage.lookup id source = some command) :
    stage.Launching ⟨Path.join entry.directory compiler,
        (entry.remaining rest ++ stage.host.absolute source :: assemblyFlags).map
          (rewrite stage.rewrites)⟩
      (stage.result (run (interference depth) id source none))
      (stage.after (run (interference depth) id source none)) :=
  launching_run (extends_interference depth) found (build?_of_words recorded.arguments)

variable (rooted : Path.isAbsolute stage.host.directory)
  (there : stage.database? id = some database)
  (loaded : CommandIndex.ofFile origin location = .ok database.commands)
  (found : stage.lookup id source = some command)
include there loaded found

/-- What is found for a source in an opened database is recorded by an entry of its file. -/
theorem exists_recordedBy_of_lookup :
    ∃ entry compiler rest, command.RecordedBy origin location entry compiler rest := by
  rw [lookup_of_found there] at found
  exact CommandIndex.exists_recordedBy loaded found

include rooted

/-- **What a run asks its compiler for.** The commands of the database were read from a file, and
the table of rewrites leaves the flags and the source alone. Then a run without an override launches
the compiler of an entry of the file, joined to its directory. What remains of the words after it
comes next, each replaced at most once, and last come the source and the flags for assembly on the
standard output. There is no other `-g` and no other `-o`, and there is no `-c`. -/
theorem flags_of_run
    (alone : LeavesAlone stage.rewrites [stage.host.absolute source, "-c", "-g", "-S", "-o", "-"]) :
    ∃ entry compiler rest, command.RecordedBy origin location entry compiler rest ∧
      (entry.remaining rest).Sublist rest ∧
      let between := (entry.remaining rest).map fun word => (stage.rewrites.get? word).getD word
      let arguments := between ++ [stage.host.absolute source, "-g", "-S", "-o", "-"]
      "-c" ∉ arguments ∧ arguments.count "-g" = 1 ∧ arguments.count "-o" = 1 ∧
        stage.Launching ⟨Path.join entry.directory compiler, arguments⟩
          (stage.result (run (interference depth) id source none))
          (stage.after (run (interference depth) id source none)) := by
  obtain ⟨entry, compiler, rest, hrecorded⟩ := exists_recordedBy_of_lookup there loaded found
  have habsolute : Path.isAbsolute (stage.host.absolute source) :=
    Path.isAbsolute_absolute rooted source
  have hcount : ∀ flag, IsBuildFlag flag →
      ((entry.remaining rest).map (rewrite stage.rewrites) ++
        stage.host.absolute source :: assemblyFlags).count flag = assemblyFlags.count flag :=
    fun flag => count_of_isBuildFlag alone habsolute
  have hlaunching : stage.Launching _ (stage.result (run (interference depth) id source none)) _ :=
    launching_of_recordedBy hrecorded found
  rw [map_rewrite_append alone] at hlaunching
  refine ⟨entry, compiler, rest, hrecorded, entry.remaining_sublist rest, ?_, ?_, ?_, hlaunching⟩
  · exact List.count_eq_zero.1 (hcount "-c" (.inr (.inl rfl)))
  · exact hcount "-g" (.inr (.inr rfl))
  · exact hcount "-o" (.inl rfl)

/-- **How often a run names its source.** The commands of the database were read from a file, and
nothing is rewritten. A run without an override names the source on its own. Of the words of the
entry it leaves out those that are spelled as its file, and passes on all others that name the
source, read from the directory of the entry. So the source is named once exactly if no other
spelling of it is among the words and none of the flags names it. The file itself names the source
wherever it is the same path seen from both directories. -/
theorem sources_of_run (unwritten : stage.rewrites = []) :
    ∃ entry compiler rest, command.RecordedBy origin location entry compiler rest ∧
      let path := stage.host.absolute source
      let arguments := entry.remaining rest ++ path :: assemblyFlags
      stage.Launching ⟨Path.join entry.directory compiler, arguments⟩
          (stage.result (run (interference depth) id source none))
          (stage.after (run (interference depth) id source none)) ∧
        Path.Names entry.directory path path ∧
        (arguments.filter (Path.Names entry.directory path ·) = [path] ↔
          (∀ word ∈ dropBuildFlags rest, Path.Names entry.directory path word →
            word = entry.file) ∧
          ∀ flag ∈ assemblyFlags, ¬Path.Names entry.directory path flag) ∧
        (Path.Rooted database.location → Path.Rooted path →
          Path.normalize (Path.join entry.directory entry.file) =
            Path.normalize (Path.join database.buildDirectory entry.file) →
          Path.Names entry.directory path entry.file) := by
  obtain ⟨entry, compiler, rest, hrecorded⟩ := exists_recordedBy_of_lookup there loaded found
  refine ⟨entry, compiler, rest, hrecorded, ?_⟩
  have hself : Path.Names entry.directory (stage.host.absolute source)
      (stage.host.absolute source) := Path.names_absolute rooted entry.directory source
  have hlaunching : stage.Launching _ (stage.result (run (interference depth) id source none)) _ :=
    launching_of_recordedBy hrecorded found
  -- with no rewrites the words are passed on as they stand
  rw [unwritten, List.map_congr_left fun word _ => rewrite_nil word, List.map_id'] at hlaunching
  intro path arguments
  refine ⟨hlaunching, hself, ?_, ?_⟩
  · exact filter_names_eq_singleton_iff hself rest
  · intro placed single agrees
    rw [lookup_of_found there] at found
    -- the key at which the command was found is the file of its entry
    obtain ⟨key, hgives, hkey⟩ :=
      CommandIndex.exists_key_of_lookup placed.directoryOf single found
    obtain ⟨entries, -, hadded⟩ := CommandIndex.exists_holds_of_ofFile loaded
    have hfile : entry.file = key :=
      hrecorded.file.symm.trans (CommandIndex.describes_of_addEntries hadded hkey).1
    rw [Path.Names, agrees, hfile]
    exact (congrArg Path.normalize hgives).trans single.normalize_eq

end Arguments

/-- The sample with the file that names a source in two spellings, which has been opened. -/
def spelledStage : Stage :=
  { sampleStage with
    host := { CommandIndex.repeatedHost with
      programs := [("/h", { output := some [] }), ("c++filt", {})] }
    databases :=
      [{ location := "/c", commands := CommandIndex.repeatedIndex, attached := true }] }

/-- The same with two rewrites, one of which replaces what the other one puts in. -/
def rewrittenStage : Stage := { spelledStage with rewrites := [("./a", "-O1"), ("-O1", "-O2")] }

/-- What is found for the source. -/
def spelledCommand : CompileCommand := ⟨"/", "a", ["/h", "./a"]⟩

/-- The one word that remains is replaced once. -/
theorem flags_of_run_sample :
    LeavesAlone rewrittenStage.rewrites
        [rewrittenStage.host.absolute "a", "-c", "-g", "-S", "-o", "-"] ∧
      rewrittenStage.Launching ⟨"/h", ["-O1", "/a", "-g", "-S", "-o", "-"]⟩
        (rewrittenStage.result (run (interference 0) 0 "a" none))
        (rewrittenStage.after (run (interference 0) 0 "a" none)) := by
  have hsource : rewrittenStage.host.absolute "a" = "/a" := by decide +kernel
  have halone : LeavesAlone rewrittenStage.rewrites
      [rewrittenStage.host.absolute "a", "-c", "-g", "-S", "-o", "-"] := by
    rw [hsource]
    decide
  have hfound : rewrittenStage.lookup 0 "a" = some spelledCommand := by decide +kernel
  obtain ⟨entry, compiler, rest, hrecorded, -, -, -, -, hlaunching⟩ :=
    flags_of_run (by decide) rfl CommandIndex.ofFile_repeatedHost hfound halone
  obtain ⟨hcompiler, hremaining⟩ := List.cons.inj hrecorded.arguments
  rw [← hcompiler, ← hremaining, hsource] at hlaunching
  exact ⟨halone, hlaunching⟩

/-- The other spelling stays among the arguments of the sample. -/
theorem sources_of_run_sample :
    ∃ entry compiler rest,
      spelledCommand.RecordedBy CommandIndex.repeatedHost "/c" entry compiler rest ∧
      spelledStage.Launching ⟨"/h", ["./a", "/a", "-g", "-S", "-o", "-"]⟩
        (spelledStage.result (run (interference 0) 0 "a" none))
        (spelledStage.after (run (interference 0) 0 "a" none)) ∧
      ¬∀ word ∈ dropBuildFlags rest, Path.Names entry.directory "/a" word →
        word = entry.file := by
  have hsource : spelledStage.host.absolute "a" = "/a" := by decide +kernel
  have hfound : spelledStage.lookup 0 "a" = some spelledCommand := by decide +kernel
  obtain ⟨entry, compiler, rest, hrecorded, hlaunching, -, hiff, -⟩ :=
    sources_of_run (by decide) rfl CommandIndex.ofFile_repeatedHost hfound rfl
  obtain ⟨hcompiler, hremaining⟩ := List.cons.inj hrecorded.arguments
  have hdirectory : "/" = entry.directory := hrecorded.directory
  rw [← hcompiler, ← hremaining, hsource] at hlaunching
  rw [← hremaining, ← hdirectory, hsource] at hiff
  refine ⟨entry, compiler, rest, hrecorded, hlaunching, fun hspelled => ?_⟩
  rw [← hdirectory] at hspelled
  have honce := hiff.2 ⟨hspelled, by decide +kernel⟩
  revert honce
  decide +kernel

/-- **Not every source is given once.** The commands of the database are those of the file. The
entries of the file are in the build directory, which is absolute, and name the source as their
file; nothing is rewritten. The run passes both spellings of the source to the compiler that it
starts. -/
theorem not_all_sources_are_given_once :
    CommandIndex.HoldsArray spelledStage.host "/c" CommandIndex.repeatedEntries ∧
      (∀ entry ∈ CommandIndex.repeatedEntries,
        ((entry.fields?.bind (·.get? "directory")).bind Json.text?) = some "/" ∧
          fileOf? entry = some "a") ∧
      CommandIndex.ofFile spelledStage.host "/c" = .ok CommandIndex.repeatedIndex ∧
      spelledStage.database? 0 =
        some { location := "/c", commands := CommandIndex.repeatedIndex, attached := true } ∧
      (spelledStage.database? 0).map Database.buildDirectory = some "/" ∧
      spelledStage.lookup 0 "a" = some spelledCommand ∧ spelledStage.rewrites = [] ∧
      (spelledStage.after (run (interference 0) 0 "a" none)).launched =
        [["/h", "./a", "/a", "-g", "-S", "-o", "-"], ["c++filt"]] ∧
      Path.Names "/" "/a" "./a" := by
  refine ⟨CommandIndex.holds_repeatedHost, ?_, CommandIndex.ofFile_repeatedHost, rfl,
    by decide +kernel, by decide +kernel, rfl, by decide +kernel, by decide +kernel⟩
  simp only [CommandIndex.repeatedEntries, List.forall_mem_cons]
  exact ⟨by decide, by decide, List.forall_mem_nil _⟩

end Scenario

end AsmScope
