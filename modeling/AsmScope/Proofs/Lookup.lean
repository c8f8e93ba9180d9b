import AsmScope.Proofs.Directories
import AsmScope.Proofs.Following
/-! # Looking a source up

The commands of a database that entered the registry were read from a file, and its location is in
absolute normal form (`Opened`), at every moment of every session from then on. In such a database a
source is found under the keys that give its path when they are joined to the build directory, and
under no others: the relative one, which comes first, and the absolute one
(`CommandIndex.lookup_eq_none_iff`, `CommandIndex.exists_key_of_lookup`). A key that leads to the
source by a detour is none of them. -/

namespace AsmScope

namespace Path

/-- In absolute normal form, with one slash at the beginning. -/
def Rooted (p : String) : Prop := ∃ names, Chars.Normal 1 names p.toList

/-- A path in normal form that does not begin with two slashes has one at its root. -/
theorem Normal.rooted {p : String} (h : Normal p) (single : ¬['/', '/'] <+: p.toList) :
    Rooted p := by
  obtain ⟨slashes, names, hnormal⟩ := h
  obtain rfl := hnormal.slashes_eq single
  exact ⟨names, hnormal⟩

namespace Rooted

variable {base p : String}

/-- A path in absolute normal form is absolute. -/
theorem isAbsolute (h : Rooted p) : Path.isAbsolute p := by
  obtain ⟨names, hnormal⟩ := h
  exact hnormal.isAbsolute

/-- A path in absolute normal form is its own normal form. -/
theorem normalize_eq (h : Rooted p) : normalize p = p := by
  obtain ⟨names, hnormal⟩ := h
  rw [normalize, hnormal.normalize_eq, String.ofList_toList]

/-- The directory of a path in absolute normal form is one as well. -/
theorem directoryOf (h : Rooted p) : Rooted (directoryOf p) := by
  obtain ⟨names, hnormal⟩ := h
  refine ⟨names.dropLast, ?_⟩
  rw [Path.directoryOf, String.toList_ofList]
  exact hnormal.directory

end Rooted

end Path

namespace CommandIndex

/-! ### Keys of a source -/

section Keys

variable {base p : List Char}

/-- Where the relative key is not the path itself, it is what follows the directory. -/
theorem relativeKey_of_eq {key : List Char}
    (below : Path.Chars.withoutFinalSlashes base ++ '/' :: key = p) : relativeKey base p = key := by
  have hprefix : (Path.Chars.withoutFinalSlashes base ++ ['/']).isPrefixOf? p = some key := by
    rw [List.isPrefixOf?_eq_some_iff_append_eq, ← below]
    simp
  exact congrArg (Option.getD · p) hprefix

/-- The relative key follows the directory, or is the path itself. -/
theorem relativeKey_cases (base p : List Char) :
    Path.Chars.withoutFinalSlashes base ++ '/' :: relativeKey base p = p ∨
      relativeKey base p = p := by
  cases hprefix : (Path.Chars.withoutFinalSlashes base ++ ['/']).isPrefixOf? p with
  | none => exact .inr (congrArg (Option.getD · p) hprefix)
  | some key =>
    have hkey : relativeKey base p = key := congrArg (Option.getD · p) hprefix
    have happend := List.isPrefixOf?_eq_some_iff_append_eq.1 hprefix
    rw [hkey]
    exact .inl (by rw [← happend]; simp)

end Keys

section Lookup

variable {commands : CommandIndex} {base p : String} (hbase : Path.Rooted base)
  (hp : Path.Rooted p)
include hbase hp

/-- **The keys of a source.** A key gives the path of a source exactly if it is the relative or the
absolute one. -/
theorem join_eq_iff (key : String) :
    Path.join base key = p ↔
      String.ofList (relativeKey base.toList p.toList) = key ∨ key = p := by
  obtain ⟨names, hbase⟩ := hbase
  obtain ⟨below, hp⟩ := hp
  -- all three equations are about characters
  have hchars : Path.join base key = p ↔
      Path.Chars.join base.toList key.toList = p.toList := by
    rw [Path.join, ← String.toList_inj, String.toList_ofList]
  have hkey : key = p ↔ key.toList = p.toList := String.toList_inj.symm
  have hrelative : String.ofList (relativeKey base.toList p.toList) = key ↔
      relativeKey base.toList p.toList = key.toList := by
    rw [← String.toList_inj, String.toList_ofList]
  rw [hchars, Path.Chars.join_eq_iff hbase hp, hkey, hrelative]
  constructor
  · exact Or.imp_left relativeKey_of_eq
  · rintro (heq | heq)
    · rcases relativeKey_cases base.toList p.toList with hbelow | hself
      · exact .inl (heq ▸ hbelow)
      · exact .inr (heq.symm.trans hself)
    · exact .inr heq

/-- **A source is not found** exactly if no key gives its path. -/
theorem lookup_eq_none_iff :
    commands.lookup base p = none ↔ ∀ key, Path.join base key = p → commands.get? key = none := by
  simp only [join_eq_iff hbase hp, lookup]
  generalize String.ofList (relativeKey base.toList p.toList) = relative
  constructor
  · intro hnone
    cases hrelative : commands.get? relative with
    | some command => simp [hrelative] at hnone
    | none =>
      rintro key (rfl | rfl)
      · exact hrelative
      · by_cases hsame : relative = key
        · exact hsame ▸ hrelative
        · simpa [hrelative, hsame] using hnone
  · intro hkeys
    rw [hkeys relative (.inl rfl), hkeys p (.inr rfl)]
    simp

/-- What is found stands under a key that gives the path of the source. -/
theorem exists_key_of_lookup {command : CompileCommand}
    (found : commands.lookup base p = some command) :
    ∃ key, Path.join base key = p ∧ commands.get? key = some command := by
  simp only [join_eq_iff hbase hp]
  simp only [lookup] at found
  generalize String.ofList (relativeKey base.toList p.toList) = relative at found ⊢
  cases hrelative : commands.get? relative with
  | some other =>
    rw [hrelative] at found
    exact ⟨relative, .inl rfl, hrelative.trans found⟩
  | none =>
    rw [hrelative] at found
    dsimp only at found
    split at found
    · cases found
    · exact ⟨p, .inr rfl, found⟩

/-- The relative key comes first. -/
theorem lookup_of_relative {key : String} {command : CompileCommand}
    (relative : Path.isAbsolute key = false) (gives : Path.join base key = p)
    (found : commands.get? key = some command) : commands.lookup base p = some command := by
  rcases (join_eq_iff hbase hp key).1 gives with rfl | rfl
  · rw [lookup, found]
  · rw [hp.isAbsolute] at relative
    cases relative

end Lookup

/-! ### What is read from a file -/

/-- Every command stands under the file that it compiles. -/
def ByFile (commands : CommandIndex) : Prop :=
  ∀ key command, commands.get? key = some command → command.file = key

/-- In the empty index every command stands under its file. -/
theorem byFile_nil : ByFile [] := by
  intro key command hkey
  cases hkey

/-- Adding entries puts every command under its file. -/
theorem byFile_addEntries {entries : List Json} {index : Nat} {commands loaded : CommandIndex}
    (h : commands.ByFile) (added : addEntries index commands entries = .ok loaded) :
    loaded.ByFile := by
  -- each entry is put at its own file, and the earlier ones stay or are replaced by it
  induction entries generalizing index commands with
  | nil =>
    cases added
    exact h
  | cons entry entries ih =>
    rw [addEntries] at added
    split at added
    · cases added
    · next command _ =>
      refine ih ?_ added
      intro key other hkey
      rw [Table.get?_put] at hkey
      split at hkey
      · next hfile =>
        obtain rfl : command = other := Option.some.inj hkey
        exact hfile
      · exact h key other hkey

/-- Every command that is loaded from bytes stands under its file. -/
theorem byFile_of_ofBytes {content : Bytes} {commands : CommandIndex}
    (loaded : ofBytes content = .ok commands) : commands.ByFile := by
  unfold ofBytes at loaded
  split at loaded
  · cases loaded
  · split at loaded
    · cases loaded
    · cases loaded
    · cases loaded
    · unfold ofJson at loaded
      split at loaded
      · exact byFile_addEntries byFile_nil loaded
      · cases loaded

/-- What is loaded from a file is loaded from the bytes in it. -/
theorem exists_content_of_ofFile {host : Host} {location : String} {commands : CommandIndex}
    (loaded : ofFile host location = .ok commands) :
    ∃ content, ofBytes content = .ok commands := by
  unfold ofFile at loaded
  split at loaded
  · cases loaded
  · next content _ => exact ⟨content, loaded⟩

end CommandIndex

namespace Engine

variable {α : Type}

/-! ### Databases that entered the registry -/

/-- A database is there whose location is in absolute normal form and whose commands were read from
a file. -/
def Opened (id : DatabaseId) (engine : Engine α) : Prop :=
  ∃ database content, engine.database? id = some database ∧ Path.Normal database.location ∧
    CommandIndex.ofBytes content = .ok database.commands

/-- A database that was opened from a file stays one, whatever happens next in a session. -/
theorem Opened.move {scene next : Scene α} {id : DatabaseId} (move : Move scene next)
    (h : Opened id scene.engine) : Opened id next.engine := by
  obtain ⟨database, content, hdatabase, hnormal, hcontent⟩ := h
  have hindex : HasIndex id database.location database.commands scene.engine :=
    ⟨database, hdatabase, rfl, rfl⟩
  rcases hindex.move move with ⟨found, hfound, hlocation, hcommands⟩ |
    ⟨fresh, hfresh, found, hfound, hlocation, hcommands⟩
  · exact ⟨found, content, hfound, hlocation ▸ hnormal, hcommands ▸ hcontent⟩
  · obtain ⟨content, hcontent⟩ := CommandIndex.exists_content_of_ofFile hfresh
    exact ⟨found, content, hfound, hlocation ▸ hnormal, hcommands ▸ hcontent⟩

/-- A database that was opened from a file is one at every later moment of a session. -/
theorem Opened.moves {scene later : Scene α} {id : DatabaseId} (moves : Moves scene later)
    (h : Opened id scene.engine) : Opened id later.engine :=
  moves.invariant (fun _ _ move h => Opened.move move h) h

/-- Who is registered after a deed was so before, or has just been opened. -/
theorem Registered.of_deed {who : DatabaseId → Prop} {before after : Engine α} {id : DatabaseId}
    (deed : Deed who before after) (rooted : Path.isAbsolute before.host.directory)
    (h : after.Registered id) : before.Registered id ∨ Opened id after := by
  have hstill : after.registered = before.registered → before.Registered id :=
    fun hregistered => (registered_congr hregistered id).1 h
  cases deed with
  | aside same => exact .inl (hstill same.registered)
  | added | reloaded | noted => exact .inl h
  | cancelled => exact .inl (hstill (cancelCompilation_books before _).2.1)
  | disposed => exact .inl (hstill (registered_disposeDatabase before _))
  | entered location commands new loaded =>
    obtain ⟨key, hkey⟩ := h
    simp only [enter, Table.get?_put] at hkey
    split at hkey
    · -- this is the new database, under its absolute location
      cases hkey
      obtain ⟨content, hcontent⟩ := CommandIndex.exists_content_of_ofFile loaded
      exact .inr ⟨_, content, List.getElem?_concat_length, Path.normal_absolute rooted location,
        hcontent⟩
    · exact .inl ⟨key, hkey⟩
  | retired =>
    obtain ⟨key, hkey⟩ := h
    exact .inl ⟨key, registered_of_retire hkey⟩
  | closed =>
    obtain ⟨key, hkey⟩ := h
    rw [closeAll, registered_foldl_dispose] at hkey
    cases hkey

/-- **Every registered database was opened from a file.** -/
theorem opened_of_registered {watching : Bool} {start : Engine α} {scene : Scene α}
    (fresh : Fresh watching start) (rooted : Path.isAbsolute start.host.directory)
    (moves : Moves ⟨start, []⟩ scene) {id : DatabaseId} (h : scene.engine.Registered id) :
    Opened id scene.engine := by
  -- induction on the moves from their end: the last one registers it, or it was registered before
  induction moves with
  | refl =>
    obtain ⟨key, hkey⟩ := h
    rw [fresh.registered] at hkey
    cases hkey
  | @tail before after earlier move ih =>
    have hbefore : before.engine.Registered id ∨ Opened id after.engine := by
      cases move with
      | deed deed =>
        have htracked := Tracked.moves earlier (.of_fresh fresh rooted)
        exact h.of_deed deed htracked.rooted
      | elsewhere same => exact .inl ((registered_congr same.registered id).1 h)
      | begun => exact .inl ((registered_congr (beginCompilation_books _ _).1 id).1 h)
      | ended => exact .inl h
    rcases hbefore with hregistered | hopened
    · exact (ih hregistered).move move
    · exact hopened

/-- A lookup in a database that is there. -/
theorem lookup_of_found {engine : Engine α} {id : DatabaseId} {database : Database}
    (found : engine.database? id = some database) (path : String) :
    engine.lookup id path =
      database.commands.lookup database.buildDirectory (engine.host.absolute path) := by
  rw [lookup, found, Option.bind_some]

/-- The working directory is absolute at every moment of a session. -/
theorem rooted_of_moves {watching : Bool} {start : Engine α} {scene : Scene α}
    (fresh : Fresh watching start) (rooted : Path.isAbsolute start.host.directory)
    (moves : Moves ⟨start, []⟩ scene) : Path.isAbsolute scene.engine.host.directory :=
  (Tracked.moves moves (.of_fresh fresh rooted)).rooted

end Engine

namespace Scenario

open Engine

section Lookup

variable {host : Host} {workspace : String} {sink : Sink} {watching : Bool} {front : Ledger}
  {start : Stage} (created : (create host workspace sink watching front).1 = .ok start)
  (scripted : Scripted EngineStep.Regular start) (rooted : Path.isAbsolute start.host.directory)
include created scripted rooted

/-- **What is found is a command for the source.** In a session on a fresh engine, a database that
was registered has a location in absolute normal form from then on. If neither this nor the source
begins with two slashes, a command that is found for the source is one whose file, read from the
build directory, is the source; and if the relative path from the build directory to the source is a
key, it is the command under this key, whatever stands under the absolute path. -/
theorem lookup_sound : CoversSessions start ∧ ∀ scene, Moves ⟨start, []⟩ scene →
    ∀ id, scene.engine.Registered id → ∀ later, Moves scene later →
      ∃ database, later.engine.database? id = some database ∧ Path.Normal database.location ∧
        (¬['/', '/'] <+: database.location.toList → ∀ path,
          ¬['/', '/'] <+: (later.engine.host.absolute path).toList →
          (∀ command, later.engine.lookup id path = some command →
            Path.normalize (Path.join database.buildDirectory command.file) =
              later.engine.host.absolute path) ∧
          ∀ key command, Path.isAbsolute key = false →
            Path.join database.buildDirectory key = later.engine.host.absolute path →
            database.commands.get? key = some command →
            later.engine.lookup id path = some command) := by
  refine ⟨coversSessions scripted, fun scene moves id registered later between => ?_⟩
  have fresh := fresh_of_create created
  obtain ⟨database, content, hdatabase, hnormal, hcontent⟩ :=
    (opened_of_registered fresh rooted moves registered).moves between
  have hrooted := rooted_of_moves fresh rooted (moves.trans between)
  refine ⟨database, hdatabase, hnormal, fun single path single' => ?_⟩
  have hbase : Path.Rooted database.buildDirectory := (hnormal.rooted single).directoryOf
  have hpath : Path.Rooted (later.engine.host.absolute path) :=
    (Path.normal_absolute hrooted path).rooted single'
  rw [lookup_of_found hdatabase]
  refine ⟨fun command hfound => ?_, fun key command relative gives hkey => ?_⟩
  · obtain ⟨key, hgives, hkey⟩ := CommandIndex.exists_key_of_lookup hbase hpath hfound
    have hfile := CommandIndex.byFile_of_ofBytes hcontent key command hkey
    rw [hfile, hgives, hpath.normalize_eq]
  · exact CommandIndex.lookup_of_relative hbase hpath relative gives hkey

/-- **When a source is not found.** In a session on a fresh engine, a database that was registered
has a location in absolute normal form from then on. If neither this nor the source begins with two
slashes, the source is not found exactly if every key that, read from the build directory, names the
source does so by a detour: the path that it gives when it is joined to the build directory is not
in normal form. -/
theorem lookup_eq_none_iff_detours : CoversSessions start ∧ ∀ scene, Moves ⟨start, []⟩ scene →
    ∀ id, scene.engine.Registered id → ∀ later, Moves scene later →
      ∃ database, later.engine.database? id = some database ∧ Path.Normal database.location ∧
        (¬['/', '/'] <+: database.location.toList → ∀ path,
          ¬['/', '/'] <+: (later.engine.host.absolute path).toList →
          (later.engine.lookup id path = none ↔ ∀ key ∈ database.commands.keys,
            Path.normalize (Path.join database.buildDirectory key) =
                later.engine.host.absolute path →
              Path.join database.buildDirectory key ≠
                Path.normalize (Path.join database.buildDirectory key))) := by
  refine ⟨coversSessions scripted, fun scene moves id registered later between => ?_⟩
  have fresh := fresh_of_create created
  obtain ⟨database, content, hdatabase, hnormal, -⟩ :=
    (opened_of_registered fresh rooted moves registered).moves between
  have hrooted := rooted_of_moves fresh rooted (moves.trans between)
  refine ⟨database, hdatabase, hnormal, fun single path single' => ?_⟩
  have hbase : Path.Rooted database.buildDirectory := (hnormal.rooted single).directoryOf
  have hpath : Path.Rooted (later.engine.host.absolute path) :=
    (Path.normal_absolute hrooted path).rooted single'
  rw [lookup_of_found hdatabase, CommandIndex.lookup_eq_none_iff hbase hpath]
  constructor
  · intro hnone key hkey hnames hdirect
    -- a key without a detour gives the source
    have hsome := (Table.mem_keys_iff _ key).1 hkey
    rw [hnone key (hdirect.trans hnames)] at hsome
    cases hsome
  · intro hdetours key hgives
    rw [← Option.not_isSome_iff_eq_none, ← Table.mem_keys_iff]
    intro hkey
    have hnormalized : Path.normalize (Path.join database.buildDirectory key) =
        later.engine.host.absolute path := by
      rw [hgives, hpath.normalize_eq]
    exact hdetours key hkey hnormalized (hgives.trans hnormalized.symm)

end Lookup

/-- One source is recorded under both of its keys, and another one by a detour. -/
def recordedFile : File :=
  { content := Utf8.encode <|
      "[\x7b\"directory\":\"/\",\"command\":\"g\",\"file\":\"/a\"\x7d," ++
        "\x7b\"directory\":\"/\",\"command\":\"h\",\"file\":\"a\"\x7d," ++
        "\x7b\"directory\":\"/\",\"command\":\"g\",\"file\":\"./b\"\x7d]" }

/-- The commands that the file holds. -/
def recordedIndex : CommandIndex :=
  [("/a", ⟨"/", "/a", ["/g"]⟩), ("a", ⟨"/", "a", ["/h"]⟩), ("./b", ⟨"/", "./b", ["/g"]⟩)]

/-- A fresh engine on a machine with this file. -/
def recordedStage : Stage :=
  match (create { tree := ⟨[([['c']], .file recordedFile)], []⟩ } "/" (.buffer {}) false
    ({} : Ledger)).1 with
  | .ok stage => stage
  | .error _ => sampleStage

/-- The sample engine is made on its machine. -/
theorem create_recordedStage :
    (create { tree := ⟨[([['c']], .file recordedFile)], []⟩ } "/" (.buffer {}) false
      ({} : Ledger)).1 = .ok recordedStage := rfl

/-- The database of the file. -/
def recordedDatabase : Database :=
  { location := "/c", commands := recordedIndex, attached := true }

/-- The sample was built in the root directory. -/
theorem buildDirectory_recordedDatabase : recordedDatabase.buildDirectory = "/" := by
  decide +kernel

/-- The file is opened. -/
def recordedScene : Scene Ledger := ⟨afterSteps [.openDatabase "/c"] recordedStage, []⟩

/-- The scene of the sample, where its file was opened, is reached in a session. -/
theorem moves_recordedScene : Moves ⟨recordedStage, []⟩ recordedScene := by
  have hscripted : Scripted EngineStep.Regular recordedStage := nofun
  exact ((coversSessions hscripted).steps [.openDatabase "/c"] (by decide)).2

/-- What the engine holds then. -/
theorem recordedScene_engine :
    recordedScene.engine.registered = [("/c", 0)] ∧
      recordedScene.engine.databases = [recordedDatabase] ∧
      recordedScene.engine.host.directory = "/" := by
  decide +kernel

/-- The database of the sample is in the registry. -/
theorem registered_recordedScene : recordedScene.engine.Registered 0 :=
  ⟨"/c", by rw [recordedScene_engine.1]; rfl⟩

/-- The database of the sample has the commands that its file holds. -/
theorem database?_recordedScene :
    recordedScene.engine.database? 0 = some recordedDatabase := by
  rw [database?, recordedScene_engine.2.1]
  rfl

/-- Paths start from the root directory there. -/
theorem absolute_recordedScene (path : String) :
    recordedScene.engine.host.absolute path = Path.absolute "/" path := by
  rw [Host.absolute, recordedScene_engine.2.2]

/-- The source that is recorded twice is found under its relative key. -/
theorem lookup_sound_sample :
    recordedIndex.get? "/a" = some ⟨"/", "/a", ["/g"]⟩ ∧
      recordedScene.engine.lookup 0 "x/../a" = some ⟨"/", "a", ["/h"]⟩ ∧
      Path.normalize (Path.join "/" "a") = Path.absolute "/" "x/../a" := by
  obtain ⟨-, hscenes⟩ := lookup_sound create_recordedStage nofun (by decide +kernel)
  obtain ⟨database, hdatabase, -, hlookup⟩ :=
    hscenes _ moves_recordedScene 0 registered_recordedScene _ .refl
  obtain rfl : database = recordedDatabase :=
    Option.some.inj (hdatabase.symm.trans database?_recordedScene)
  simp only [buildDirectory_recordedDatabase, absolute_recordedScene] at hlookup
  obtain ⟨hsound, hrelative⟩ := hlookup (by decide +kernel) "x/../a" (by decide +kernel)
  have hfound := hrelative "a" ⟨"/", "a", ["/h"]⟩ (by decide +kernel) (by decide +kernel) rfl
  have hnames := hsound _ hfound
  dsimp only at hnames
  exact ⟨by decide +kernel, hfound, hnames⟩

/-- The source that is recorded by a detour is not found. -/
theorem lookup_eq_none_iff_detours_sample : recordedScene.engine.lookup 0 "b" = none := by
  obtain ⟨-, hscenes⟩ := lookup_eq_none_iff_detours create_recordedStage nofun (by decide +kernel)
  obtain ⟨database, hdatabase, -, hlookup⟩ :=
    hscenes _ moves_recordedScene 0 registered_recordedScene _ .refl
  obtain rfl : database = recordedDatabase :=
    Option.some.inj (hdatabase.symm.trans database?_recordedScene)
  simp only [buildDirectory_recordedDatabase, absolute_recordedScene] at hlookup
  refine (hlookup (by decide +kernel) "b" (by decide +kernel)).2 ?_
  decide +kernel

/-- Not every source that is recorded is found: a key names this one, read from the build
directory. -/
theorem not_all_recorded_sources_are_found :
    recordedScene.engine.Registered 0 ∧
      recordedScene.engine.database? 0 = some recordedDatabase ∧
      "./b" ∈ recordedDatabase.commands.keys ∧
      Path.normalize (Path.join recordedDatabase.buildDirectory "./b") =
        recordedScene.engine.host.absolute "b" ∧
      recordedScene.engine.lookup 0 "b" = none := by
  refine ⟨registered_recordedScene, database?_recordedScene, by decide +kernel, ?_, ?_⟩
  · rw [absolute_recordedScene]
    decide +kernel
  · rw [lookup_of_found database?_recordedScene, absolute_recordedScene]
    decide +kernel

end Scenario

end AsmScope
