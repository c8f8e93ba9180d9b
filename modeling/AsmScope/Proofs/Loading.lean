import AsmScope.Proofs.Encoding
import AsmScope.Proofs.Following
import AsmScope.Proofs.Nesting
/-! # Loading and loading again

A file that cannot be read, or whose text is ill-formed, gives an error that a reload puts up with.
Three kinds of files give another one (`Unexpected`): bytes that are no text at all, and texts with
an integer that is too long or a value that is nested too deep. Whatever the file is, a reload
leaves the database with all of the new commands or with all of the old ones. -/

namespace AsmScope

namespace CommandIndex

/-! ### Unexpected load errors -/

/-- Bytes for which loading fails in a way that nobody puts up with. -/
inductive Unexpected (content : Bytes) : LoadError → Prop
  /-- They encode no text. -/
  | undecodable (invalid : ∀ s, Utf8.encode s ≠ content) : Unexpected content .undecodable
  /-- The reader meets an integer with too many digits. -/
  | integerTooLong {text : String} (decoded : Utf8.decodeFile? content = some text)
      (refused : Json.parse text = .error .integerTooLong) (long : Json.LongRun text.toList) :
      Unexpected content .integerTooLong
  /-- The reader meets brackets that are nested too deep. -/
  | nestedTooDeep {text : String} (decoded : Utf8.decodeFile? content = some text)
      (refused : Json.parse text = .error .nestedTooDeep)
      (deep : Json.maxNesting < Json.nesting .outside 0 text.toList) :
      Unexpected content .nestedTooDeep

variable {content : Bytes} {error : LoadError}

/-- Bytes are refused by the decoder exactly if they encode no text. -/
theorem decodeFile?_eq_none_iff (content : Bytes) :
    Utf8.decodeFile? content = none ↔ ∀ s, Utf8.encode s ≠ content := by
  rw [Utf8.decodeFile?, Option.map_eq_none_iff, Option.eq_none_iff_forall_ne_some]
  exact forall_congr' fun s => not_congr (Utf8.decode?_eq_some_iff content s)

/-- An entry that is ill-formed is put up with. -/
theorem isTolerated_of_addEntries {entries : List Json} {index : Nat} {commands : CommandIndex}
    (failed : addEntries index commands entries = .error error) : error.isTolerated := by
  induction entries generalizing index commands with
  | nil => cases failed
  | cons entry entries ih =>
    rw [addEntries] at failed
    split at failed
    · cases failed
      rfl
    · exact ih failed

/-- A value that is no array of entries, or has an ill-formed one, gives an error that is put up
with. -/
theorem isTolerated_of_ofJson {value : Json} (failed : ofJson value = .error error) :
    error.isTolerated := by
  unfold ofJson at failed
  split at failed
  · exact isTolerated_of_addEntries failed
  · cases failed
    rfl

/-- Bytes that fail otherwise encode no text, or the reader meets in them what it does not
follow. -/
theorem unexpected_of_ofBytes (failed : ofBytes content = .error error)
    (unexpected : error.isTolerated = false) : Unexpected content error := by
  unfold ofBytes at failed
  split at failed
  · next hnone =>
    cases failed
    exact .undecodable ((decodeFile?_eq_none_iff content).1 hnone)
  · next text hdecoded =>
    split at failed
    · cases failed
      cases unexpected
    · next hrefused =>
      cases failed
      exact .integerTooLong hdecoded hrefused (Json.longRun_of_parse hrefused)
    · next hrefused =>
      cases failed
      exact .nestedTooDeep hdecoded hrefused (Json.maxNesting_lt_of_parse hrefused)
    · rw [isTolerated_of_ofJson failed] at unexpected
      cases unexpected

/-- Bytes that nobody puts up with fail to load, for their reason. -/
theorem Unexpected.ofBytes_eq (h : Unexpected content error) : ofBytes content = .error error := by
  cases h with
  | undecodable invalid => rw [ofBytes, (decodeFile?_eq_none_iff content).2 invalid]
  | integerTooLong decoded refused => rw [ofBytes, decoded]; dsimp only; rw [refused]
  | nestedTooDeep decoded refused => rw [ofBytes, decoded]; dsimp only; rw [refused]

/-- Nobody puts up with such an error. -/
theorem Unexpected.isTolerated_eq (h : Unexpected content error) : error.isTolerated = false := by
  cases h <;> rfl

/-- **When loading fails unexpectedly**: exactly if the file can be read and holds such bytes. -/
theorem ofFile_eq_error_iff (host : Host) (location : String) (error : LoadError) :
    ofFile host location = .error error ∧ error.isTolerated = false ↔
      ∃ content, host.tree.read host.directory location = .ok content ∧
        Unexpected content error := by
  rw [ofFile]
  cases hread : host.tree.read host.directory location with
  | error refusal =>
    constructor
    · rintro ⟨hfailed, hunexpected⟩
      cases hfailed
      split at hunexpected <;> cases hunexpected
    · rintro ⟨content, hcontent, -⟩
      cases hcontent
  | ok content =>
    constructor
    · rintro ⟨hfailed, hunexpected⟩
      exact ⟨content, rfl, unexpected_of_ofBytes hfailed hunexpected⟩
    · rintro ⟨_, hcontent, hunexpected⟩
      cases hcontent
      exact ⟨hunexpected.ofBytes_eq, hunexpected.isTolerated_eq⟩

end CommandIndex

namespace Engine

variable {α : Type} {engine : Engine α} {id : DatabaseId} {location : String}
  {commands : CommandIndex}

/-! ### Reloads -/

/-- What a reload answers: a failure only if loading fails unexpectedly. -/
theorem result_reload (h : HasIndex id location commands engine) :
    engine.result (reload id) =
      match CommandIndex.ofFile engine.host location with
      | .ok _ => .ok ()
      | .error error => if error.isTolerated then .ok () else .error (.load location error) := by
  obtain ⟨database, hdatabase, rfl, rfl⟩ := h
  simp only [reload, result_get_bind, hdatabase]
  rw [result_bind, result_observe, after_observe]
  dsimp only
  rw [result_loadIndex]
  cases CommandIndex.ofFile engine.host database.location with
  | ok fresh => rfl
  | error error =>
    have hexpected : (Failure.load database.location error).isExpected = error.isTolerated := rfl
    dsimp only
    rw [hexpected]
    cases error.isTolerated <;> rfl

/-- A reload leaves other databases alone. -/
theorem database?_reload (engine : Engine α) {id other : DatabaseId} (ne : other ≠ id) :
    (engine.after (reload id)).database? other = engine.database? other := by
  have hreloading := reloading_reload engine id
  generalize engine.result (reload id) = result at hreloading
  generalize engine.after (reload id) = later at hreloading ⊢
  cases hreloading with
  | absent => rfl
  | loaded _ same =>
    rw [database?_modifyDatabase, if_neg ne.symm, database?, same.databases, database?]
  | kept _ same => rw [database?, same.databases, database?]

/-- A reload puts there what the file holds, or keeps what was there. -/
theorem HasIndex.reload_cases (h : HasIndex id location commands engine) :
    (∃ fresh, (CommandIndex.load engine.host location).1 = .ok fresh ∧
        HasIndex id location fresh (engine.after (Engine.reload id))) ∨
      ∃ error, (CommandIndex.load engine.host location).1 = .error error ∧
        HasIndex id location commands (engine.after (Engine.reload id)) := by
  have hreload := h.reload
  rw [load_fst]
  cases hfile : CommandIndex.ofFile engine.host location with
  | ok fresh =>
    rw [refreshed_of_ok hfile] at hreload
    exact .inl ⟨fresh, rfl, hreload⟩
  | error error =>
    rw [refreshed_of_error hfile] at hreload
    exact .inr ⟨error, rfl, hreload⟩

/-- **Loading and loading again.** A load fails otherwise than for a file that is missing, cannot be
read or is ill-formed exactly if the file holds no text, or its reader meets an integer that is too
long or a value that is nested too deep. A reload of a database fails with the same errors and with
no others. Whether it fails or not, the database then has exactly the commands that were loaded, or
those that it had; and no other database is touched. -/
theorem load_and_reload :
    (∀ (host : Host) (location : String) (error : LoadError),
      (CommandIndex.load host location).1 = .error error ∧ error.isTolerated = false ↔
        ∃ content, host.tree.read host.directory location = .ok content ∧
          CommandIndex.Unexpected content error) ∧
    ∀ (engine : Engine α) (id : DatabaseId) (location : String) (commands : CommandIndex),
      HasIndex id location commands engine →
      (∀ failure, engine.result (reload id) = .error failure ↔
        ∃ content error, engine.host.tree.read engine.host.directory location = .ok content ∧
          CommandIndex.Unexpected content error ∧ failure = .load location error) ∧
      ((∃ fresh, (CommandIndex.load engine.host location).1 = .ok fresh ∧
          HasIndex id location fresh (engine.after (reload id))) ∨
        ∃ error, (CommandIndex.load engine.host location).1 = .error error ∧
          HasIndex id location commands (engine.after (reload id))) ∧
      ∀ other, other ≠ id →
        (engine.after (reload id)).database? other = engine.database? other := by
  simp only [load_fst]
  refine ⟨CommandIndex.ofFile_eq_error_iff, fun engine id location commands h => ?_⟩
  refine ⟨fun failure => ?_, by simpa only [load_fst] using h.reload_cases,
    fun other ne => database?_reload engine ne⟩
  have hunexpected := CommandIndex.ofFile_eq_error_iff engine.host location
  rw [result_reload h]
  constructor
  · intro hfailed
    -- only an error that is not put up with makes the reload fail
    split at hfailed
    · cases hfailed
    · next error herror =>
      split at hfailed
      · cases hfailed
      · next htolerated =>
        obtain ⟨content, hread, hcontent⟩ :=
          (hunexpected error).1 ⟨herror, Bool.eq_false_iff.2 htolerated⟩
        cases hfailed
        exact ⟨content, error, hread, hcontent, rfl⟩
  · rintro ⟨content, error, hread, hcontent, rfl⟩
    obtain ⟨herror, htolerated⟩ := (hunexpected error).2 ⟨content, hread, hcontent⟩
    rw [herror]
    dsimp only
    rw [htolerated]
    rfl

end Engine

namespace Scenario

open Engine

/-- A database is opened, and its file is overwritten with a byte that begins no character. -/
def spoiling : List EngineStep :=
  [.openDatabase "/c", .host (.write "/c" { content := [0xFF] })]

/-- In the sample the database still has the commands that it was opened with. -/
theorem hasIndex_spoiling : HasIndex 0 "/c" [] (afterSteps spoiling watchedStage) := by
  have hfound : (afterSteps spoiling watchedStage).database? 0 =
      some { location := "/c", commands := [], attached := true, watched := true } := by
    decide +kernel
  exact ⟨_, hfound, rfl, rfl⟩

/-- The byte that was written begins no character. -/
theorem unexpected_spoiling : CommandIndex.Unexpected [0xFF] .undecodable :=
  .undecodable ((CommandIndex.decodeFile?_eq_none_iff [0xFF]).1 rfl)

/-- Loading fails, the reload fails with it, and the commands stay. -/
theorem load_and_reload_sample :
    let stage := afterSteps spoiling watchedStage
    (CommandIndex.load stage.host "/c").1 = .error .undecodable ∧
      stage.result (reload 0) = .error (.load "/c" .undecodable) ∧
      HasIndex 0 "/c" [] (stage.after (reload 0)) := by
  have hread : (afterSteps spoiling watchedStage).host.tree.read
      (afterSteps spoiling watchedStage).host.directory "/c" = .ok [0xFF] := by
    decide +kernel
  obtain ⟨hload, hreload⟩ := load_and_reload (α := Ledger)
  obtain ⟨hfails, hcommands, -⟩ := hreload _ 0 "/c" [] hasIndex_spoiling
  have hloaded := ((hload _ "/c" .undecodable).2 ⟨[0xFF], hread, unexpected_spoiling⟩).1
  refine ⟨hloaded, (hfails _).2 ⟨[0xFF], .undecodable, hread, unexpected_spoiling, rfl⟩, ?_⟩
  rcases hcommands with ⟨fresh, hfresh, -⟩ | ⟨-, -, hkept⟩
  · rw [hloaded] at hfresh
    cases hfresh
  · exact hkept

/-- Not every load error is put up with, and not every reload goes well. -/
theorem not_all_reloads_go_well :
    let stage := afterSteps spoiling watchedStage
    HasIndex 0 "/c" [] stage ∧
      (∃ error, (CommandIndex.load stage.host "/c").1 = .error error ∧ error.isTolerated = false) ∧
      ∃ failure, stage.result (reload 0) = .error failure := by
  have hfile : CommandIndex.ofFile (afterSteps spoiling watchedStage).host "/c" =
      .error .undecodable := by
    decide +kernel
  refine ⟨hasIndex_spoiling, ⟨.undecodable, ?_, rfl⟩, .load "/c" .undecodable, ?_⟩
  · rw [load_fst, hfile]
  · rw [result_reload hasIndex_spoiling, hfile]
    rfl

end Scenario

end AsmScope
