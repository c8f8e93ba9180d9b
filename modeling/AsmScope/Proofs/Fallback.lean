import AsmScope.Proofs.Loading
import AsmScope.Proofs.Saving
import Mathlib
/-! # Settings of any file

What is loaded from a settings folder depends on what stands at the path of the settings file. An
object is laid over the defaults (`get?_update`). What cannot be opened, is ill-formed or is no
object leaves the defaults. But three kinds of bytes stop the program (`Unusable`), the same for
which loading an index fails unexpectedly: those that are no text at all, and texts with an integer
that is too long or a value that is nested too deep. -/

namespace AsmScope

/-- Updates go before what was there, if no key is updated twice. -/
theorem Table.get?_update {κ ν : Type} [DecidableEq κ] {table updates : Table κ ν}
    (nodup : updates.keys.Nodup) (key : κ) :
    (table.update updates).get? key = (updates.get? key).or (table.get? key) := by
  induction updates generalizing table with
  | nil => rfl
  | cons entry rest ih =>
    obtain ⟨k, v⟩ := entry
    obtain ⟨hk, hrest⟩ : k ∉ keys rest ∧ (keys rest).Nodup := List.nodup_cons.1 nodup
    have hupdate : table.update ((k, v) :: rest) = (table.put k v).update rest := rfl
    rw [hupdate, ih hrest, get?_put, get?]
    by_cases h : k = key
    · have hnone : get? rest key = none := by
        rw [← Option.not_isSome_iff_eq_none, ← mem_keys_iff, ← h]
        exact hk
      rw [if_pos h, if_pos h, hnone]
      rfl
    · rw [if_neg h, if_neg h]

/-- What can be read is what an unlocked file holds. -/
theorem FileTree.read_eq_ok_iff {tree : FileTree} {directory path : String} {content : Bytes} :
    tree.read directory path = .ok content ↔
      ∃ file, tree.at? directory path = some (.file file) ∧ file.locked = false ∧
        file.content = content := by
  rw [read, at?]
  cases tree.resolve directory path with
  | error reason => simp
  | ok location =>
    dsimp only
    cases tree.node? location with
    | none => simp
    | some node =>
      cases node with
      | directory => simp
      | file file => cases hlocked : file.locked <;> simp [hlocked]

namespace Settings

/-- The settings file in a folder can be opened and holds these bytes. -/
def Readable (host : Host) (folder : String) (content : Bytes) : Prop :=
  ∃ file, host.tree.at? host.directory (filePath folder) = some (.file file) ∧
    file.locked = false ∧ file.content = content

/-- Bytes that say an object with these fields. -/
def Says (content : Bytes) (fields : Table String Json) : Prop :=
  ∃ text, Utf8.decodeFile? content = some text ∧ Json.parse text = .ok (.object fields)

/-- Bytes for which loading the settings fails. -/
inductive Unusable (content : Bytes) : SettingsError → Prop
  /-- They encode no text. -/
  | undecodable (bytes : CommandIndex.Unexpected content .undecodable) :
    Unusable content .undecodable
  /-- The reader meets an integer with too many digits. -/
  | integerTooLong (bytes : CommandIndex.Unexpected content .integerTooLong) :
    Unusable content .integerTooLong
  /-- The reader meets brackets that are nested too deep. -/
  | nestedTooDeep (bytes : CommandIndex.Unexpected content .nestedTooDeep) :
    Unusable content .nestedTooDeep

section Content

variable {host : Host} {path : String} {content : Bytes} {fields : Table String Json}
  {error : SettingsError}

/-! ### What a settings file says -/

/-- A file that says an object is read as its fields. -/
theorem readContent_of_says (read : host.tree.read host.directory path = .ok content)
    (object : Says content fields) : readContent host path = .fields fields := by
  obtain ⟨text, hdecoded, hparsed⟩ := object
  rw [readContent, read]
  dsimp only
  rw [hdecoded]
  dsimp only
  rw [hparsed]

/-- Fields come from an object, or there are none. -/
theorem eq_nil_or_says_of_readContent (h : readContent host path = .fields fields) :
    fields = [] ∨ ∃ content, host.tree.read host.directory path = .ok content ∧
      Says content fields := by
  rw [readContent] at h
  split at h
  · cases h
  · next content hread =>
    split at h
    · cases h
    · next text hdecoded =>
      split at h
      · cases h
      · cases h
      · cases h
      · next hparsed =>
        cases h
        exact .inr ⟨content, hread, text, hdecoded, hparsed⟩
      · cases h
        exact .inl rfl

/-- **When the content is unusable**: exactly for the bytes that stop the program. -/
theorem readContent_eq_unusable_iff :
    readContent host path = .unusable error ↔
      ∃ content, host.tree.read host.directory path = .ok content ∧ Unusable content error := by
  constructor
  · intro h
    rw [readContent] at h
    split at h
    · cases h
    · next content hread =>
      refine ⟨content, hread, ?_⟩
      split at h
      · next hnone =>
        cases h
        exact .undecodable (.undecodable ((CommandIndex.decodeFile?_eq_none_iff content).1 hnone))
      · next text hdecoded =>
        split at h
        · cases h
        · next hrefused =>
          cases h
          exact .integerTooLong
            (.integerTooLong hdecoded hrefused (Json.longRun_of_parse hrefused))
        · next hrefused =>
          cases h
          exact .nestedTooDeep
            (.nestedTooDeep hdecoded hrefused (Json.maxNesting_lt_of_parse hrefused))
        · cases h
        · cases h
  · rintro ⟨content, hread, hcontent⟩
    rw [readContent, hread]
    cases hcontent with
    -- each of the three defects stops the reader at its own stage
    | undecodable bytes =>
      cases bytes with
      | undecodable invalid =>
        dsimp only
        rw [(CommandIndex.decodeFile?_eq_none_iff content).2 invalid]
    | integerTooLong bytes =>
      cases bytes with
      | integerTooLong decoded refused =>
        dsimp only
        rw [decoded]
        dsimp only
        rw [refused]
    | nestedTooDeep bytes =>
      cases bytes with
      | nestedTooDeep decoded refused =>
        dsimp only
        rw [decoded]
        dsimp only
        rw [refused]

end Content

/-! ### What is loaded -/

section Load

variable {host made : Host} {choice : Option String} {folder : String}

/-- What is loaded from a folder that could be made, by the content of the file in it. -/
theorem result_loadFrom (hmade : makeFolder host (Path.tidy folder) = .ok made) :
    (loadFrom host folder).1 =
      match readContent made (filePath (Path.tidy folder)) with
      | .fields fields => .ok ⟨Path.tidy folder, defaults.update fields⟩
      | .passedOver _ => .ok ⟨Path.tidy folder, defaults⟩
      | .unusable error => .error error := by
  rw [loadFrom]
  dsimp only
  rw [hmade]
  dsimp only
  generalize filePath (Path.tidy folder) = path
  cases hthere : made.pathExists path with
  | false =>
    -- nothing stands there, so nothing can be read
    have hnone : made.tree.at? made.directory path = none := by
      simpa [Host.pathExists] using hthere
    cases hread : made.tree.read made.directory path with
    | error refusal =>
      rw [readContent, hread]
      rfl
    | ok content =>
      obtain ⟨file, hfile, -⟩ := FileTree.read_eq_ok_iff.1 hread
      rw [hnone] at hfile
      cases hfile
  | true => cases readContent made path <;> rfl

/-- **Settings of any file.** Settings are loaded from a folder that is there or can be made,
whatever stands at the path of the settings file: bytes, a locked file, a directory or nothing.
Loading fails exactly if the file can be opened and its bytes are no text at all, or its reader
meets an integer that is too long or a value that is nested too deep. Otherwise every default is
there. Then the settings are the defaults with an object laid over them if the file can be opened
and says one, so that a field of the object goes before the default; and else they are the
defaults. -/
theorem load_of_content (meant : folderOf host choice = .ok folder)
    (hmade : makeFolder host (Path.tidy folder) = .ok made) :
    (∀ error, (load host choice).1 = .error error ↔
      ∃ content, Readable made (Path.tidy folder) content ∧ Unusable content error) ∧
    ∀ settings, (load host choice).1 = .ok settings →
      (∀ key ∈ defaults.keys, key ∈ settings.values.keys) ∧
      (∀ content fields, Readable made (Path.tidy folder) content → Says content fields →
        settings.values = defaults.update fields ∧
          ∀ key, settings.get? key = (fields.get? key).or (defaults.get? key)) ∧
      ((∀ content fields, Readable made (Path.tidy folder) content → ¬Says content fields) →
        settings.values = defaults) := by
  rw [load_of_folderOf meant]
  have hresult := result_loadFrom hmade
  have hreadable : ∀ content, Readable made (Path.tidy folder) content ↔
      made.tree.read made.directory (filePath (Path.tidy folder)) = .ok content :=
    fun content => FileTree.read_eq_ok_iff.symm
  simp only [hreadable]
  refine ⟨fun error => ?_, fun settings hsettings => ⟨?_, ?_, ?_⟩⟩
  · rw [← readContent_eq_unusable_iff, hresult]
    split <;> simp [*]
  · have hsound := sound_of_loadFrom (Prod.ext hsettings rfl)
    exact fun key hkey => hsound.covers.order.subset hkey
  · intro content fields hread hsaid
    rw [hresult, readContent_of_says hread hsaid] at hsettings
    cases hsettings
    refine ⟨rfl, fun key => Table.get?_update ?_ key⟩
    obtain ⟨text, -, hparsed⟩ := hsaid
    cases Json.regular_of_parse hparsed with
    | object distinct => exact distinct
  · intro hnone
    rw [hresult] at hsettings
    split at hsettings
    · next fields hfields =>
      cases hsettings
      rcases eq_nil_or_says_of_readContent hfields with rfl | ⟨content, hread, hobject⟩
      · rfl
      · exact absurd hobject (hnone content fields hread)
    · cases hsettings
      rfl
    · cases hsettings

end Load

/-- A machine on which the settings file holds these bytes. -/
def withSettingsFile (content : Bytes) : Host where
  tree := FileTree.place {} (FileTree.locationOf "/h/.asmbolt/config.json") { content }
  home := "/h"

/-- On the sample machine the settings are in the folder below the home directory. -/
theorem folderOf_withSettingsFile (content : Bytes) :
    folderOf (withSettingsFile content) none = .ok "/h/.asmbolt" := by
  have hsame : folderOf (withSettingsFile content) none = folderOf barren none := rfl
  exact hsame.trans rfl

/-- The folder of the sample is there, so that making it changes nothing. -/
theorem makeFolder_withSettingsFile (content : Bytes) :
    makeFolder (withSettingsFile content) (Path.tidy "/h/.asmbolt") =
      .ok (withSettingsFile content) := rfl

/-- The settings file of the sample can be opened and has its content. -/
theorem readable_withSettingsFile (content : Bytes) :
    Readable (withSettingsFile content) (Path.tidy "/h/.asmbolt") content :=
  ⟨{ content }, rfl, rfl, rfl⟩

/-- An object that changes a default and adds a setting. -/
def sampleObject : String := "\x7b\"demangler\": null, \"x\": 1\x7d"

/-- The content of the sample says an object with two fields. -/
theorem says_sampleObject :
    Says (Utf8.encode sampleObject) [("demangler", .null), ("x", .int 1)] :=
  ⟨sampleObject, by decide +kernel, by cbv⟩

/-- The fields of the object go before the defaults. -/
theorem load_of_content_sample : ∃ settings,
    (load (withSettingsFile (Utf8.encode sampleObject)) none).1 = .ok settings ∧
      settings.get? "demangler" = some .null ∧ settings.get? "x" = some (.int 1) ∧
      settings.get? "watch_source" = some (.bool true) := by
  have hmeant := folderOf_withSettingsFile (Utf8.encode sampleObject)
  have hmade := makeFolder_withSettingsFile (Utf8.encode sampleObject)
  have hreadable := readable_withSettingsFile (Utf8.encode sampleObject)
  have hcontent := readContent_of_says (FileTree.read_eq_ok_iff.2 hreadable) says_sampleObject
  have hload := result_loadFrom hmade
  rw [hcontent, ← load_of_folderOf hmeant] at hload
  obtain ⟨-, hloads⟩ := load_of_content hmeant hmade
  obtain ⟨-, hobject, -⟩ := hloads _ hload
  obtain ⟨-, hget⟩ := hobject _ _ hreadable says_sampleObject
  exact ⟨_, hload, hget _, hget _, hget _⟩

/-- Not all bytes in the settings file leave the program with settings. -/
theorem not_all_files_leave_settings :
    folderOf (withSettingsFile [0xFF]) none = .ok "/h/.asmbolt" ∧
      (∃ made, makeFolder (withSettingsFile [0xFF]) (Path.tidy "/h/.asmbolt") = .ok made ∧
        Readable made (Path.tidy "/h/.asmbolt") [0xFF]) ∧
      ¬∃ settings, (load (withSettingsFile [0xFF]) none).1 = .ok settings := by
  refine ⟨folderOf_withSettingsFile _,
    ⟨_, makeFolder_withSettingsFile _, readable_withSettingsFile _⟩, ?_⟩
  rintro ⟨settings, hsettings⟩
  have hload : (load (withSettingsFile [0xFF]) none).1 = .error .undecodable := rfl
  rw [hload] at hsettings
  cases hsettings

end Settings

end AsmScope
