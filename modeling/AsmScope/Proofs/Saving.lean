import AsmScope.Proofs.Encoding
import AsmScope.Proofs.Rereading
import AsmScope.Settings.Basic
/-! # Saved settings come back

A change of a setting writes all settings into their file. Three things make a later load give back
what was saved: the path of the file leads to the file that was just written (`read_of_write`), the
text in it is read as the values that were written (`Json.parse_write`), and putting these over the
defaults changes nothing, because all settings that are ever held begin with the defaults in their
order (`Covers`).

Loading makes the settings folder where it is missing, and takes nothing away (`grown_load`). -/

namespace AsmScope

/-! ### Files -/

namespace FileTree

variable {tree tree' : FileTree} {location other here : Location} {names : List Path.Name}

/-- After a node is put at a location below the root it is there, and the others are where they
were. -/
theorem node?_put (node : Node) (below : location ≠ []) :
    ({ tree with nodes := tree.nodes.put location node } : FileTree).node? other =
      if location = other then some node else tree.node? other := by
  by_cases hroot : other = []
  · subst hroot
    rw [if_neg below, node?, node?, if_pos rfl, if_pos rfl]
  · rw [node?, if_neg hroot, Table.get?_put, node?, if_neg hroot]

/-- After a file is put at a location below the root it is there, and the others are where they
were. -/
theorem node?_putFile (file : File) (below : location ≠ []) :
    (tree.putFile location file).node? other =
      if location = other then some (.file file) else tree.node? other :=
  node?_put (.file file) below

/-- A file in the place of what is no directory leaves the directories. -/
theorem node?_putFile_of_directory (file : File) (free : tree.node? location ≠ some .directory)
    (directory : tree.node? other = some .directory) :
    (tree.putFile location file).node? other = some .directory := by
  have hne : location ≠ other := by
    rintro rfl
    exact free directory
  have hbelow : location ≠ [] := by
    rintro rfl
    exact free rfl
  rw [node?_putFile file hbelow, if_neg hne, directory]

/-- The names lead to where a file was written, if they led there before. -/
theorem walk_putFile {file : File} (found : tree.walkToFile here names = .ok location)
    (free : tree.node? location ≠ some .directory) :
    (tree.putFile location file).walk here names = .ok location := by
  have hbelow : location ≠ [] := by
    rintro rfl
    exact free rfl
  have hfile : (tree.putFile location file).node? location = some (.file file) := by
    rw [node?_putFile file hbelow, if_pos rfl]
  -- all names but the last go through directories, which are as they were
  induction names generalizing here with
  | nil => exact found
  | cons name rest ih =>
    rw [walkToFile] at found
    rw [walk]
    split
    · next h => exact ih (by rwa [if_pos h] at found)
    · next h =>
      rw [if_neg h] at found
      split
      · next h' => exact ih (by rwa [if_pos h'] at found)
      · next h' =>
        rw [if_neg h'] at found
        split at found
        · next hnode =>
          split at found
          · next hlast =>
            obtain rfl : here ++ [name] = location := Except.ok.inj found
            rw [hfile]
            exact if_pos hlast
          · cases found
        · next hnode =>
          rw [node?_putFile_of_directory file free hnode]
          exact ih found
        · next hnode =>
          split at found
          · next hlast =>
            obtain rfl : here ++ [name] = location := Except.ok.inj found
            rw [hfile]
            exact if_pos hlast
          · cases found

/-- What writing does: it puts a file that is not locked where the path leads. -/
theorem exists_of_write {directory path text : String}
    (written : tree.write directory path text = .ok tree') :
    ∃ location file, tree.resolveFile directory path = .ok location ∧
      tree.node? location ≠ some .directory ∧ file.content = Utf8.encode text ∧
      file.locked = false ∧ tree' = tree.putFile location file := by
  rw [write] at written
  split at written
  · cases written
  · next location hlocation =>
    refine ⟨location, ?_⟩
    split at written
    · next hnode =>
      exact ⟨_, hlocation, by simp [hnode], rfl, rfl, (Except.ok.inj written).symm⟩
    · cases written
    · next file hnode =>
      split at written
      · cases written
      · next hlocked =>
        exact ⟨_, hlocation, by simp [hnode], rfl, by simpa using hlocked,
          (Except.ok.inj written).symm⟩

/-- **What was written is read** at the path from then on. -/
theorem read_of_write {directory path text : String}
    (written : tree.write directory path text = .ok tree') :
    (tree'.at? directory path).isSome ∧ tree'.read directory path = .ok (Utf8.encode text) := by
  obtain ⟨location, file, hlocation, hfree, hcontent, hlocked, rfl⟩ := exists_of_write written
  have hbelow : location ≠ [] := by
    rintro rfl
    exact hfree rfl
  have hnode : (tree.putFile location file).node? location = some (.file file) := by
    rw [node?_putFile file hbelow, if_pos rfl]
  -- the path leads to the written file, also where it was made just now
  have hresolve : (tree.putFile location file).resolve directory path = .ok location := by
    rw [resolveFile] at hlocation
    rw [resolve]
    split at hlocation
    · cases hlocation
    · next hpath => rw [if_neg hpath, walk_putFile hlocation hfree]
  rw [at?, hresolve, read, hresolve]
  dsimp only
  rw [hnode]
  dsimp only
  rw [hlocked, hcontent]
  exact ⟨rfl, rfl⟩

/-! ### Directories -/

/-- The names lead through directories only. -/
def Trodden (tree : FileTree) : Location → List Path.Name → Prop
  | _, [] => True
  | here, name :: rest =>
    if name = [] ∨ name = ['.'] then Trodden tree here rest
    else if name = ['.', '.'] then Trodden tree here.dropLast rest
    else tree.node? (here ++ [name]) = some .directory ∧ Trodden tree (here ++ [name]) rest

/-- Where all directories are there, none is made. -/
theorem makeAlong_of_trodden (trodden : tree.Trodden here names) :
    tree.makeAlong here names = .ok tree := by
  induction names generalizing here with
  | nil => rfl
  | cons name rest ih =>
    rw [Trodden] at trodden
    rw [makeAlong]
    split
    · next h => exact ih (by rwa [if_pos h] at trodden)
    · next h =>
      rw [if_neg h] at trodden
      split
      · next h' => exact ih (by rwa [if_pos h'] at trodden)
      · next h' =>
        rw [if_neg h'] at trodden
        rw [trodden.1]
        exact ih trodden.2

/-- Names that lead through directories still do where there are more of them. -/
theorem Trodden.mono (trodden : tree.Trodden here names)
    (more : ∀ location, tree.node? location = some .directory →
      tree'.node? location = some .directory) : tree'.Trodden here names := by
  induction names generalizing here with
  | nil => trivial
  | cons name rest ih =>
    rw [Trodden] at trodden ⊢
    split
    · next h => exact ih (by rwa [if_pos h] at trodden)
    · next h =>
      rw [if_neg h] at trodden
      split
      · next h' => exact ih (by rwa [if_pos h'] at trodden)
      · next h' =>
        rw [if_neg h'] at trodden
        exact ⟨more _ trodden.1, ih trodden.2⟩

/-- A directory that is added at a free location is there, and everything else is where it was. -/
theorem node?_addDirectory (free : tree.node? location = none) :
    (tree.addDirectory location).node? other =
      if location = other then some .directory else tree.node? other := by
  have hbelow : location ≠ [] := by
    rintro rfl
    cases free
  rw [addDirectory, if_neg (by simp [free]), node?_put .directory hbelow]

/-- Making directories leaves what is there, and all names lead through directories afterwards. -/
theorem trodden_of_makeAlong (made : tree.makeAlong here names = .ok tree') :
    (∀ location node, tree.node? location = some node → tree'.node? location = some node) ∧
      tree'.Trodden here names := by
  -- what is made for the first name is left alone by what is made for the others
  induction names generalizing tree here with
  | nil => exact ⟨fun _ _ h => (Except.ok.inj made) ▸ h, trivial⟩
  | cons name rest ih =>
    rw [makeAlong] at made
    rw [Trodden]
    split
    · next h => exact ih (by rwa [if_pos h] at made)
    · next h =>
      rw [if_neg h] at made
      split
      · next h' => exact ih (by rwa [if_pos h'] at made)
      · next h' =>
        rw [if_neg h'] at made
        split at made
        · next hnode =>
          obtain ⟨hstay, htrodden⟩ := ih made
          refine ⟨fun location node hlocation => hstay location node ?_, hstay _ _ ?_, htrodden⟩
          · have hne : here ++ [name] ≠ location := by
              rintro rfl
              rw [hnode] at hlocation
              cases hlocation
            rw [node?_addDirectory hnode, if_neg hne, hlocation]
          · rw [node?_addDirectory hnode, if_pos rfl]
        · next hnode =>
          obtain ⟨hstay, htrodden⟩ := ih made
          exact ⟨hstay, hstay _ _ hnode, htrodden⟩
        · cases made

/-- Once a directory was made, making it again changes nothing, even after a file was written. -/
theorem makeDirectory_of_write {directory path file text : String} {made : FileTree}
    (hmade : tree.makeDirectory directory path = .ok made)
    (written : made.write directory file text = .ok tree') :
    tree'.makeDirectory directory path = .ok tree' := by
  obtain ⟨location, file, -, hfree, -, -, rfl⟩ := exists_of_write written
  exact makeAlong_of_trodden ((trodden_of_makeAlong hmade).2.mono fun _ =>
    node?_putFile_of_directory file hfree)

/-! ### More files and directories -/

section More

variable (more : ∀ location node, tree.node? location = some node →
  tree'.node? location = some node)
include more

/-- What is there is found in a tree with more in it. -/
theorem walk_mono (found : tree.walk here names = .ok location) :
    tree'.walk here names = .ok location := by
  -- induction on the names along the way, with the place reached so far
  induction names generalizing here with
  | nil => exact found
  | cons name rest ih =>
    rw [walk] at found ⊢
    split
    · next h => exact ih (by rwa [if_pos h] at found)
    · next h =>
      rw [if_neg h] at found
      split
      · next h' => exact ih (by rwa [if_pos h'] at found)
      · next h' =>
        rw [if_neg h'] at found
        cases hnode : tree.node? (here ++ [name]) with
        | none =>
          rw [hnode] at found
          cases found
        | some node =>
          rw [hnode] at found
          rw [more _ node hnode]
          cases node with
          | directory => exact ih found
          | file file => exact found

/-- A path leads to the same where the tree has grown. -/
theorem at?_mono {directory path : String} {node : Node}
    (found : tree.at? directory path = some node) : tree'.at? directory path = some node := by
  rw [at?] at found ⊢
  cases hresolve : tree.resolve directory path with
  | error reason =>
    rw [hresolve] at found
    cases found
  | ok location =>
    have hresolve' : tree'.resolve directory path = .ok location := by
      rw [resolve] at hresolve ⊢
      split at hresolve
      · cases hresolve
      · next hpath => rw [if_neg hpath, walk_mono more hresolve]
    rw [hresolve] at found
    rw [hresolve']
    exact more location node found

end More

end FileTree

/-- The same machine with more files and directories, and with more in its journal. -/
structure Host.Grown (before after : Host) : Prop where
  eq : ∃ tree journal, after = { before with tree, journal }
  nodes : ∀ location node, before.tree.node? location = some node →
    after.tree.node? location = some node

namespace Host.Grown

variable {before after : Host}

/-- A machine that has grown has the same working directory. -/
theorem directory (grown : Grown before after) : after.directory = before.directory := by
  obtain ⟨tree, journal, rfl⟩ := grown.eq
  rfl

/-- A machine that has grown has the same processes. -/
theorem processes (grown : Grown before after) : after.processes = before.processes := by
  obtain ⟨tree, journal, rfl⟩ := grown.eq
  rfl

/-- A path that led to something still does. -/
theorem pathExists (grown : Grown before after) {path : String} (there : before.pathExists path) :
    after.pathExists path := by
  obtain ⟨node, hnode⟩ := Option.isSome_iff_exists.1 there
  rw [Host.pathExists, grown.directory, FileTree.at?_mono grown.nodes hnode]
  rfl

end Host.Grown

/-! ### Texts -/

/-- Where there are no carriage returns there is nothing to unify. -/
theorem Text.unifyLineFeeds_of_not_mem {cs : List Char} (h : '\r' ∉ cs) :
    Text.unifyLineFeeds cs = cs := by
  induction cs with
  | nil => rfl
  | cons c cs ih =>
    rw [List.mem_cons, not_or] at h
    rw [unifyLineFeeds, ih h.2]
    · exact fun _ hc => absurd hc.symm h.1
    · exact fun hc => h.1 hc.symm

/-- A text without carriage returns is read back from the bytes of its form. -/
theorem Utf8.decodeFile?_encode {s : String} (h : '\r' ∉ s.toList) :
    decodeFile? (encode s) = some s := by
  rw [decodeFile?, (decode?_eq_some_iff _ s).2 rfl, Option.map_some,
    Text.unifyLineFeeds_of_not_mem h, String.ofList_toList]

/-! ### Defaults -/

namespace Table

variable {κ ν : Type} [DecidableEq κ]

/-- Entries in the order of a table replace its entries, and those that are new follow. -/
theorem update_append {front base rest : Table κ ν} (order : base.keys <+: rest.keys)
    (nodup : (keys (front ++ rest)).Nodup) : update (front ++ base) rest = front ++ rest := by
  -- `front` are the entries that are in place already
  induction rest generalizing front base with
  | nil =>
    obtain rfl : base = [] := List.map_eq_nil_iff.1 (List.prefix_nil.1 order)
    rfl
  | cons entry rest ih =>
    obtain ⟨key, value⟩ := entry
    have hput : put (front ++ base) key value = (front ++ [(key, value)]) ++ base.tail := by
      rw [put_append (not_mem_keys_of_nodup nodup)]
      cases base with
      | nil => rw [put, List.tail_nil, List.append_nil]
      | cons first base =>
        obtain rfl : first.1 = key := (List.cons_prefix_cons.1 order).1
        rw [put, if_pos rfl, List.tail_cons, List.append_assoc, List.singleton_append]
    have horder : keys base.tail <+: keys rest := by
      cases base with
      | nil => exact List.nil_prefix
      | cons first base => exact (List.cons_prefix_cons.1 order).2
    have hnodup : (keys ((front ++ [(key, value)]) ++ rest)).Nodup := by simpa using nodup
    have hrest := ih horder hnodup
    rw [update, List.foldl_cons, hput]
    exact hrest.trans (by rw [List.append_assoc, List.singleton_append])

/-- A table that begins with some keys still does after a value was put. -/
theorem keys_prefix_put {base table : Table κ ν} (order : base.keys <+: table.keys) (key : κ)
    (value : ν) : base.keys <+: (table.put key value).keys := by
  rw [keys_put]
  split
  · exact order
  · exact order.trans (List.prefix_append _ _)

end Table

namespace Settings

/-- The settings begin with the defaults, in their order, and none is there twice. -/
structure Covers (values : Table String Json) : Prop where
  order : defaults.keys <+: values.keys
  distinct : values.keys.Nodup

/-- Settings that begin with the defaults still do after one was changed. -/
theorem Covers.put {values : Table String Json} (h : Covers values) (key : String) (value : Json) :
    Covers (values.put key value) :=
  ⟨Table.keys_prefix_put h.order key value, Table.nodup_keys_put h.distinct key value⟩

/-- The defaults begin with themselves. -/
theorem covers_defaults : Covers defaults := ⟨List.prefix_rfl, by decide⟩

/-- Settings that begin with the defaults still do when others are laid over them. -/
theorem Covers.update {values : Table String Json} (h : Covers values)
    (updates : Table String Json) : Covers (values.update updates) := by
  induction updates generalizing values with
  | nil => exact h
  | cons entry updates ih => exact ih (h.put entry.1 entry.2)

/-- Putting all settings over the defaults gives these settings. -/
theorem Covers.defaults_update {values : Table String Json} (h : Covers values) :
    defaults.update values = values := by
  have hdistinct : (Table.keys ([] ++ values)).Nodup := h.distinct
  exact Table.update_append h.order hdistinct

/-! ### What loading does to the machine -/

/-- Making a folder only adds to the machine. -/
theorem grown_makeFolder {host host' : Host} {folder : String}
    (made : makeFolder host folder = .ok host') : host.Grown host' := by
  unfold makeFolder at made
  split at made
  · next tree hmade =>
    cases made
    exact ⟨⟨tree, host.journal, rfl⟩, (FileTree.trodden_of_makeAlong hmade).1⟩
  · cases made

/-- Loading settings from a folder only adds to the machine. -/
theorem grown_loadFrom (host : Host) (folder : String) : host.Grown (loadFrom host folder).2 := by
  have hsame (host : Host) : host.Grown host := ⟨⟨host.tree, host.journal, rfl⟩, fun _ _ h => h⟩
  rw [loadFrom]
  split
  · exact hsame host
  · next made hmade =>
    have hgrown := grown_makeFolder hmade
    dsimp only
    split
    · exact hgrown
    · split
      · exact hgrown
      · obtain ⟨tree, journal, rfl⟩ := hgrown.eq
        exact ⟨⟨tree, _, rfl⟩, hgrown.nodes⟩
      · exact hgrown

/-- Loading the settings makes their folder, and may log a warning. -/
theorem grown_load (host : Host) (choice : Option String) : host.Grown (load host choice).2 := by
  unfold load
  split
  · exact grown_loadFrom host _
  · split
    · exact grown_loadFrom host _
    · exact ⟨⟨host.tree, host.journal, rfl⟩, fun _ _ h => h⟩

/-! ### Held settings -/

/-- The folder that is meant: the one that is named, or else the user's own. -/
def folderOf (host : Host) : Option String → Except SettingsError String
  | some folder => .ok folder
  | none => defaultFolder host

/-- Settings are loaded from the folder that is meant. -/
theorem load_of_folderOf {host : Host} {choice : Option String} {folder : String}
    (h : folderOf host choice = .ok folder) : load host choice = loadFrom host folder := by
  cases choice with
  | some given => rw [load, Except.ok.inj h]
  | none =>
    rw [folderOf] at h
    rw [load, h]

/-- The settings that can be held of a folder: they were loaded, from whatever the file holds then,
and changed, to values that last, as often as the changes were saved. -/
inductive Held (folder : String) : Settings → Prop
  | loaded {host host' : Host} {choice : Option String} {settings : Settings}
    (meant : folderOf host choice = .ok folder)
    (loads : load host choice = (.ok settings, host')) : Held folder settings
  | changed {host host' : Host} {settings later : Settings} {key : String} {value : Json}
    (held : Held folder settings) (lasting : Json.Lasting value)
    (saved : settings.set host key value = (.ok (), later, host')) : Held folder later

/-- A change that goes well has changed the value and saved the settings. -/
theorem saved_of_set {host host' : Host} {settings later : Settings} {key : String} {value : Json}
    (saved : settings.set host key value = (.ok (), later, host')) :
    settings.put key value = later ∧ later.save host = (.ok (), host') := by
  simp only [set, Prod.mk.injEq] at saved
  obtain ⟨hresult, rfl, hhost⟩ := saved
  exact ⟨rfl, Prod.ext hresult hhost⟩

/-- What is so of all settings that are held of a folder. -/
structure Sound (folder : String) (settings : Settings) : Prop where
  folder : settings.folder = Path.tidy folder
  covers : Covers settings.values
  regular : ∀ field ∈ settings.values, Json.Regular True field.2

/-- The value of a rewrite is regular. -/
theorem regular_rewriteValue (argument replacement : String) :
    Json.Regular True (rewriteValue argument replacement) := by
  refine .array ?_
  simp only [List.forall_mem_cons]
  exact ⟨.text argument, .text replacement, nofun⟩

/-- The values of the defaults are regular. -/
theorem regular_defaults : ∀ field ∈ defaults, Json.Regular True field.2 := by
  simp only [defaults, List.forall_mem_cons]
  refine ⟨.text _, .text _, .object .nil nofun, .array ?_, .bool true, nofun⟩
  simp only [List.forall_mem_cons]
  exact ⟨regular_rewriteValue _ _, regular_rewriteValue _ _, nofun⟩

/-- The defaults are sound settings of every folder. -/
theorem sound_defaults (folder : String) :
    Sound folder ⟨Path.tidy folder, defaults⟩ := ⟨rfl, covers_defaults, regular_defaults⟩

/-- The fields that a settings file gives are those of a text that was read. -/
theorem regular_of_readContent {host : Host} {path : String} {fields : Table String Json}
    (h : readContent host path = .fields fields) :
    ∀ field ∈ fields, Json.Regular True field.2 := by
  rw [readContent] at h
  split at h
  · cases h
  · split at h
    · cases h
    · split at h
      · cases h
      · cases h
      · cases h
      · next hparse =>
        cases h
        cases Json.regular_of_parse hparse with
        | object _ regular => exact regular
      · cases h
        exact nofun

/-- What is loaded from a folder are sound settings of it. -/
theorem sound_of_loadFrom {host host' : Host} {folder : String} {settings : Settings}
    (loads : loadFrom host folder = (.ok settings, host')) : Sound folder settings := by
  simp only [loadFrom] at loads
  split at loads
  · cases loads
  · split at loads
    · cases loads
      exact sound_defaults folder
    · split at loads
      · next fields hfields =>
        cases loads
        exact ⟨rfl, covers_defaults.update fields,
          Table.forall_mem_update regular_defaults (regular_of_readContent hfields)⟩
      · cases loads
        exact sound_defaults folder
      · cases loads

/-- Sound settings stay so when one is changed to a regular value. -/
theorem Sound.put {folder : String} {settings : Settings} (h : Sound folder settings) (key : String)
    {value : Json} (regular : Json.Regular True value) : Sound folder (settings.put key value) :=
  ⟨h.folder, h.covers.put key value, Table.forall_mem_put h.regular regular⟩

/-- All settings that can be held of a folder are sound. -/
theorem Held.sound {folder : String} {settings : Settings} (held : Held folder settings) :
    Sound folder settings := by
  induction held with
  | loaded meant loads => exact sound_of_loadFrom (load_of_folderOf meant ▸ loads)
  | changed _ lasting saved sound =>
    obtain ⟨rfl, -⟩ := saved_of_set saved
    exact sound.put _ (lasting.mono False.elim)

/-! ### The way back -/

/-- A save that goes well makes the folder and writes all settings, which are not nested too
deep. -/
theorem save_eq_ok_iff {settings : Settings} {host host' : Host} :
    settings.save host = (.ok (), host') ↔
      ∃ made tree, host.tree.makeDirectory host.directory settings.folder = .ok made ∧
        made.write host.directory (filePath settings.folder)
          (Json.object settings.values).indented = .ok tree ∧
        host' = { host with tree } ∧
        Json.frontWithin Json.maxNesting .outside 0 (Json.object settings.values).indented.toList =
          (Json.object settings.values).indented.toList := by
  simp only [save, makeFolder]
  constructor
  · intro saved
    split at saved
    · cases saved
    · next hmade =>
      split at hmade
      · next made hdirectory =>
        cases hmade
        split at saved
        · next tree hwritten =>
          obtain ⟨hresult, rfl⟩ := Prod.mk.inj saved
          split at hresult
          · next hwhole =>
            rw [hwhole, String.ofList_toList] at hwritten
            exact ⟨made, tree, hdirectory, hwritten, rfl, hwhole⟩
          · cases hresult
        · cases saved
      · cases hmade
  · rintro ⟨made, tree, hmade, hwritten, rfl, hwhole⟩
    rw [hmade]
    dsimp only
    rw [hwhole, String.ofList_toList, hwritten]
    dsimp only
    rw [if_pos rfl]

/-- The text of settings that last says what they are. -/
theorem parse_indented {values : Table String Json} (lasting : Json.Lasting (.object values))
    (nesting : Json.nesting .outside 0 (Json.object values).indented.toList ≤ Json.maxNesting) :
    Utf8.decodeFile? (Utf8.encode (Json.object values).indented) =
        some (Json.object values).indented ∧
      Json.parse (Json.object values).indented = .ok (.object values) := by
  refine ⟨Utf8.decodeFile?_encode fun h => ?_, ?_⟩
  · -- the text is ASCII with line feeds only, so no line end changes when it is read
    rw [Json.indented, String.toList_ofList] at h
    exact absurd (Json.printed_write lasting .indented 0 _ h) (by simp [Json.Printed])
  · rcases Json.parse_write lasting .indented with hparse | hdeep
    · exact hparse
    · exact absurd (Json.maxNesting_lt_of_parse hdeep) (Nat.not_lt.2 nesting)

/-- Sound settings whose values last are loaded as they were saved. -/
theorem loadFrom_of_save {folder : String} {settings : Settings} {host host' : Host}
    (sound : Sound folder settings) (lasting : Json.Lasting (.object settings.values))
    (saved : settings.save host = (.ok (), host')) :
    loadFrom host' folder = (.ok settings, host') := by
  obtain ⟨made, tree, hmade, hwritten, rfl, hwhole⟩ := save_eq_ok_iff.1 saved
  obtain ⟨hexists, hread⟩ := FileTree.read_of_write hwritten
  obtain ⟨hdecode, hparse⟩ := parse_indented lasting
    (Json.nesting_le_of_frontWithin (Nat.zero_le _) hwhole)
  -- the folder was made when the file was saved, so the load makes nothing and logs nothing
  have hfolder : makeFolder { host with tree } settings.folder = .ok { host with tree } := by
    rw [makeFolder, FileTree.makeDirectory_of_write hmade hwritten]
  have hpath : Host.pathExists { host with tree } (filePath settings.folder) = true := hexists
  have hcontent : readContent { host with tree } (filePath settings.folder) =
      .fields settings.values := by
    rw [readContent, hread]
    dsimp only
    rw [hdecode]
    dsimp only
    rw [hparse]
  rw [loadFrom]
  dsimp only
  rw [← sound.folder, hfolder]
  dsimp only
  rw [hpath, hcontent]
  dsimp only
  rw [sound.covers.defaults_update]
  rfl

/-- **Saved settings come back.** Whatever settings were loaded from a folder and however they were
changed since, what a change saves is what a fresh load from the folder gives, in the same order and
with all defaults among them. -/
theorem load_of_set {folder key : String} {settings later : Settings} {host host' : Host}
    {value : Json} (held : Held folder settings) (lasting : Json.Lasting value)
    (saved : settings.set host key value = (.ok (), later, host'))
    (floatless : ∀ field ∈ later.values, Json.Floatless field.2) :
    (∀ choice, folderOf host' choice = .ok folder → load host' choice = (.ok later, host')) ∧
      ∀ name ∈ defaults.keys, name ∈ later.values.keys := by
  have hsound := (held.changed lasting saved).sound
  have hlasting : Json.Lasting (.object later.values) :=
    .object hsound.covers.distinct fun field hfield =>
      (hsound.regular field hfield).lasting (floatless field hfield)
  refine ⟨fun choice meant => ?_, fun name hname => hsound.covers.order.subset hname⟩
  rw [load_of_folderOf meant]
  exact loadFrom_of_save hsound hlasting (saved_of_set saved).2

/-- A machine with nothing on it but a home directory that is named. -/
def barren : Host := { home := "/h" }

/-- A value with a line feed, a character beyond the first plane and empty parts. -/
def sampleValue : Json := .array [.text "\n𝄞", .int (-30), .object [("k", .null), ("", .array [])]]

/-- The sample value lasts. -/
theorem lasting_sampleValue : Json.Lasting sampleValue := by
  have hint : (-30 : Int).natAbs < 10 ^ Json.maxIntegerDigits :=
    Nat.lt_of_lt_of_le (by decide : 30 < 10 ^ 2) (Nat.pow_le_pow_right (by decide) (by decide))
  refine .array ?_
  simp only [List.forall_mem_cons]
  refine ⟨.text _, .int hint, .object (by decide) ?_, nofun⟩
  simp only [List.forall_mem_cons]
  exact ⟨.null, .array nofun, nofun⟩

/-- The sample value has no floating-point numbers. -/
theorem floatless_sampleValue : Json.Floatless sampleValue := by
  refine .array ?_
  simp only [List.forall_mem_cons]
  refine ⟨.text _, .int _, .object ?_, nofun⟩
  simp only [List.forall_mem_cons]
  exact ⟨.null, .array nofun, nofun⟩

/-- The defaults have no floating-point numbers. -/
theorem floatless_defaults : ∀ field ∈ defaults, Json.Floatless field.2 := by
  simp only [defaults, rewriteValue, List.forall_mem_cons]
  refine ⟨.text _, .text _, .object nofun, .array ?_, .bool true, nofun⟩
  simp only [List.forall_mem_cons]
  refine ⟨.array ?_, .array ?_, nofun⟩
  · simp only [List.forall_mem_cons]
    exact ⟨.text _, .text _, nofun⟩
  · simp only [List.forall_mem_cons]
    exact ⟨.text _, .text _, nofun⟩

/-- The settings of a user who has changed one. -/
def sampleSettings : Settings := Settings.put ⟨"/h/.asmbolt", defaults⟩ "demangler" sampleValue

/-- None of the sample settings has a floating-point number. -/
theorem floatless_sampleSettings : ∀ field ∈ sampleSettings.values, Json.Floatless field.2 := by
  have hfield : Json.Floatless (Prod.mk "demangler" sampleValue).2 := floatless_sampleValue
  exact Table.forall_mem_put floatless_defaults hfield

/-- The sample settings can be saved on the sample machine. -/
theorem exists_save_sampleSettings :
    ∃ tree, sampleSettings.save barren = (.ok (), { barren with tree }) := by
  obtain ⟨made, hmade, hwrite⟩ : ∃ made, barren.tree.makeDirectory "/" "/h/.asmbolt" = .ok made ∧
      ∀ text, ∃ tree, made.write "/" (filePath "/h/.asmbolt") text = .ok tree :=
    ⟨_, rfl, fun _ => ⟨_, rfl⟩⟩
  obtain ⟨tree, htree⟩ := hwrite (Json.object sampleSettings.values).indented
  refine ⟨tree, save_eq_ok_iff.2 ⟨made, tree, hmade, htree, rfl, ?_⟩⟩
  -- its brackets are not nested too deep
  rw [Json.indented, String.toList_ofList]
  decide +kernel

/-- A changed setting of a user without settings comes back. -/
theorem load_of_set_sample : ∃ later host',
    (⟨"/h/.asmbolt", defaults⟩ : Settings).set barren "demangler" sampleValue =
        (.ok (), later, host') ∧
      later.get? "demangler" = some sampleValue ∧ load host' none = (.ok later, host') := by
  have hmeant : folderOf barren none = .ok "/h/.asmbolt" := rfl
  have hheld : Held "/h/.asmbolt" ⟨"/h/.asmbolt", defaults⟩ := .loaded hmeant rfl
  obtain ⟨tree, hsave⟩ := exists_save_sampleSettings
  have hset : (⟨"/h/.asmbolt", defaults⟩ : Settings).set barren "demangler" sampleValue =
      (.ok (), sampleSettings, { barren with tree }) := by
    rw [set, ← sampleSettings, hsave]
  obtain ⟨hload, -⟩ := load_of_set hheld lasting_sampleValue hset floatless_sampleSettings
  have hget := get?_put_self ⟨"/h/.asmbolt", defaults⟩ "demangler" sampleValue
  have hsame : folderOf { barren with tree } none = folderOf barren none := rfl
  exact ⟨sampleSettings, { barren with tree }, hset, hget, hload none (hsame.trans hmeant)⟩

end Settings

end AsmScope
