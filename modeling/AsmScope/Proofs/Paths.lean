import AsmScope.Host.Basic
/-! # Absolute paths

The absolute form of a path begins at the root, wherever it is read from, if only the working
directory does; and the canonical form of such a path does not depend on the working directory.

After the root, a path in absolute normal form consists of names that are not empty, not `.` and not
`..` (`Normal`). Its canonical form keeps these names and forgets how many slashes stand before
them, and so does the disk: paths with one canonical form lead to one file. -/

namespace AsmScope

namespace Path

namespace Chars

/-- A path that begins with a slash is absolute. -/
theorem isAbsolute_cons (p : List Char) : isAbsolute ('/' :: p) = true := rfl

/-- An absolute path begins with a slash. -/
theorem exists_cons_of_isAbsolute {p : List Char} (h : isAbsolute p) : ∃ rest, p = '/' :: rest := by
  cases p with
  | nil => cases h
  | cons c rest =>
    have hc : c = '/' := by simpa [isAbsolute] using h
    exact ⟨rest, by rw [hc]⟩

/-- What is joined to an absolute path is absolute. -/
theorem isAbsolute_join {base : List Char} (h : isAbsolute base) (p : List Char) :
    isAbsolute (join base p) := by
  obtain ⟨rest, rfl⟩ := exists_cons_of_isAbsolute h
  unfold join
  split
  · assumption
  · split <;> exact isAbsolute_cons _

/-- An absolute path has a slash at its root. -/
theorem rootSlashes_pos {p : List Char} (h : isAbsolute p) : 0 < rootSlashes p := by
  obtain ⟨rest, rfl⟩ := exists_cons_of_isAbsolute h
  unfold rootSlashes
  split <;> simp_all

/-- A path that is made with a slash at its root is absolute. -/
theorem isAbsolute_ofNames {slashes : Nat} (h : 0 < slashes) (names : List Name) :
    isAbsolute (ofNames slashes names) := by
  obtain ⟨n, rfl⟩ := Nat.exists_eq_add_of_lt h
  simp [ofNames, List.replicate_succ, isAbsolute_cons]

/-- The absolute form is absolute. -/
theorem isAbsolute_absolute {directory : List Char} (h : isAbsolute directory) (p : List Char) :
    isAbsolute (absolute directory p) :=
  isAbsolute_ofNames (rootSlashes_pos (isAbsolute_join h p)) _

/-- An absolute path leads to the same place from everywhere. -/
theorem resolve_eq_of_isAbsolute {p : List Char} (h : isAbsolute p) (here there : List Char) :
    resolve here p = resolve there p := by
  simp [resolve, absolute, join, h]

/-! ### Names of normal forms -/

/-- A name that leads one step down. -/
structure Proper (name : Name) : Prop where
  ne_nil : name ≠ []
  ne_here : name ≠ ['.']
  ne_up : name ≠ ['.', '.']
  plain : '/' ∉ name

/-- A path in absolute normal form. -/
structure Normal (slashes : Nat) (names : List Name) (p : List Char) : Prop where
  rooted : 0 < slashes
  proper : ∀ name ∈ names, Proper name
  eq : p = ofNames slashes names

/-- A proper name leads one step down. -/
theorem addName_of_proper {name : Name} (h : Proper name) (rooted : Bool) (names : List Name) :
    addName rooted names name = name :: names := by
  have hplain : ¬(name = [] ∨ name = ['.']) := not_or.2 ⟨h.ne_nil, h.ne_here⟩
  unfold addName
  rw [if_neg hplain, if_neg h.ne_up]

/-- Proper names lead down one after the other. -/
theorem foldl_addName_of_proper (rooted : Bool) {names : List Name}
    (h : ∀ name ∈ names, Proper name) (before : List Name) :
    names.foldl (addName rooted) before = names.reverse ++ before := by
  induction names generalizing before with
  | nil => rfl
  | cons name names ih =>
    have hname := h name List.mem_cons_self
    have hnames := ih (fun other hother => h other (List.mem_cons_of_mem _ hother)) (name :: before)
    rw [List.foldl_cons, addName_of_proper hname, hnames, List.reverse_cons, List.append_assoc,
      List.singleton_append]

/-- From the root on, only names that lead down are left. -/
theorem proper_addName {names : List Name} (h : ∀ name ∈ names, Proper name) {name : Name}
    (plain : '/' ∉ name) : ∀ other ∈ addName true names name, Proper other := by
  unfold addName
  split
  · exact h
  · next hplain =>
    obtain ⟨hnil, hhere⟩ := not_or.1 hplain
    split
    · -- `..` takes the last name away, which is none that leads up
      cases names with
      | nil => exact fun other hother => absurd hother List.not_mem_nil
      | cons last rest =>
        have hlast := (h last List.mem_cons_self).ne_up
        simp only [hlast, ↓reduceIte]
        exact fun other hother => h other (List.mem_cons_of_mem _ hother)
    · next hup =>
      intro other hother
      rcases List.mem_cons.1 hother with rfl | hother
      · exact ⟨hnil, hhere, hup, plain⟩
      · exact h other hother

/-- The names in the normal form of an absolute path are proper. -/
theorem proper_normalNames {p : List Char} (h : isAbsolute p) :
    ∀ name ∈ normalNames p, Proper name := by
  have hfold : ∀ pieces : List Name, (∀ piece ∈ pieces, '/' ∉ piece) → ∀ names : List Name,
      (∀ name ∈ names, Proper name) → ∀ name ∈ pieces.foldl (addName true) names, Proper name := by
    intro pieces
    induction pieces with
    | nil => exact fun _ names hnames => hnames
    | cons piece pieces ih =>
      intro hplain names hnames
      have hpiece := hplain piece List.mem_cons_self
      exact ih (fun other hother => hplain other (List.mem_cons_of_mem _ hother)) _
        (proper_addName hnames hpiece)
  have hrooted : decide (0 < rootSlashes p) = true := decide_eq_true (rootSlashes_pos h)
  intro name hname
  rw [normalNames, hrooted, List.mem_reverse] at hname
  exact hfold _ (fun piece hpiece => Text.not_mem_of_mem_cutAt hpiece) [] nofun name hname

/-- What is written as an absolute normal form is one. -/
theorem normal_normalize {p : List Char} (h : isAbsolute p) :
    Normal (rootSlashes p) (normalNames p) (normalize p) :=
  ⟨rootSlashes_pos h, proper_normalNames h, rfl⟩

/-- The absolute form of a path is normal, if the directory from which it starts is absolute. -/
theorem normal_absolute {directory : List Char} (h : isAbsolute directory) (p : List Char) :
    ∃ slashes names, Normal slashes names (absolute directory p) :=
  ⟨_, _, normal_normalize (isAbsolute_join h p)⟩

namespace Normal

variable {slashes : Nat} {names : List Name} {p : List Char}

/-- A normal path is absolute. -/
theorem isAbsolute (h : Normal slashes names p) : Chars.isAbsolute p := by
  rw [h.eq]
  exact isAbsolute_ofNames h.rooted names

/-- The pieces between slashes: empty ones for the root, and then the names. -/
theorem cutAt_eq (h : Normal slashes names p) :
    ∃ n, Text.cutAt '/' p = List.replicate n [] ++ names := by
  -- every slash in front cuts off an empty piece
  have hslashes : ∀ (n : Nat) (rest : List Char),
      Text.cutAt '/' (List.replicate n '/' ++ rest) =
        List.replicate n [] ++ Text.cutAt '/' rest := by
    intro n rest
    induction n with
    | zero => rfl
    | succ n ih => simp only [List.replicate_succ, List.cons_append, Text.cutAt, ↓reduceIte, ih]
  have hp : p = List.replicate slashes '/' ++ ['/'].intercalate names := by
    obtain ⟨n, hn⟩ := Nat.exists_eq_add_of_lt h.rooted
    rw [h.eq, hn]
    simp [ofNames, List.replicate_succ]
  rw [hp, hslashes]
  -- with no names the last piece is empty as well
  by_cases hnames : names = []
  · subst hnames
    exact ⟨slashes + 1, by rw [List.replicate_succ', List.append_nil]; rfl⟩
  · have hplain : ∀ name ∈ names, '/' ∉ name := fun name hname => (h.proper name hname).plain
    exact ⟨slashes, by rw [Text.cutAt_intercalate hnames hplain]⟩

/-- The names of a path in normal form are those of which it is made. -/
theorem plainNames_eq (h : Normal slashes names p) : plainNames p = names := by
  obtain ⟨n, hn⟩ := h.cutAt_eq
  have hroot : (List.replicate n ([] : Name)).filter (fun name => !name.isEmpty) = [] := by
    rw [List.filter_replicate, if_neg (by decide)]
  have hnames : names.filter (fun name => !name.isEmpty) = names := by
    rw [List.filter_eq_self]
    intro name hname
    cases name with
    | nil => exact absurd rfl (h.proper [] hname).ne_nil
    | cons => rfl
  rw [plainNames, hn, List.filter_append, hroot, hnames, List.nil_append]

/-- The names of a path in normal form stay the same when it is brought to normal form. -/
theorem normalNames_eq (h : Normal slashes names p) : normalNames p = names := by
  obtain ⟨n, hn⟩ := h.cutAt_eq
  have hroot : ∀ rooted (n : Nat),
      (List.replicate n ([] : Name)).foldl (addName rooted) [] = [] := by
    intro rooted n
    induction n with
    | zero => rfl
    | succ n ih =>
      have hskip : addName rooted [] [] = [] := if_pos (.inl rfl)
      rw [List.replicate_succ, List.foldl_cons, hskip, ih]
  rw [normalNames, hn, List.foldl_append, hroot, foldl_addName_of_proper _ h.proper,
    List.append_nil, List.reverse_reverse]

/-- The canonical form of a path in normal form has the same names. -/
theorem plainNames_resolve (h : Normal slashes names p) (directory : List Char) :
    plainNames (resolve directory p) = names := by
  have hslash : ∀ q, plainNames ('/' :: q) = plainNames q := fun _ => rfl
  have hdrop : ∀ q : List Char, plainNames (q.dropWhile (· == '/')) = plainNames q := by
    intro q
    induction q with
    | nil => rfl
    | cons c q ih =>
      by_cases hc : c = '/'
      · subst hc
        exact ih
      · rw [List.dropWhile_cons_of_neg (by simpa using hc)]
  have hjoin : join directory p = p := if_pos h.isAbsolute
  have hnormal := normal_normalize h.isAbsolute
  rw [resolve, hslash, hdrop, absolute, hjoin, hnormal.plainNames_eq, h.normalNames_eq]

end Normal

end Chars

/-- The absolute form of a path is absolute. -/
theorem isAbsolute_absolute {directory : String} (h : isAbsolute directory) (p : String) :
    isAbsolute (absolute directory p) := by
  simpa [isAbsolute, absolute] using Chars.isAbsolute_absolute h p.toList

/-- The canonical form of an absolute path is the same everywhere. -/
theorem resolve_eq_of_isAbsolute {p : String} (h : isAbsolute p) (here there : String) :
    resolve here p = resolve there p := by
  simp only [resolve, Chars.resolve_eq_of_isAbsolute h here.toList there.toList]

/-- A path in absolute normal form. -/
def Normal (p : String) : Prop := ∃ slashes names, Chars.Normal slashes names p.toList

/-- The absolute form of a path is normal. -/
theorem normal_absolute {directory : String} (h : isAbsolute directory) (p : String) :
    Normal (absolute directory p) := by
  rw [Normal, absolute, String.toList_ofList]
  exact Chars.normal_absolute h p.toList

/-- A normal path is absolute. -/
theorem Normal.isAbsolute {p : String} (h : Normal p) : Path.isAbsolute p := by
  obtain ⟨slashes, names, hnormal⟩ := h
  exact hnormal.isAbsolute

/-- A normal path is not empty. -/
theorem Normal.isEmpty_eq {p : String} (h : Normal p) : p.isEmpty = false := by
  have habsolute := h.isAbsolute
  rw [Bool.eq_false_iff]
  intro hempty
  rw [String.isEmpty_iff.1 hempty] at habsolute
  cases habsolute

end Path

namespace FileTree

variable (tree : FileTree)

/-- Empty names lead nowhere from where one stands. -/
theorem walk_replicate_nil (here : Location) (n : Nat) (names : List Path.Name) :
    tree.walk here (List.replicate n [] ++ names) = tree.walk here names := by
  induction n with
  | zero => rfl
  | succ n ih =>
    rw [List.replicate_succ, List.cons_append, walk, if_pos (.inl rfl)]
    exact ih

/-- A path in normal form leads from the root down its names. -/
theorem resolve_of_normal {slashes : Nat} {names : List Path.Name} {p : String}
    (h : Path.Chars.Normal slashes names p.toList) (directory : String) :
    tree.resolve directory p = tree.walk [] names := by
  have hnormal : Path.Normal p := ⟨slashes, names, h⟩
  have hjoin : Path.Chars.join directory.toList p.toList = p.toList := if_pos h.isAbsolute
  obtain ⟨n, hn⟩ := h.cutAt_eq
  rw [resolve, hnormal.isEmpty_eq, hjoin, hn, walk_replicate_nil]
  rfl

/-- **Paths with one canonical form lead to one file.** -/
theorem read_of_resolve_eq {directory p q : String} (hp : Path.Normal p) (hq : Path.Normal q)
    (same : Path.resolve directory p = Path.resolve directory q) {content : Bytes}
    (h : tree.read directory p = .ok content) : tree.read directory q = .ok content := by
  obtain ⟨_, names, hp⟩ := hp
  obtain ⟨_, others, hq⟩ := hq
  have hsame : Path.Chars.resolve directory.toList p.toList =
      Path.Chars.resolve directory.toList q.toList := String.ofList_injective same
  have hnames : names = others := by
    rw [← hp.plainNames_resolve directory.toList, hsame, hq.plainNames_resolve]
  subst hnames
  rw [read, resolve_of_normal tree hp] at h
  rw [read, resolve_of_normal tree hq]
  -- the paths differ in the errors only
  revert h
  cases tree.walk [] names with
  | error => exact nofun
  | ok location =>
    dsimp only
    split
    · exact nofun
    · exact nofun
    · split
      · exact nofun
      · exact id

end FileTree

end AsmScope
