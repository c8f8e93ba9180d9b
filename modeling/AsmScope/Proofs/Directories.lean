import AsmScope.Proofs.Paths
import Mathlib.Data.List.DropRight
/-! # What lies below a directory

A path in absolute normal form that begins with one slash is its own normal form, and so is the
directory that it lies in. What is joined to such a directory `base` gives such a path `p` exactly
if it is `p` itself or what is left of `p` after `base` and one slash (`join_eq_iff`): there is one
relative spelling of every path below a directory, and none of the others.

The canonical form of any path in normal form begins with one slash, and leads to where the path
leads (`Host.pathExists_canonical`). -/

namespace AsmScope

namespace Path

namespace Chars

/-! ### Paths with one leading slash -/

/-- A path without the slashes at its end. -/
abbrev withoutFinalSlashes (p : List Char) : List Char := p.rdropWhile (· == '/')

/-- A path with one slash at its root is this slash and the names with slashes between them. -/
theorem ofNames_one (names : List Name) : ofNames 1 names = '/' :: ['/'].intercalate names := rfl

/-- A normal path that does not begin with two slashes has one at its root. -/
theorem Normal.slashes_eq {slashes : Nat} {names : List Name} {p : List Char}
    (h : Normal slashes names p) (single : ¬['/', '/'] <+: p) : slashes = 1 := by
  obtain ⟨n, hn⟩ := Nat.exists_eq_add_of_lt h.rooted
  cases n with
  | zero => rw [hn]
  | succ n =>
    refine absurd ?_ single
    rw [h.eq, hn, ofNames]
    simp [List.replicate_succ]

/-- Joined names do not begin with a slash, since none of them is empty. -/
theorem ne_slash_of_proper {names : List Name} (h : ∀ name ∈ names, Proper name)
    {rest : List Char} :
    ['/'].intercalate names ≠ '/' :: rest := by
  cases names with
  | nil => exact nofun
  | cons name names =>
    obtain ⟨hnil, -, -, hplain⟩ := h name List.mem_cons_self
    -- the first name is not empty and has no slash
    cases name with
    | nil => exact absurd rfl hnil
    | cons c name =>
      have hc : c ≠ '/' := fun hc => hplain (hc ▸ List.mem_cons_self)
      cases names <;> simp [List.intercalate, hc]

/-- A path that is made of proper names with one slash at its root has no more there. -/
theorem rootSlashes_ofNames {names : List Name} (h : ∀ name ∈ names, Proper name) :
    rootSlashes (ofNames 1 names) = 1 := by
  rw [ofNames_one]
  generalize hrest : ['/'].intercalate names = rest
  cases rest with
  | nil => rfl
  | cons c rest =>
    have hc : c ≠ '/' := fun hc => ne_slash_of_proper h (hc ▸ hrest)
    unfold rootSlashes
    split <;> simp_all

/-- **A normal form is its own normal form.** -/
theorem Normal.normalize_eq {names : List Name} {p : List Char} (h : Normal 1 names p) :
    normalize p = p := by
  rw [normalize, h.normalNames_eq, h.eq, rootSlashes_ofNames h.proper]

/-! ### The directory of a file -/

/-- A path ends as its last name, and not with a slash; only the root does. -/
theorem withoutFinalSlashes_ofNames {names : List Name} (h : ∀ name ∈ names, Proper name) :
    withoutFinalSlashes (ofNames 1 names) = if names = [] then [] else ofNames 1 names := by
  rcases names.eq_nil_or_concat' with rfl | ⟨init, last, rfl⟩
  · rfl
  · obtain ⟨hnil, -, -, hplain⟩ := h last (by simp)
    -- the text ends in the last name, and so in none of the slashes
    have hends : ∃ front, ofNames 1 (init ++ [last]) = front ++ last := by
      by_cases hinit : init = []
      · subst hinit
        exact ⟨['/'], by simp [ofNames_one, List.intercalate]⟩
      · refine ⟨'/' :: ['/'].intercalate init ++ ['/'], ?_⟩
        rw [ofNames_one, Text.intercalate_concat '/' hinit]
        simp
    obtain ⟨front, hfront⟩ := hends
    rcases last.eq_nil_or_concat' with rfl | ⟨stem, c, rfl⟩
    · exact absurd rfl hnil
    · have hc : ¬(c == '/') = true := by
        rw [beq_iff_eq]
        rintro rfl
        exact hplain (by simp)
      rw [if_neg (by simp), hfront, ← List.append_assoc]
      exact List.rdropWhile_concat_neg _ _ _ hc

/-- What is below a directory follows it after one slash. -/
theorem ofNames_concat {names : List Name} (h : ∀ name ∈ names, Proper name) (last : Name) :
    ofNames 1 (names ++ [last]) = withoutFinalSlashes (ofNames 1 names) ++ '/' :: last := by
  rw [withoutFinalSlashes_ofNames h]
  split
  · next hnil =>
    subst hnil
    simp [ofNames_one, List.intercalate]
  · next hne => rw [ofNames_one, ofNames_one, Text.intercalate_concat '/' hne, List.cons_append]

/-- Cutting at the last slash takes the last name off. -/
theorem cutAtLastSlash_append (front : List Char) {last : Name} (plain : '/' ∉ last) :
    cutAtLastSlash (front ++ '/' :: last) = (front ++ ['/'], last) := by
  have hall : ∀ c ∈ last.reverse, (decide (c ≠ '/')) = true := by
    intro c hc
    rw [decide_eq_true_iff]
    rintro rfl
    exact plain (List.mem_reverse.1 hc)
  have htail : ((front ++ '/' :: last).reverse.takeWhile (· ≠ '/')).reverse = last := by
    rw [List.reverse_append, List.reverse_cons, List.append_assoc,
      List.takeWhile_append_of_pos hall]
    simp
  have hlength : (front ++ '/' :: last).length - last.length = (front ++ ['/']).length := by
    simp only [List.length_append, List.length_cons, List.length_nil]
    omega
  have hsplit : front ++ '/' :: last = (front ++ ['/']) ++ last := by simp
  rw [cutAtLastSlash, htail, hlength, hsplit, List.take_left]

/-- What precedes the last slash is the directory, unless it ends with a slash itself. -/
theorem split_append {front last : List Char} (ne : front ≠ [])
    (ends : withoutFinalSlashes front = front) (plain : '/' ∉ last) :
    split (front ++ '/' :: last) = (front, last) := by
  have hsome : (front ++ ['/']).all (· == '/') = false := by
    rw [Bool.eq_false_iff]
    intro hall
    -- slashes alone would all have been dropped
    have hempty : withoutFinalSlashes front = [] := by
      rw [withoutFinalSlashes, List.rdropWhile_eq_nil_iff]
      intro c hc
      exact List.all_eq_true.1 hall c (List.mem_append_left _ hc)
    exact ne (ends.symm.trans hempty)
  have hdropped : withoutFinalSlashes (front ++ ['/']) = front := by
    rw [withoutFinalSlashes, List.rdropWhile_concat_pos _ _ _ rfl]
    exact ends
  rw [split, cutAtLastSlash_append _ plain]
  dsimp only
  rw [hsome]
  exact congrArg (·, last) hdropped

/-- **The directory of a path in normal form is one**, with one name less. -/
theorem Normal.directory {names : List Name} {p : List Char} (h : Normal 1 names p) :
    Normal 1 names.dropLast (split p).1 := by
  refine ⟨Nat.one_pos, fun name hname => h.proper name (List.dropLast_subset _ hname), ?_⟩
  rcases names.eq_nil_or_concat' with rfl | ⟨init, last, rfl⟩
  · rw [h.eq]
    rfl
  · have hinit : ∀ name ∈ init, Proper name := fun name hname => h.proper name (by simp [hname])
    have hplain := (h.proper last (by simp)).plain
    have hkept := withoutFinalSlashes_ofNames hinit
    rw [h.eq, ofNames_concat hinit, List.dropLast_concat]
    by_cases hnil : init = []
    · -- the slash of the root belongs to the directory
      subst hnil
      rw [split, cutAtLastSlash_append _ hplain]
      rfl
    · rw [if_neg hnil] at hkept
      have hne : ofNames 1 init ≠ [] := List.cons_ne_nil _ _
      rw [hkept, split_append hne hkept hplain]

/-! ### What is joined to a directory -/

/-- A relative path is put after the directory and one slash. -/
theorem Normal.join_eq {names : List Name} {base : List Char} (h : Normal 1 names base)
    {key : List Char} (relative : Chars.isAbsolute key = false) :
    join base key = withoutFinalSlashes base ++ '/' :: key := by
  rw [join, relative, h.eq, withoutFinalSlashes_ofNames h.proper]
  by_cases hnil : names = []
  · subst hnil
    rfl
  · have hlast : ((ofNames 1 names).getLast? == some '/') = false := by
      have hkept := withoutFinalSlashes_ofNames h.proper
      rw [if_neg hnil, withoutFinalSlashes, List.rdropWhile_eq_self_iff] at hkept
      have hne : ofNames 1 names ≠ [] := List.cons_ne_nil _ _
      rw [List.getLast?_eq_some_getLast hne]
      simpa using hkept hne
    have hsome : (ofNames 1 names).isEmpty = false := rfl
    rw [hsome, hlast, if_neg hnil]
    rfl

/-- No two slashes follow each other. -/
theorem Normal.ne_double {names : List Name} {p : List Char} (h : Normal 1 names p)
    (front rest : List Char) : front ++ '/' :: '/' :: rest ≠ p := by
  intro heq
  have hp : Text.cutAt '/' p = [] :: Text.cutAt '/' (['/'].intercalate names) := by
    rw [h.eq, ofNames_one, Text.cutAt, if_pos rfl]
  rw [← heq, Text.cutAt_append_cons, Text.cutAt, if_pos rfl] at hp
  cases hfront : Text.cutAt '/' front with
  | nil => exact Text.cutAt_ne_nil _ _ hfront
  | cons first pieces =>
    rw [hfront, List.cons_append, List.cons.injEq] at hp
    -- between the two slashes there is an empty piece, which is none of the names
    by_cases hnil : names = []
    · subst hnil
      have hlength := congrArg List.length hp.2
      have hrest := List.length_pos_iff.2 (Text.cutAt_ne_nil '/' rest)
      simp [List.intercalate, Text.cutAt] at hlength
      omega
    · rw [Text.cutAt_intercalate hnil fun name hname => (h.proper name hname).plain] at hp
      have hmem : [] ∈ names := by
        rw [← hp.2]
        simp
      exact (h.proper [] hmem).ne_nil rfl

/-- **What is joined to a directory and gives a path** is the path itself or the one relative path
that leads to it from there. -/
theorem join_eq_iff {names below : List Name} {base p : List Char} (hbase : Normal 1 names base)
    (hp : Normal 1 below p) (key : List Char) :
    join base key = p ↔ withoutFinalSlashes base ++ '/' :: key = p ∨ key = p := by
  cases habsolute : isAbsolute key with
  | true =>
    obtain ⟨rest, rfl⟩ := exists_cons_of_isAbsolute habsolute
    have hdouble : withoutFinalSlashes base ++ '/' :: '/' :: rest ≠ p := hp.ne_double _ _
    have hjoin : join base ('/' :: rest) = '/' :: rest := if_pos habsolute
    rw [hjoin, or_iff_right hdouble]
  | false =>
    have hother : key ≠ p := by
      rintro rfl
      rw [hp.isAbsolute] at habsolute
      cases habsolute
    rw [hbase.join_eq habsolute, or_iff_left hother]

/-! ### The canonical form -/

/-- The canonical form of a path in normal form is in normal form after a single slash. -/
theorem Normal.resolve {slashes : Nat} {names : List Name} {p : List Char}
    (h : Normal slashes names p) (directory : List Char) :
    Normal 1 names (Chars.resolve directory p) := by
  refine ⟨Nat.one_pos, h.proper, ?_⟩
  have hjoin : join directory p = p := if_pos h.isAbsolute
  obtain ⟨n, hn⟩ := Nat.exists_eq_add_of_lt (rootSlashes_pos h.isAbsolute)
  -- what stands behind the slashes begins with a name, so dropping them stops there
  have hdrop : ∀ n, (List.replicate n '/' ++ ['/'].intercalate names).dropWhile (· == '/') =
      ['/'].intercalate names := by
    intro n
    induction n with
    | zero =>
      change (['/'].intercalate names).dropWhile (· == '/') = _
      generalize hrest : ['/'].intercalate names = rest
      cases rest with
      | nil => rfl
      | cons c rest =>
        have hc : c ≠ '/' := fun hc => ne_slash_of_proper h.proper (hc ▸ hrest)
        rw [List.dropWhile_cons_of_neg (by simpa using hc)]
    | succ n ih => exact ih
  rw [Chars.resolve, absolute, hjoin, normalize, h.normalNames_eq, hn, ofNames]
  split
  · next hempty => simp at hempty
  · rw [hdrop, ofNames_one]

end Chars

end Path

/-- A path and its canonical form lead to the same place. -/
theorem Host.pathExists_canonical {p : String} (h : Path.Normal p) (host : Host) :
    host.pathExists (host.canonical p) = host.pathExists p := by
  obtain ⟨slashes, names, hp⟩ := h
  have hcanonical : Path.Chars.Normal 1 names (host.canonical p).toList := by
    rw [canonical, Path.resolve, String.toList_ofList]
    exact hp.resolve host.directory.toList
  rw [pathExists, pathExists, FileTree.at?, FileTree.at?, FileTree.resolve_of_normal _ hcanonical,
    FileTree.resolve_of_normal _ hp]

end AsmScope
