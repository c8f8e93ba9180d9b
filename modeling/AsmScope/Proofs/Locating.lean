import AsmScope.Demangler
import AsmScope.Proofs.Directories
import Mathlib.Data.List.Infix
/-! # Which demangler is found, and for how long

What a search finds is said without the search: `Nearby` of an entry of the searched directory,
`Guessed` of a path that is made from the compiler's, and `Demangles` of the two and the bare name
in their order. Every stage of the search finds exactly what is said of it
(`searchDirectory_eq_some_iff`, `guess?_eq_some_iff`, `find_eq_iff`). A locator keeps what it was
told first (`Remembers`), so a whole run of calls is settled by the first one for each compiler,
whatever happens to the host between them. -/

namespace AsmScope

open AsmScope.Path

namespace Text

universe u

variable {α : Type u}

/-- A text around the first occurrence of a pattern. -/
structure FirstOccurrence (pattern text front back : List α) : Prop where
  eq : text = front ++ pattern ++ back
  first : ∀ front' back', text = front' ++ pattern ++ back' → front.length ≤ front'.length

/-- A pattern has one first occurrence. -/
theorem FirstOccurrence.eq_of {pattern text front back front' back' : List α}
    (h : FirstOccurrence pattern text front back)
    (h' : FirstOccurrence pattern text front' back') : front = front' ∧ back = back' := by
  have hlength := Nat.le_antisymm (h.first _ _ h'.eq) (h'.first _ _ h.eq)
  have heq := h.eq.symm.trans h'.eq
  rw [List.append_assoc, List.append_assoc] at heq
  obtain ⟨hfront, hrest⟩ := List.append_inj heq hlength
  exact ⟨hfront, List.append_cancel_left hrest⟩

variable [BEq α] [LawfulBEq α]

/-- Looking for a pattern tells whether it occurs. -/
theorem occursIn_iff (pattern text : List α) : occursIn pattern text ↔ pattern <:+: text := by
  induction text with
  | nil => simp [occursIn, List.isEmpty_iff]
  | cons c rest ih =>
    rw [occursIn, Bool.or_eq_true, ih, List.isPrefixOf_iff_prefix, List.infix_cons_iff]

/-- A pattern that occurs has a first occurrence, and this is the one that is replaced. -/
theorem exists_firstOccurrence {pattern text : List α} (ne : pattern ≠ [])
    (occurs : pattern <:+: text) (replacement : List α) :
    ∃ front back, FirstOccurrence pattern text front back ∧
      replaceFirst pattern replacement text = front ++ replacement ++ back := by
  induction text with
  | nil => exact absurd (List.infix_nil.1 occurs) ne
  | cons c rest ih =>
    rw [replaceFirst]
    -- the first place is here, or the first one in the rest
    by_cases hprefix : pattern.isPrefixOf (c :: rest)
    · obtain ⟨back, hback⟩ := List.isPrefixOf_iff_prefix.1 hprefix
      refine ⟨[], back, ⟨by rw [List.nil_append, hback], fun _ _ _ => Nat.zero_le _⟩, ?_⟩
      rw [if_pos hprefix, ← hback, List.drop_left, List.nil_append]
    · have hnot : ¬pattern <+: c :: rest := fun h => hprefix (List.isPrefixOf_iff_prefix.2 h)
      obtain ⟨front, back, hfirst, hreplaced⟩ :=
        ih ((List.infix_cons_iff.1 occurs).resolve_left hnot)
      refine ⟨c :: front, back, ⟨by rw [hfirst.eq]; rfl, ?_⟩, ?_⟩
      · intro front' back' heq
        cases front' with
        | nil => exact absurd ⟨back', by rw [heq]; rfl⟩ hnot
        | cons c' front' =>
          exact Nat.succ_le_succ (hfirst.first front' back' (List.cons.inj heq).2)
      · rw [if_neg hprefix, hreplaced]
        rfl

end Text

namespace Demangler

/-! ### What is searched for -/

/-- The directories that are searched for a compiler: its own, or for a bare name that of the
executable on the search path. -/
inductive SearchedIn (host : Host) (compiler : String) : String → Prop
  | own (h : directoryOf compiler ≠ "") : SearchedIn host compiler (directoryOf compiler)
  | found {path : String} (h : directoryOf compiler = "") (hit : host.which? compiler = some path) :
    SearchedIn host compiler (directoryOf path)

/-- The entry that is chosen: the one with exactly the wanted name, else the first one in the order
of code points that ends with it. -/
def Chosen (entries : List String) (suffix entry : String) : Prop :=
  entry ∈ entries ∧
    (entry = suffix ∨ suffix ∉ entries ∧ suffix.toList <:+ entry.toList ∧
      ∀ other ∈ entries, suffix.toList <:+ other.toList → ¬other < entry)

/-- The extension of a compiler's name. -/
def extensionOf (compiler : String) : String := (splitExtension (nameOf compiler)).2

/-- The compiler's name without its extension. -/
def stemOf (compiler : String) : String := (splitExtension (nameOf compiler)).1

/-- A demangler in the directory that is searched, by its absolute path. -/
def Nearby (host : Host) (name compiler answer : String) : Prop :=
  ∃ directory entries entry, SearchedIn host compiler directory ∧
    host.tree.list host.directory directory = .ok entries ∧
    Chosen entries (name ++ extensionOf compiler) entry ∧
    answer = host.absolute (join directory entry)

/-- A path that leads to something, made by giving the compiler another last name: the one with the
demangler's name in the place of the first occurrence of the fragment of highest priority. How a
path gets another last name is left open. -/
def Guessed (rename : String → String → String) (host : Host) (name compiler answer : String) :
    Prop :=
  ∃ higher fragment lower front back,
    compilerFragments = higher ++ fragment :: lower ∧
    (∀ other ∈ higher, ¬other.toList <:+: (stemOf compiler).toList) ∧
    Text.FirstOccurrence fragment.toList (stemOf compiler).toList front back ∧
    answer = rename compiler
      (String.ofList (front ++ name.toList ++ back) ++ extensionOf compiler) ∧
    host.pathExists answer

/-- The demangler for a compiler: one nearby, else a guess, else the bare name. -/
def Demangles (rename : String → String → String) (host : Host) (name compiler answer : String) :
    Prop :=
  Nearby host name compiler answer ∨
    (∀ other, ¬Nearby host name compiler other) ∧
      (Guessed rename host name compiler answer ∨
        (∀ other, ¬Guessed rename host name compiler other) ∧ answer = name)

/-- A path with another last name: the name as seen from the directory of the path. -/
def renameBeside (path last : String) : String := join (directoryOf path) last

/-- A path with another last name: what precedes its own stays as it is written. -/
def renameInPlace (path last : String) : String :=
  String.ofList ((Chars.cutAtLastSlash path.toList).1 ++ last.toList)

/-! ### What the search finds -/

/-- A text ends with another one if its characters end with those. -/
theorem endsWith_iff (text suffix : String) :
    endsWith text suffix ↔ suffix.toList <:+ text.toList :=
  List.isSuffixOf_iff_suffix

/-- What a search for the least name has found so far. -/
theorem foldl_least (rest : List String) (best : String) :
    let least := rest.foldl (fun best next => if next < best then next else best) best
    least ∈ best :: rest ∧ ∀ other ∈ best :: rest, least ≤ other := by
  -- induction on what is left, with the least so far as the start of the fold
  induction rest generalizing best with
  | nil =>
    refine ⟨List.mem_singleton_self _, fun other hother => ?_⟩
    rw [List.mem_singleton.1 hother]
    exact String.le_refl best
  | cons next rest ih =>
    obtain ⟨hmem, hleast⟩ := ih (if next < best then next else best)
    rw [List.foldl_cons]
    by_cases hbelow : next < best
    · rw [if_pos hbelow] at hmem hleast ⊢
      refine ⟨List.mem_cons_of_mem _ hmem, fun other hother => ?_⟩
      rcases List.mem_cons.1 hother with rfl | hother
      · exact String.le_trans (hleast next List.mem_cons_self)
          (String.not_lt.1 (String.lt_asymm hbelow))
      · exact hleast other hother
    · rw [if_neg hbelow] at hmem hleast ⊢
      have hbest := hleast best List.mem_cons_self
      refine ⟨?_, fun other hother => ?_⟩
      · rcases List.mem_cons.1 hmem with hmem | hmem
        · exact List.mem_cons.2 (.inl hmem)
        · exact List.mem_cons_of_mem _ (List.mem_cons_of_mem _ hmem)
      · rcases List.mem_cons.1 hother with rfl | hother
        · exact hbest
        · rcases List.mem_cons.1 hother with rfl | hother
          · exact String.le_trans hbest (String.not_lt.1 hbelow)
          · exact hleast other (List.mem_cons_of_mem _ hother)

/-- The least of some names is the one before which no other comes. -/
theorem least?_eq_some_iff (names : List String) (name : String) :
    least? names = some name ↔ name ∈ names ∧ ∀ other ∈ names, ¬other < name := by
  cases names with
  | nil => simp [least?]
  | cons first rest =>
    obtain ⟨hmem, hleast⟩ := foldl_least rest first
    simp only [least?, Option.some.injEq]
    constructor
    · rintro rfl
      exact ⟨hmem, fun other hother => String.not_lt.2 (hleast other hother)⟩
    · rintro ⟨hname, hbelow⟩
      exact String.le_antisymm (hleast _ hname) (String.not_lt.1 (hbelow _ hmem))

/-- The search takes the entry that is to be chosen. -/
theorem chosen_iff (entries : List String) (suffix entry : String) :
    (if suffix ∈ entries then some suffix
      else least? (entries.filter fun e => endsWith e suffix)) = some entry ↔
      Chosen entries suffix entry := by
  by_cases hexact : suffix ∈ entries
  · rw [if_pos hexact, Option.some.injEq]
    constructor
    · rintro rfl
      exact ⟨hexact, .inl rfl⟩
    · rintro ⟨-, heq | ⟨hnot, -⟩⟩
      · exact heq.symm
      · exact absurd hexact hnot
  · rw [if_neg hexact, least?_eq_some_iff, List.mem_filter, endsWith_iff]
    constructor
    · rintro ⟨⟨hmem, hends⟩, hleast⟩
      exact ⟨hmem, .inr ⟨hexact, hends, fun other hother hsuffix =>
        hleast other (List.mem_filter.2 ⟨hother, (endsWith_iff _ _).2 hsuffix⟩)⟩⟩
    · rintro ⟨hmem, rfl | ⟨-, hends, hleast⟩⟩
      · exact absurd hmem hexact
      · refine ⟨⟨hmem, hends⟩, fun other hother => ?_⟩
        obtain ⟨hother, hsuffix⟩ := List.mem_filter.1 hother
        exact hleast other hother ((endsWith_iff _ _).1 hsuffix)

/-- A directory has an answer exactly if it can be listed and an entry is chosen there. -/
theorem searchDirectory_eq_some_iff (host : Host) (directory suffix answer : String) :
    searchDirectory host directory suffix = some answer ↔
      ∃ entries entry, host.tree.list host.directory directory = .ok entries ∧
        Chosen entries suffix entry ∧ answer = host.absolute (join directory entry) := by
  unfold searchDirectory
  cases hlist : host.tree.list host.directory directory with
  | error error => simp
  | ok entries =>
    rw [Option.map_eq_some_iff]
    constructor
    · rintro ⟨entry, hchosen, rfl⟩
      exact ⟨entries, entry, rfl, (chosen_iff _ _ _).1 hchosen, rfl⟩
    · rintro ⟨_, entry, hentries, hchosen, rfl⟩
      obtain rfl := Except.ok.inj hentries
      exact ⟨entry, (chosen_iff _ _ _).2 hchosen, rfl⟩

/-- The empty path leads nowhere, so it does not matter that it is not searched. -/
theorem list_empty (tree : FileTree) (directory : String) :
    tree.list directory "" = .error ⟨.noEntry, some ""⟩ := rfl

/-- The directory in which is searched is that of the compiler, unless it has none. -/
theorem searchDirectory?_eq_some_iff (host : Host) (compiler directory : String) :
    searchDirectory? host compiler = some directory ↔
      SearchedIn host compiler directory ∧ directory ≠ "" := by
  unfold searchDirectory?
  -- a compiler with no directory of its own is searched for along PATH
  by_cases hown : directoryOf compiler = ""
  · rw [hown, if_pos (by rfl), Option.filter_eq_some_iff, Option.map_eq_some_iff]
    constructor
    · rintro ⟨⟨path, hit, rfl⟩, hne⟩
      exact ⟨.found hown hit, by simpa using hne⟩
    · rintro ⟨hsearched, hne⟩
      cases hsearched with
      | own h => exact absurd hown h
      | found h hit => exact ⟨⟨_, hit, rfl⟩, by simpa using hne⟩
  · have hempty : (directoryOf compiler).isEmpty = false := by simpa using hown
    dsimp only
    rw [hempty, if_neg Bool.false_ne_true, Option.some.injEq]
    constructor
    · rintro rfl
      exact ⟨.own hown, hown⟩
    · rintro ⟨hsearched, -⟩
      cases hsearched with
      | own h => rfl
      | found h hit => exact absurd h hown

/-- The first stage finds what is nearby. -/
theorem nearby_iff (host : Host) (name compiler answer : String) :
    ((searchDirectory? host compiler).bind fun directory =>
        searchDirectory host directory (name ++ extensionOf compiler)) = some answer ↔
      Nearby host name compiler answer := by
  rw [Option.bind_eq_some_iff]
  constructor
  · rintro ⟨directory, hsearched, hfound⟩
    obtain ⟨entries, entry, hlist, hchosen, heq⟩ := (searchDirectory_eq_some_iff ..).1 hfound
    exact ⟨directory, entries, entry, ((searchDirectory?_eq_some_iff ..).1 hsearched).1, hlist,
      hchosen, heq⟩
  · rintro ⟨directory, entries, entry, hsearched, hlist, hchosen, heq⟩
    have hne : directory ≠ "" := by
      rintro rfl
      rw [list_empty] at hlist
      cases hlist
    exact ⟨directory, (searchDirectory?_eq_some_iff ..).2 ⟨hsearched, hne⟩,
      (searchDirectory_eq_some_iff ..).2 ⟨entries, entry, hlist, hchosen, heq⟩⟩

/-- The fragment that is replaced occurs in the name, and none of higher priority does. -/
theorem fragmentIn?_eq_some_iff (name fragment : String) :
    fragmentIn? name = some fragment ↔ fragment.toList <:+: name.toList ∧
      ∃ higher lower, compilerFragments = higher ++ fragment :: lower ∧
        ∀ other ∈ higher, ¬other.toList <:+: name.toList := by
  simp only [fragmentIn?, List.find?_eq_some_iff_append, Text.occursIn_iff, Bool.not_eq_true',
    ← Bool.not_eq_true]

/-- No fragment is empty. -/
theorem ne_nil_of_compilerFragments {higher lower : List String} {fragment : String}
    (h : compilerFragments = higher ++ fragment :: lower) : fragment.toList ≠ [] := by
  have hall : ∀ other ∈ compilerFragments, other.toList ≠ [] := by decide
  exact hall fragment (h ▸ List.mem_append_right _ List.mem_cons_self)

/-- The second stage finds what is guessed, next to the compiler. -/
theorem guess?_eq_some_iff (host : Host) (name compiler answer : String) :
    guess? host name compiler = some answer ↔
      Guessed renameBeside host name compiler answer := by
  have hguess : guess? host name compiler = (fragmentIn? (stemOf compiler)).bind fun fragment =>
      let path := renameBeside compiler (String.ofList (Text.replaceFirst fragment.toList
        name.toList (stemOf compiler).toList) ++ extensionOf compiler)
      if host.pathExists path then some path else none := by
    unfold guess? stemOf extensionOf renameBeside
    cases splitExtension (nameOf compiler)
    rfl
  rw [hguess, Option.bind_eq_some_iff]
  constructor
  · rintro ⟨fragment, hfragment, hpath⟩
    -- the fragment is the first of the table that occurs in the stem
    obtain ⟨hoccurs, higher, lower, hsplit, hhigher⟩ := (fragmentIn?_eq_some_iff ..).1 hfragment
    obtain ⟨front, back, hfirst, hreplaced⟩ := Text.exists_firstOccurrence
      (ne_nil_of_compilerFragments hsplit) hoccurs name.toList
    dsimp only at hpath
    rw [hreplaced] at hpath
    obtain ⟨hexists, heq⟩ := Option.ite_none_right_eq_some.1 hpath
    obtain rfl := Option.some.inj heq
    exact ⟨higher, fragment, lower, front, back, hsplit, hhigher, hfirst, rfl, hexists⟩
  · rintro ⟨higher, fragment, lower, front, back, hsplit, hhigher, hfirst, rfl, hexists⟩
    have hoccurs : fragment.toList <:+: (stemOf compiler).toList := ⟨front, back, hfirst.eq.symm⟩
    obtain ⟨front', back', hfirst', hreplaced⟩ := Text.exists_firstOccurrence
      (ne_nil_of_compilerFragments hsplit) hoccurs name.toList
    -- the first occurrence is the only one that is replaced
    obtain ⟨rfl, rfl⟩ := hfirst.eq_of hfirst'
    refine ⟨fragment, (fragmentIn?_eq_some_iff ..).2 ⟨hoccurs, higher, lower, hsplit, hhigher⟩, ?_⟩
    dsimp only
    rw [hreplaced, if_pos hexists]

/-- **The search finds the demangler of a compiler**, the only one there is. -/
theorem find_eq_iff (host : Host) (name compiler answer : String) :
    find host name compiler = answer ↔ Demangles renameBeside host name compiler answer := by
  have hfind : find host name compiler =
      (((searchDirectory? host compiler).bind fun directory =>
        searchDirectory host directory (name ++ extensionOf compiler)) <|>
          guess? host name compiler).getD name := rfl
  rw [hfind]
  simp only [Demangles, ← nearby_iff, ← guess?_eq_some_iff]
  cases ((searchDirectory? host compiler).bind fun directory =>
      searchDirectory host directory (name ++ extensionOf compiler)) with
  | some found => simp
  | none =>
    cases guess? host name compiler with
    | some found => simp
    | none => simp [eq_comm]

/-! ### Renaming -/

/-- Where there is no slash the whole is the last name. -/
theorem cutAtLastSlash_of_notMem {p : List Char} (plain : '/' ∉ p) :
    Chars.cutAtLastSlash p = ([], p) := by
  have htail : p.reverse.takeWhile (· ≠ '/') = p.reverse := by
    rw [List.takeWhile_eq_self_iff]
    intro c hc
    exact decide_eq_true (ne_of_mem_of_not_mem (List.mem_reverse.1 hc) plain)
  simp only [Chars.cutAtLastSlash, htail, List.reverse_reverse, Nat.sub_self, List.take_zero]

/-- Where slashes stand alone, what precedes the last name is the directory, with a slash if there
is a directory. -/
theorem join_directory {p last : List Char} (relative : Chars.isAbsolute last = false)
    (single : ¬['/', '/'] <:+: p) :
    Chars.join (Chars.split p).1 last = (Chars.cutAtLastSlash p).1 ++ last := by
  by_cases hslash : '/' ∈ p
  · obtain ⟨name, front, hp, hname⟩ := List.eq_append_cons_of_mem (List.mem_reverse.2 hslash)
    have hsplit : p = front.reverse ++ '/' :: name.reverse := by
      rw [← List.reverse_reverse p, hp]
      simp
    have plain : '/' ∉ name.reverse := fun h => hname (List.mem_reverse.1 h)
    generalize front.reverse = front at hsplit
    subst hsplit
    rw [Chars.cutAtLastSlash_append front plain]
    -- the directory keeps its slash only if it is the root
    by_cases hroot : front = []
    · subst hroot
      have hcut := Chars.cutAtLastSlash_append [] plain
      simp only [List.nil_append] at hcut ⊢
      simp [Chars.split, hcut, Chars.join, relative]
    · have hends : front.getLast? ≠ some '/' := by
        intro h
        obtain ⟨before, rfl⟩ := List.getLast?_eq_some_iff.1 h
        exact single ⟨before, name.reverse, by simp⟩
      have hkept : Chars.withoutFinalSlashes front = front := by
        rw [Chars.withoutFinalSlashes, List.rdropWhile_eq_self_iff]
        intro hne hlast
        exact hends (by rw [List.getLast?_eq_getLast_of_ne_nil hne, beq_iff_eq.1 hlast])
      rw [Chars.split_append hroot hkept plain]
      simp [Chars.join, relative, hroot, hends]
  · rw [Chars.split, cutAtLastSlash_of_notMem hslash]
    simp [Chars.join, relative]

/-- Where slashes stand alone, a name from the directory of a path takes the place of its own. -/
theorem renameBeside_eq_renameInPlace {path last : String} (relative : isAbsolute last = false)
    (single : ¬['/', '/'] <:+: path.toList) : renameBeside path last = renameInPlace path last := by
  rw [renameBeside, renameInPlace, join, directoryOf, String.toList_ofList,
    join_directory relative single]

/-! ### Runs of calls -/

/-- The host at the first of some calls for a compiler. -/
def first? (calls : List (Host × String)) (compiler : String) : Option Host :=
  (calls.find? fun call => call.2 = compiler).map Prod.fst

namespace Locator

/-- What a locator answers when it is asked for one compiler after the other, each time on the host
as it is then. -/
def answers : Locator → List (Host × String) → List (Except LocateError Json)
  | _, [] => []
  | locator, (host, compiler) :: rest =>
    (locator.locate host compiler).1 :: answers (locator.locate host compiler).2 rest

/-- A locator that has been asked for some compilers knows what was found at the first call for
each, and nothing else. -/
structure Remembers (name : String) (earlier : List (Host × String)) (locator : Locator) :
    Prop where
  named : locator.name = .text name
  found : ∀ compiler, locator.found.get? compiler =
    (first? earlier compiler).map fun host => .text (find host name compiler)

variable {name : String} {earlier : List (Host × String)} {locator : Locator}

/-- The first of two rows of calls for a compiler is that of the first row, if it has one. -/
theorem first?_append (calls : List (Host × String)) (compiler : String) :
    first? (earlier ++ calls) compiler = (first? earlier compiler).or (first? calls compiler) := by
  rw [first?, List.find?_append, Option.map_or]
  rfl

/-- A single call is the first one for the compiler that is asked for. -/
theorem first?_singleton (host : Host) (compiler other : String) :
    first? [(host, compiler)] other = if compiler = other then some host else none := by
  by_cases h : compiler = other <;> simp [first?, h]

/-- One call is answered as the first one for its compiler. -/
theorem Remembers.locate (h : Remembers name earlier locator) (host : Host) (compiler : String) :
    (locator.locate host compiler).1 =
        .ok (.text (find ((first? earlier compiler).getD host) name compiler)) ∧
      Remembers name (earlier ++ [(host, compiler)]) (locator.locate host compiler).2 := by
  have hfound := h.found compiler
  cases hfirst : first? earlier compiler with
  | some first =>
    -- a call before found the demangler, and this one finds it remembered
    rw [hfirst, Option.map_some] at hfound
    have hlocate : locator.locate host compiler =
        (.ok (.text (find first name compiler)), locator) := by
      rw [Locator.locate, hfound]
    rw [hlocate]
    refine ⟨rfl, h.named, fun other => ?_⟩
    rw [h.found, first?_append, first?_singleton]
    by_cases hother : compiler = other
    · rw [← hother, hfirst, Option.some_or]
    · rw [if_neg hother, Option.or_none]
  | none =>
    rw [hfirst, Option.map_none] at hfound
    have hsearch : locator.search host compiler = .ok (.text (find host name compiler)) := by
      rw [search, h.named]
    have hlocate : locator.locate host compiler = (.ok (.text (find host name compiler)),
        locator.remember compiler (.text (find host name compiler))) := by
      rw [Locator.locate, hfound]
      dsimp only
      rw [hsearch]
    have hkept : (locator.remember compiler (.text (find host name compiler))).found =
        locator.found.put compiler (.text (find host name compiler)) := rfl
    rw [hlocate]
    refine ⟨rfl, h.named, fun other => ?_⟩
    rw [hkept, Table.get?_put, h.found, first?_append, first?_singleton]
    by_cases hother : compiler = other
    · rw [if_pos hother, if_pos hother, ← hother, hfirst, Option.none_or, Option.map_some]
    · rw [if_neg hother, if_neg hother, Option.or_none]

/-- A run of calls is answered by the first one for each compiler. -/
theorem Remembers.answers (h : Remembers name earlier locator) (calls : List (Host × String)) :
    locator.answers calls = calls.map fun call =>
      .ok (.text (find ((first? (earlier ++ calls) call.2).getD call.1) name call.2)) := by
  induction calls generalizing earlier locator with
  | nil => rfl
  | cons call calls ih =>
    obtain ⟨host, compiler⟩ := call
    obtain ⟨hanswer, hlater⟩ := h.locate host compiler
    have hcalls : earlier ++ (host, compiler) :: calls =
        earlier ++ [(host, compiler)] ++ calls := by simp
    have hfirst : first? (earlier ++ [(host, compiler)] ++ calls) compiler =
        some ((first? earlier compiler).getD host) := by
      rw [first?_append, first?_append, first?_singleton, if_pos rfl]
      cases first? earlier compiler <;> rfl
    rw [Locator.answers, hanswer, ih hlater, List.map_cons, hcalls, hfirst, Option.getD_some]

/-- A fresh locator remembers nothing. -/
theorem remembers_nil (name : String) : Remembers name [] { name := .text name } :=
  ⟨rfl, fun _ => rfl⟩

/-- **The first call for a compiler settles all of them.** Every call is answered, with the one
demangler that the compiler has on the host as it was at the first call for it. A path that is
guessed is the compiler's with another last name, as seen from the compiler's directory; where no
two slashes follow each other in it and the new name does not begin with one, the new name just
takes the place of the old one. -/
theorem demangler_of_first_call (name : String) (earlier later : List (Host × String))
    (first : Host) (compiler : String) (new : ∀ call ∈ earlier, call.2 ≠ compiler) :
    (({ name := .text name } : Locator).answers
        (earlier ++ (first, compiler) :: later)).length =
      (earlier ++ (first, compiler) :: later).length ∧
    (∃ answer, (∀ other, Demangles renameBeside first name compiler other ↔ other = answer) ∧
      ∀ (place : Nat) (host : Host),
        (earlier ++ (first, compiler) :: later)[place]? = some (host, compiler) →
        (({ name := .text name } : Locator).answers
          (earlier ++ (first, compiler) :: later))[place]? =
            some (Except.ok (Json.text answer))) ∧
    ∀ last, isAbsolute last = false → ¬['/', '/'] <:+: compiler.toList →
      renameBeside compiler last = renameInPlace compiler last := by
  have hfirst : first? (earlier ++ (first, compiler) :: later) compiler = some first := by
    have hearlier : first? earlier compiler = none := by
      rw [first?, Option.map_eq_none_iff, List.find?_eq_none]
      intro call hcall
      simpa using new call hcall
    rw [first?_append, hearlier, Option.none_or, first?, List.find?_cons_of_pos (by simp)]
    rfl
  rw [(remembers_nil name).answers, List.nil_append]
  refine ⟨List.length_map _, ⟨find first name compiler, fun other => ?_, ?_⟩, ?_⟩
  · rw [← find_eq_iff, eq_comm]
  · intro place host hcall
    rw [List.getElem?_map, hcall, Option.map_some]
    dsimp only
    rw [hfirst, Option.getD_some]
  · exact fun last relative single => renameBeside_eq_renameInPlace relative single

/-- A file in a directory below another one. -/
def toolTree (outer inner file : String) : FileTree :=
  ({} : FileTree).place [outer.toList, inner.toList, file.toList] { content := [] }

/-- A demangler next to its compiler. -/
def toolHost : Host := { tree := toolTree "opt" "bin" "c++filt" }

/-- The demangler next to the compiler is remembered after it is gone. -/
theorem demangler_of_first_call_sample :
    (∀ call ∈ [(({} : Host), "cc")], call.2 ≠ "/opt/bin/gcc") ∧
      (({} : Locator).answers [({}, "cc"), (toolHost, "/opt/bin/gcc"), ({}, "/opt/bin/gcc")])[2]? =
        some (Except.ok (Json.text "/opt/bin/c++filt")) ∧
      isAbsolute "c++filt" = false ∧ ¬['/', '/'] <:+: "/opt/bin/gcc".toList ∧
      renameBeside "/opt/bin/gcc" "c++filt" = renameInPlace "/opt/bin/gcc" "c++filt" := by
  obtain ⟨-, ⟨answer, hanswer, hcalls⟩, hrename⟩ := demangler_of_first_call "c++filt" [({}, "cc")]
    [({}, "/opt/bin/gcc")] toolHost "/opt/bin/gcc" (by decide)
  have hfound : Demangles renameBeside toolHost "c++filt" "/opt/bin/gcc" "/opt/bin/c++filt" :=
    (find_eq_iff ..).1 (by decide +kernel)
  rw [(hanswer _).1 hfound]
  exact ⟨by decide, hcalls 2 {} rfl, by decide, by decide,
    hrename "c++filt" (by decide) (by decide)⟩

/-- A demangler that is configured by its path, in the version of the compiler. -/
def versionedHost : Host := { tree := toolTree "opt" "bin" "filt-12" }

/-- Not every guess replaces a part of the compiler's path: a demangler that is configured by its
path is looked for there. -/
theorem not_all_guesses_are_in_place :
    ¬∀ (name : String) (calls : List (Host × String)) (place : Nat) (host : Host)
      (compiler : String), calls[place]? = some (host, compiler) →
        ∃ first answer, first? calls compiler = some first ∧
          Demangles renameInPlace first name compiler answer ∧
          (({ name := .text name } : Locator).answers calls)[place]? =
            some (Except.ok (Json.text answer)) := by
  intro hall
  obtain ⟨first, answer, hfirst, hdemangles, hanswer⟩ :=
    hall "/opt/bin/filt" [(versionedHost, "/usr/bin/g++-12")] 0 versionedHost "/usr/bin/g++-12" rfl
  obtain rfl : versionedHost = first := Option.some.inj hfirst
  have hcalled : (({ name := .text "/opt/bin/filt" } : Locator).answers
      [(versionedHost, "/usr/bin/g++-12")])[0]? =
        some (Except.ok (Json.text "/opt/bin/filt-12")) := by
    have hfound : find versionedHost "/opt/bin/filt" "/usr/bin/g++-12" = "/opt/bin/filt-12" := by
      decide +kernel
    rw [(remembers_nil _).answers]
    simp only [List.nil_append, List.map_cons, List.getElem?_cons_zero, hfirst, Option.getD_some,
      hfound]
  obtain rfl : "/opt/bin/filt-12" = answer := by simpa using hcalled.symm.trans hanswer
  -- nothing is nearby, and neither a guess in place nor the bare name is the answer
  rcases hdemangles with hnearby | ⟨-, ⟨higher, fragment, lower, front, back, -, -, -, heq, -⟩ | h⟩
  · have hnone : ((searchDirectory? versionedHost "/usr/bin/g++-12").bind fun directory =>
        searchDirectory versionedHost directory
          ("/opt/bin/filt" ++ extensionOf "/usr/bin/g++-12")) = none := by decide +kernel
    rw [(nearby_iff ..).2 hnearby] at hnone
    cases hnone
  · have hchars := congrArg String.toList heq
    rw [renameInPlace, String.toList_ofList, show Chars.cutAtLastSlash "/usr/bin/g++-12".toList =
      ("/usr/bin/".toList, "g++-12".toList) by decide +kernel] at hchars
    simp at hchars
  · exact absurd h.2 (by decide)

end Locator

end Demangler

end AsmScope
