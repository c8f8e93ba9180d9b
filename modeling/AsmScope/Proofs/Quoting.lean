import AsmScope.CommandLine
import AsmScope.Text.Basic
/-! # Writing words and reading them back

A line that was written from words is cut into the same words, but for the empty ones, which no line
shows. The scanner is followed through one written word: a word without quotes keeps it outside
quotes (`wordsOf_plain`), a word in double quotes takes it inside and back out (`wordsOf_quoted`).
So a written word adds its own characters to the run of literals that is open and leaves the scanner
as it was (`wordsOf_writeWord`), and the blank after it closes the run. -/

namespace AsmScope.CommandLine

open Text

/-! ### Quoting as replacement -/

/-- A pattern of one character is looked for at every place. -/
theorem replaceAll_singleton (c : Char) (replacement text : List Char) :
    replaceAll [c] replacement text =
      text.flatMap fun other => if c = other then replacement else [other] := by
  have hpattern : replaceAll [c] replacement text = replaceFrom [c] replacement 0 text := rfl
  rw [hpattern]
  clear hpattern
  induction text with
  | nil => rfl
  | cons other text ih =>
    rw [replaceFrom, List.flatMap_cons]
    by_cases h : c = other
    · subst h
      simp [List.isPrefixOf, ih]
    · simp [List.isPrefixOf, h, ih]

/-- **Quoting is two replacements**, the one of backslashes first: the backslashes that the other
one puts before quotes are not doubled. -/
theorem flatMap_quoteChar (word : List Char) :
    word.flatMap quoteChar =
      replaceAll ['"'] ['\\', '"'] (replaceAll ['\\'] ['\\', '\\'] word) := by
  rw [replaceAll_singleton, replaceAll_singleton, List.flatMap_assoc]
  congr 1
  funext c
  by_cases hslash : c = '\\'
  · subst hslash
    rfl
  · by_cases hquote : c = '"'
    · subst hquote
      rfl
    · have hslash' : ¬ '\\' = c := fun h => hslash h.symm
      have hquote' : ¬ '"' = c := fun h => hquote h.symm
      simp [quoteChar, hslash, hquote, hslash', hquote']

/-! ### The scanner in a written word -/

/-- The scanner inside double quotes, with nothing taken literally. -/
def Scanner.quoted : Scanner := ⟨some '"', false⟩

/-- A character that needs no quotes is a literal, and leaves the scanner outside quotes. -/
theorem wordsOf_plainChar {c : Char} (h : needsQuotes c = false) (current rest : List Char) :
    wordsOf current (Scanner.start.roles (c :: rest)) =
      wordsOf (c :: current) (Scanner.start.roles rest) := by
  simp only [needsQuotes, Bool.or_eq_false_iff, decide_eq_false_iff_not] at h
  obtain ⟨⟨⟨hblank, hsingle⟩, hdouble⟩, hslash⟩ := h
  have hrole : Scanner.start.role c = .literal := by
    simp [Scanner.role, Scanner.start, hblank, hsingle, hdouble, hslash]
  have hnext : Scanner.start.next c = Scanner.start := by
    rw [Scanner.next, hrole]
    rfl
  rw [Scanner.roles_cons, hrole, hnext, wordsOf]

/-- A word that needs no quotes is a run of literals. -/
theorem wordsOf_plain {word : List Char} (h : word.any needsQuotes = false)
    (current rest : List Char) :
    wordsOf current (Scanner.start.roles (word ++ rest)) =
      wordsOf (word.reverse ++ current) (Scanner.start.roles rest) := by
  induction word generalizing current with
  | nil => rfl
  | cons c word ih =>
    rw [List.any_cons, Bool.or_eq_false_iff] at h
    rw [List.cons_append, wordsOf_plainChar h.1, ih h.2, List.reverse_cons, List.append_assoc,
      List.singleton_append]

/-- Inside double quotes a quoted character is a literal, whichever it is. -/
theorem wordsOf_quoteChar (c : Char) (current rest : List Char) :
    wordsOf current (Scanner.quoted.roles (quoteChar c ++ rest)) =
      wordsOf (c :: current) (Scanner.quoted.roles rest) := by
  by_cases h : c = '\\' ∨ c = '"'
  · -- the backslash is dropped, and what it stands before is taken literally
    have hslash : Scanner.quoted.role '\\' = .escape := rfl
    have hnext : (Scanner.quoted.next '\\').next c = Scanner.quoted := rfl
    rw [quoteChar, if_pos h, List.cons_append, List.singleton_append, Scanner.roles_cons, hslash,
      wordsOf, Scanner.roles_cons, hnext]
    exact wordsOf.eq_2 _ _ _
  · rw [not_or] at h
    have hrole : Scanner.quoted.role c = .literal := by
      simp [Scanner.role, Scanner.quoted, h.1, h.2]
    have hnext : Scanner.quoted.next c = Scanner.quoted := by
      rw [Scanner.next, hrole]
      rfl
    rw [quoteChar, if_neg (not_or.2 h), List.singleton_append, Scanner.roles_cons, hrole, hnext,
      wordsOf]

/-- Inside quotes the characters of a word come back as they were before they were quoted. -/
theorem wordsOf_quoted (word current rest : List Char) :
    wordsOf current (Scanner.quoted.roles (word.flatMap quoteChar ++ rest)) =
      wordsOf (word.reverse ++ current) (Scanner.quoted.roles rest) := by
  induction word generalizing current with
  | nil => rfl
  | cons c word ih =>
    rw [List.flatMap_cons, List.append_assoc, wordsOf_quoteChar, ih, List.reverse_cons,
      List.append_assoc, List.singleton_append]

/-- **A written word is read as its characters**, and leaves the scanner outside quotes. -/
theorem wordsOf_writeWord (word current rest : List Char) :
    wordsOf current (Scanner.start.roles (writeWord word ++ rest)) =
      wordsOf (word.reverse ++ current) (Scanner.start.roles rest) := by
  unfold writeWord
  split
  case isTrue h =>
    rw [Bool.and_eq_true, Bool.not_eq_true', Bool.not_eq_true'] at h
    exact wordsOf_plain h.2 current rest
  case isFalse =>
    -- the opening quote leads inside double quotes, the closing one back out
    have hopen : Scanner.start.role '"' = .delimiter := rfl
    have hinside : Scanner.start.next '"' = Scanner.quoted := rfl
    have hclose : Scanner.quoted.role '"' = .delimiter := rfl
    have houtside : Scanner.quoted.next '"' = Scanner.start := rfl
    rw [List.cons_append, List.cons_append, List.append_assoc, Scanner.roles_cons, hopen, hinside,
      wordsOf, wordsOf_quoted, List.singleton_append, Scanner.roles_cons, hclose, houtside, wordsOf]

/-! ### Lines -/

/-- A line of several words begins with the first one, behind which a space comes. -/
theorem joinChars_cons_cons (word next : List Char) (words : List (List Char)) :
    joinChars (word :: next :: words) = writeWord word ++ ' ' :: joinChars (next :: words) := by
  rw [joinChars, List.map_cons, List.map_cons, List.intercalate_cons_cons, List.append_assoc,
    List.singleton_append, ← List.map_cons, joinChars]

/-- A run of literals is a word unless it is empty. -/
theorem finishWord_reverse (word : List Char) :
    finishWord word.reverse = if word = [] then [] else [word] := by
  cases word with
  | nil => rfl
  | cons c word => simp [finishWord]

/-- A line that was written from words is cut into them, without the empty ones. -/
theorem splitChars_joinChars (words : List (List Char)) :
    splitChars (joinChars words) = words.filter (· ≠ []) := by
  unfold splitChars
  induction words with
  | nil => rfl
  | cons word words ih =>
    cases words with
    | nil =>
      have hread := wordsOf_writeWord word [] []
      rw [List.append_nil, List.append_nil, Scanner.roles_nil, wordsOf, finishWord_reverse] at hread
      rw [joinChars, List.map_singleton, List.intercalate_singleton, hread]
      by_cases h : word = [] <;> simp [h]
    | cons next words =>
      have hblank : Scanner.start.role ' ' = .separator := rfl
      have hstill : Scanner.start.next ' ' = Scanner.start := rfl
      rw [joinChars_cons_cons, wordsOf_writeWord, Scanner.roles_cons, hblank, hstill, wordsOf, ih,
        List.append_nil, finishWord_reverse]
      by_cases h : word = [] <;> simp [h]

/-- No word that is read is empty. -/
theorem nil_notMem_wordsOf (current : List Char) (roles : List (Role × Char)) :
    [] ∉ wordsOf current roles := by
  -- an empty run of characters is finished without a word
  have hfinish : ∀ run : List Char, [] ∉ finishWord run := by
    intro run
    unfold finishWord
    split
    · exact List.not_mem_nil
    · rw [List.mem_singleton]
      intro h
      simp_all
  induction roles generalizing current with
  | nil => exact hfinish current
  | cons entry roles ih =>
    obtain ⟨role, c⟩ := entry
    cases role with
    | literal => exact ih _
    | separator => exact fun h => (List.mem_append.1 h).elim (hfinish current) (ih [])
    | escape => exact ih _
    | delimiter => exact ih _

/-- No word of a line is empty. -/
theorem empty_notMem_split (line : String) : "" ∉ split line := by
  intro h
  obtain ⟨word, hword, hempty⟩ := List.mem_map.1 h
  have hnil : word = [] := by simpa using hempty
  exact nil_notMem_wordsOf [] _ (hnil ▸ hword)

/-- Cutting a written line gives its words, without the empty ones. -/
theorem split_join (words : List String) : split (join words) = words.filter (· ≠ "") := by
  rw [split, join, String.toList_ofList, splitChars_joinChars, List.filter_map, List.map_map]
  simp [Function.comp_def]

/-- **Words are read as they were written.** A line that was written from words is cut into the same
words, without the empty ones; no line is cut into empty words, so words that were read once are
read again when they have been written. -/
theorem split_join_split (words : List String) (line : String) :
    split (join words) = words.filter (· ≠ "") ∧
      "" ∉ split line ∧ split (join (split line)) = split line := by
  have hempty := empty_notMem_split line
  refine ⟨split_join words, hempty, ?_⟩
  rw [split_join, List.filter_eq_self]
  intro word hword
  exact decide_eq_true (ne_of_mem_of_not_mem hword hempty)

/-- Quotes, backslashes at the end, a blank beyond the ASCII ones and an empty word. -/
example : split (join ["a\\", "", "\"b'", "c\u2003d"]) = ["a\\", "\"b'", "c\u2003d"] := by decide

end AsmScope.CommandLine
