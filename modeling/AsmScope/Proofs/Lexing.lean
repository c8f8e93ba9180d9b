import AsmScope.Proofs.Quoting
import Mathlib.Algebra.Group.Nat.Even
import Mathlib.Data.List.Induction
/-! # The words of a line and its characters

What the words of a line are, said of the roles of its characters. A character's role is decided by
the character and by where the scanner stands (`Role.Fits`), and where it stands by the roles before
(`quote_after_eq_none_iff`, `escaping_after_iff`). The words are the literals, cut at the separators
and nowhere else: some words are finished at every place of a line and one is open there
(`exists_wordsOf_append`), a literal makes the open one longer, and a separator ends it
(`wordsOf_append_separator`). -/

namespace AsmScope.CommandLine

open Text

/-! ### Roles -/

/-- What a role says about a character and about where the scanner stands before it. -/
def Role.Fits (role : Role) (scanner : Scanner) (c : Char) : Prop :=
  match role with
  | .escape => scanner.escaping = false ∧ c = '\\'
  | .delimiter =>
    scanner.escaping = false ∧ c ≠ '\\' ∧
      (scanner.quote = none ∧ (c = '\'' ∨ c = '"') ∨ scanner.quote = some c)
  | .separator => scanner.escaping = false ∧ scanner.quote = none ∧ isBlank c
  | .literal =>
    scanner.escaping = true ∨
      c ≠ '\\' ∧ scanner.quote ≠ some c ∧
        (scanner.quote = none → c ≠ '\'' ∧ c ≠ '"' ∧ isBlank c = false)

/-- A blank is none of the characters that are not. -/
theorem ne_of_isBlank {c other : Char} (blank : isBlank c) (h : isBlank other = false) :
    c ≠ other := by
  rintro rfl
  exact Bool.false_ne_true (h.symm.trans blank)

/-- Exactly one role fits a character. -/
theorem Scanner.role_eq_iff (scanner : Scanner) (c : Char) (role : Role) :
    scanner.role c = role ↔ role.Fits scanner c := by
  have hslash : isBlank c → c ≠ '\\' := fun h => ne_of_isBlank h rfl
  have hsingle : isBlank c → c ≠ '\'' := fun h => ne_of_isBlank h rfl
  have hdouble : isBlank c → c ≠ '"' := fun h => ne_of_isBlank h rfl
  obtain ⟨quote, escaping⟩ := scanner
  cases escaping <;> cases quote <;> cases role <;> simp only [Scanner.role, Role.Fits] <;> grind

/-- One more character moves the scanner on from where it stands. -/
theorem Scanner.after_concat (scanner : Scanner) (front : List Char) (c : Char) :
    scanner.after (front ++ [c]) = (scanner.after front).next c := by
  rw [after, List.foldl_append]
  rfl

/-- One more character has the role that the scanner gives it where it stands. -/
theorem Scanner.roles_concat (scanner : Scanner) (front : List Char) (c : Char) :
    scanner.roles (front ++ [c]) = scanner.roles front ++ [((scanner.after front).role c, c)] := by
  rw [roles_append, roles_cons, roles_nil]

/-- The scanner waits for a literal exactly after an escape. -/
theorem Scanner.escaping_after_iff (front : List Char) :
    (Scanner.start.after front).escaping = true ↔
      (Scanner.start.roles front).getLast?.map Prod.fst = some .escape := by
  induction front using List.reverseRecOn with
  | nil => simp [Scanner.after, Scanner.start]
  | append_singleton front c ih =>
    rw [Scanner.roles_concat, List.getLast?_concat, Scanner.after_concat, Scanner.next]
    cases hrole : (Scanner.start.after front).role c with
    | escape => simp
    | literal => simp
    | separator => simp
    | delimiter =>
      have hfits := ((Scanner.start.after front).role_eq_iff c .delimiter).1 hrole
      simp [hfits.1]

/-- The scanner stands outside quotes exactly after evenly many delimiters. -/
theorem Scanner.quote_after_eq_none_iff (front : List Char) :
    (Scanner.start.after front).quote = none ↔
      Even ((Scanner.start.roles front).countP fun entry => entry.1 = .delimiter) := by
  induction front using List.reverseRecOn with
  | nil => simp [Scanner.after, Scanner.start]
  | append_singleton front c ih =>
    rw [Scanner.roles_concat, List.countP_append, List.countP_singleton, Scanner.after_concat,
      Scanner.next]
    cases hrole : (Scanner.start.after front).role c with
    | escape => simpa using ih
    | literal => simpa using ih
    | separator => simpa using ih
    | delimiter =>
      simp only [decide_true, ↓reduceIte, Nat.even_add_one, ← ih]
      cases (Scanner.start.after front).quote <;> simp

/-- An open quote is one of the two. -/
theorem Scanner.quote_after_of_some {front : List Char} {quote : Char}
    (h : (Scanner.start.after front).quote = some quote) : quote = '\'' ∨ quote = '"' := by
  induction front using List.reverseRecOn with
  | nil => simp [Scanner.after, Scanner.start] at h
  | append_singleton front c ih =>
    rw [Scanner.after_concat, Scanner.next] at h
    cases hrole : (Scanner.start.after front).role c with
    | escape => exact ih (by simpa [hrole] using h)
    | literal => exact ih (by simpa [hrole] using h)
    | separator => exact ih (by simpa [hrole] using h)
    | delimiter =>
      obtain ⟨-, -, hquote⟩ := ((Scanner.start.after front).role_eq_iff c .delimiter).1 hrole
      rcases hquote with ⟨hnone, hc⟩ | hsome
      · simp only [hrole, hnone, Option.isNone_none, ↓reduceIte, Option.some.injEq] at h
        exact h ▸ hc
      · simp [hrole, hsome] at h

/-- A scanner stands as at the start exactly if it is outside of quotes and nothing is escaped. -/
theorem Scanner.eq_start_iff (scanner : Scanner) :
    scanner = Scanner.start ↔ scanner.quote = none ∧ scanner.escaping = false := by
  obtain ⟨quote, escaping⟩ := scanner
  simp [Scanner.start]

/-- A blank is a literal wherever the scanner is inside quotes or waits for a literal. -/
theorem Scanner.role_of_isBlank_of_ne_start {front : List Char} {c : Char} (blank : isBlank c)
    (h : Scanner.start.after front ≠ Scanner.start) :
    (Scanner.start.after front).role c = .literal := by
  rw [Scanner.role_eq_iff]
  -- inside quotes a blank is no delimiter, as the quote that is open is not blank
  by_cases hescaping : (Scanner.start.after front).escaping = true
  · exact .inl hescaping
  · refine .inr ⟨ne_of_isBlank blank rfl, ?_, ?_⟩
    · intro hquote
      rcases quote_after_of_some hquote with rfl | rfl
      · exact absurd blank (by decide)
      · exact absurd blank (by decide)
    · intro hnone
      exact absurd ((Scanner.eq_start_iff _).2 ⟨hnone, Bool.eq_false_iff.2 hescaping⟩) h

/-- Every character has one role, in order. -/
theorem Scanner.map_snd_roles (scanner : Scanner) (cs : List Char) :
    (scanner.roles cs).map Prod.snd = cs := by
  induction cs generalizing scanner with
  | nil => rfl
  | cons c cs ih => rw [Scanner.roles_cons, List.map_cons, ih]

/-! ### Words -/

/-- The literals, in order. -/
def literals (roles : List (Role × Char)) : List Char :=
  (roles.filter fun entry => entry.1 = .literal).map Prod.snd

/-- Of no characters none is a literal. -/
@[simp] theorem literals_nil : literals [] = [] := rfl

/-- A literal is the first of the literals from it on. -/
@[simp] theorem literals_cons_literal (c : Char) (roles : List (Role × Char)) :
    literals ((.literal, c) :: roles) = c :: literals roles := rfl

/-- The literals of two texts in a row are those of the one and then those of the other. -/
theorem literals_append (front back : List (Role × Char)) :
    literals (front ++ back) = literals front ++ literals back := by
  simp [literals]

/-- A word that is finished has the characters of its run, which is kept backwards. -/
theorem flatten_finishWord (run : List Char) : (finishWord run).flatten = run.reverse := by
  cases run <;> simp [finishWord]

/-- **The words are made of the literals**, all of them and in order. -/
theorem flatten_wordsOf (run : List Char) (roles : List (Role × Char)) :
    (wordsOf run roles).flatten = run.reverse ++ literals roles := by
  induction roles generalizing run with
  | nil => rw [wordsOf, flatten_finishWord, literals_nil, List.append_nil]
  | cons entry roles ih =>
    obtain ⟨role, c⟩ := entry
    cases role with
    | literal =>
      rw [wordsOf, ih, literals_cons_literal, List.reverse_cons, List.append_assoc,
        List.singleton_append]
    | separator =>
      rw [wordsOf, List.flatten_append, flatten_finishWord, ih]
      rfl
    | escape => rw [wordsOf, ih]; rfl
    | delimiter => rw [wordsOf, ih]; rfl

/-- At every place of a line some words are finished and one is open. -/
theorem exists_wordsOf_append (run : List Char) (front : List (Role × Char)) :
    ∃ words later, words.flatten ++ later.reverse = run.reverse ++ literals front ∧
      ∀ back, wordsOf run (front ++ back) = words ++ wordsOf later back := by
  induction front generalizing run with
  | nil => exact ⟨[], run, by simp, fun back => rfl⟩
  | cons entry front ih =>
    obtain ⟨role, c⟩ := entry
    cases role with
    | literal =>
      obtain ⟨words, later, hflatten, hwords⟩ := ih (c :: run)
      exact ⟨words, later, by simpa using hflatten, hwords⟩
    | separator =>
      obtain ⟨words, later, hflatten, hwords⟩ := ih []
      refine ⟨finishWord run ++ words, later, ?_, fun back => ?_⟩
      · rw [List.flatten_append, flatten_finishWord, List.append_assoc, hflatten]
        rfl
      · rw [List.cons_append, wordsOf, hwords, List.append_assoc]
    | escape => exact ih run
    | delimiter => exact ih run

/-- A separator finishes the words before it. -/
theorem wordsOf_append_separator (run : List Char) (front back : List (Role × Char)) (c : Char) :
    wordsOf run (front ++ (.separator, c) :: back) = wordsOf run front ++ wordsOf [] back := by
  obtain ⟨words, later, -, hwords⟩ := exists_wordsOf_append run front
  have hfront := hwords []
  rw [List.append_nil] at hfront
  rw [hwords, hfront, wordsOf, wordsOf, List.append_assoc]

/-- What is neither literal nor separator leaves the words alone. -/
theorem wordsOf_append_of_still {middle : List (Role × Char)} (noLiteral : literals middle = [])
    (noSeparator : ∀ c, (.separator, c) ∉ middle) (run : List Char) (back : List (Role × Char)) :
    wordsOf run (middle ++ back) = wordsOf run back := by
  induction middle with
  | nil => rfl
  | cons entry middle ih =>
    obtain ⟨role, c⟩ := entry
    have hseparator : ∀ c, (.separator, c) ∉ middle := fun other h =>
      noSeparator other (List.mem_cons_of_mem _ h)
    cases role with
    | literal => exact absurd noLiteral (List.cons_ne_nil _ _)
    | separator => exact absurd List.mem_cons_self (noSeparator c)
    | escape => exact ih noLiteral hseparator
    | delimiter => exact ih noLiteral hseparator

/-- A word that is open becomes longer or is finished, but never lost. -/
theorem exists_wordsOf_cons {run : List Char} (h : run ≠ []) (roles : List (Role × Char)) :
    ∃ rest words, wordsOf run roles = (run.reverse ++ rest) :: words := by
  have hfinish : finishWord run = [run.reverse ++ []] := by
    rw [List.append_nil, finishWord, List.isEmpty_eq_false_iff.2 h]
    rfl
  induction roles generalizing run with
  | nil => exact ⟨[], [], hfinish⟩
  | cons entry roles ih =>
    obtain ⟨role, c⟩ := entry
    cases role with
    | literal =>
      obtain ⟨rest, words, hwords⟩ := ih (List.cons_ne_nil c run) (by simp [finishWord])
      exact ⟨c :: rest, words, by rw [wordsOf, hwords]; simp⟩
    | separator => exact ⟨[], wordsOf [] roles, by rw [wordsOf, hfinish]; rfl⟩
    | escape => exact ih h hfinish
    | delimiter => exact ih h hfinish

/-! ### Places in words -/

/-- Whether the character with this number, counted through all words, lies in the word with that
one. -/
def LiesIn (words : List (List Char)) (place word : Nat) : Prop :=
  (words.take word).flatten.length ≤ place ∧ place < (words.take (word + 1)).flatten.length

/-- A place lies in a word if the words before it have no more characters and those up to it have
more. -/
theorem liesIn_of_append {words later : List (List Char)} {word : List Char} {place : Nat}
    (least : words.flatten.length ≤ place)
    (greatest : place < words.flatten.length + word.length) :
    LiesIn (words ++ word :: later) place words.length := by
  constructor
  · rw [List.take_left' rfl]
    exact least
  · rw [List.take_append, List.take_of_length_le (Nat.le_succ _), Nat.add_sub_cancel_left,
      List.take_succ_cons, List.take_zero, List.flatten_append, List.flatten_singleton,
      List.length_append]
    exact greatest

/-- Literals between which no separator stands lie in one word. -/
theorem exists_liesIn_of_still {front middle back : List (Role × Char)} {a b : Char}
    (noLiteral : literals middle = []) (noSeparator : ∀ c, (.separator, c) ∉ middle) :
    ∃ word, LiesIn (wordsOf [] (front ++ (.literal, a) :: (middle ++ (.literal, b) :: back)))
        (literals front).length word ∧
      LiesIn (wordsOf [] (front ++ (.literal, a) :: (middle ++ (.literal, b) :: back)))
        ((literals front).length + 1) word := by
  -- `words` are finished before `a`, and the next one holds `a` and `b`
  obtain ⟨words, run, hflatten, hwords⟩ := exists_wordsOf_append [] front
  obtain ⟨rest, later, hopen⟩ := exists_wordsOf_cons (List.cons_ne_nil b (a :: run)) back
  have hlength := congrArg List.length hflatten
  rw [List.length_append, List.length_reverse, List.reverse_nil, List.nil_append] at hlength
  have hword : ((b :: a :: run).reverse ++ rest).length = run.length + 2 + rest.length := by
    rw [List.length_append, List.length_reverse, List.length_cons, List.length_cons]
  rw [hwords, wordsOf, wordsOf_append_of_still noLiteral noSeparator, wordsOf, hopen]
  exact ⟨words.length, liesIn_of_append (by omega) (by omega),
    liesIn_of_append (by omega) (by omega)⟩

/-- Where words are parted, the character before lies in the last word before, and the one behind in
the word that follows it. -/
theorem exists_liesIn_of_parted {firsts seconds : List (List Char)} {front back : List Char}
    {a b : Char} (hfirst : firsts.flatten = front ++ [a]) (hsecond : seconds.flatten = b :: back)
    (hnotNil : ∀ word ∈ firsts ++ seconds, word ≠ []) :
    ∃ word, LiesIn (firsts ++ seconds) front.length word ∧
      LiesIn (firsts ++ seconds) (front.length + 1) (word + 1) := by
  -- the two characters end the last word of the one list and begin the first of the other
  cases firsts using List.reverseRecOn with
  | nil => simp at hfirst
  | append_singleton firsts last =>
    cases seconds with
    | nil => simp at hsecond
    | cons next seconds =>
      have hlast := List.length_pos_iff.2 (hnotNil last (by simp))
      have hnext := List.length_pos_iff.2 (hnotNil next (by simp))
      have hlength := congrArg List.length hfirst
      rw [List.length_append, List.length_singleton] at hlength
      have hfinished : (firsts ++ [last]).flatten.length = firsts.flatten.length + last.length := by
        rw [List.flatten_append, List.length_append, List.flatten_singleton]
      refine ⟨firsts.length, ?_, ?_⟩
      · rw [List.append_assoc, List.singleton_append]
        exact liesIn_of_append (by omega) (by omega)
      · have hlies : LiesIn ((firsts ++ [last]) ++ next :: seconds) (front.length + 1)
            (firsts ++ [last]).length := liesIn_of_append (by omega) (by omega)
        rwa [List.length_append, List.length_singleton] at hlies

/-- Literals between which a separator stands lie in two words, one after the other. -/
theorem exists_liesIn_of_separator {front middle back : List (Role × Char)} {a b c : Char}
    (noLiteral : literals middle = []) (separator : (.separator, c) ∈ middle) :
    ∃ word, LiesIn (wordsOf [] (front ++ (.literal, a) :: (middle ++ (.literal, b) :: back)))
        (literals front).length word ∧
      LiesIn (wordsOf [] (front ++ (.literal, a) :: (middle ++ (.literal, b) :: back)))
        ((literals front).length + 1) (word + 1) := by
  obtain ⟨before, after, rfl⟩ := List.append_of_mem separator
  rw [literals_append, List.append_eq_nil_iff] at noLiteral
  have hafter : literals after = [] := noLiteral.2
  -- cut the words at the separator
  have hwords : wordsOf [] (front ++ (.literal, a) ::
      ((before ++ (.separator, c) :: after) ++ (.literal, b) :: back)) =
      wordsOf [] (front ++ (.literal, a) :: before) ++
        wordsOf [] (after ++ (.literal, b) :: back) := by
    rw [← wordsOf_append_separator [] _ _ c]
    simp
  have hfirst :
      (wordsOf [] (front ++ (.literal, a) :: before)).flatten = literals front ++ [a] := by
    rw [flatten_wordsOf, literals_append, literals_cons_literal, noLiteral.1]
    rfl
  have hsecond : (wordsOf [] (after ++ (.literal, b) :: back)).flatten = b :: literals back := by
    rw [flatten_wordsOf, literals_append, hafter]
    rfl
  rw [hwords]
  refine exists_liesIn_of_parted hfirst hsecond ?_
  rintro _ hword rfl
  exact (List.mem_append.1 hword).elim (nil_notMem_wordsOf _ _) (nil_notMem_wordsOf _ _)

/-- The words of a line, as characters. -/
theorem map_toList_split (line : String) :
    (split line).map String.toList = splitChars line.toList := by
  rw [split, List.map_map]
  simp [Function.comp_def]

/-! ### A blank in the line -/

section Blank

variable {before after : String} {blank : Char}

/-- The roles in a text around a character are those before it, its own, and those behind it. -/
theorem roles_append_singleton (before after : String) (c : Char) :
    Scanner.start.roles (before ++ String.singleton c ++ after).toList =
      Scanner.start.roles before.toList ++
        ((Scanner.start.after before.toList).role c, c) ::
          ((Scanner.start.after before.toList).next c).roles after.toList := by
  have hchars : (before ++ String.singleton c ++ after).toList =
      before.toList ++ c :: after.toList := by simp
  rw [hchars, Scanner.roles_append, Scanner.roles_cons]

/-- A blank outside quotes parts the words: the scanner begins anew behind it. -/
theorem split_append_blank (hblank : isBlank blank)
    (hstart : Scanner.start.after before.toList = Scanner.start) :
    split (before ++ String.singleton blank ++ after) = split before ++ split after := by
  have hrole : Scanner.start.role blank = .separator :=
    (Scanner.role_eq_iff _ _ _).2 ⟨rfl, rfl, hblank⟩
  have hnext : Scanner.start.next blank = Scanner.start := by
    rw [Scanner.next, hrole]
    rfl
  rw [split, splitChars, roles_append_singleton, hstart, hrole, hnext, wordsOf_append_separator,
    List.map_append]
  rfl

/-- Any other blank is a literal of a word. -/
theorem flatten_split_append_blank (hblank : isBlank blank)
    (hstart : Scanner.start.after before.toList ≠ Scanner.start) :
    ((split (before ++ String.singleton blank ++ after)).map String.toList).flatten =
      literals (Scanner.start.roles before.toList) ++
        blank ::
          literals (((Scanner.start.after before.toList).next blank).roles after.toList) := by
  rw [map_toList_split, splitChars, flatten_wordsOf, roles_append_singleton,
    Scanner.role_of_isBlank_of_ne_start hblank hstart, literals_append, literals_cons_literal]
  rfl

end Blank

/-! ### The lexical law -/

/-- **The words of a line are its literals, parted at its separators.** Every character has the one
role that fits it where it stands, which the roles before it tell: inside quotes after an odd number
of delimiters, and before a literal after an escape. The words are the literals in order; two
literals that follow each other lie in one word, or in two if a separator stands between them; no
word is empty. So a blank outside quotes that is not taken literally parts the words before it from
those after it, and any other blank is a literal itself. -/
theorem words_of_roles (line : String) :
    ((Scanner.start.roles line.toList).map Prod.snd = line.toList ∧
      ∀ front c back, line.toList = front ++ c :: back →
        ∃ role, Scanner.start.roles line.toList = Scanner.start.roles front ++
            (role, c) :: ((Scanner.start.after front).next c).roles back ∧
          ∀ other : Role, other.Fits (Scanner.start.after front) c ↔ other = role) ∧
    (∀ front : List Char,
      ((Scanner.start.after front).escaping = true ↔
        (Scanner.start.roles front).getLast?.map Prod.fst = some .escape) ∧
      ((Scanner.start.after front).quote = none ↔
        Even ((Scanner.start.roles front).countP fun entry => entry.1 = .delimiter))) ∧
    ((split line).map String.toList).flatten = literals (Scanner.start.roles line.toList) ∧
    (∀ front a middle b back, literals middle = [] →
      Scanner.start.roles line.toList =
        front ++ (.literal, a) :: (middle ++ (.literal, b) :: back) →
      ∃ first second,
        LiesIn ((split line).map String.toList) (literals front).length first ∧
        LiesIn ((split line).map String.toList) ((literals front).length + 1) second ∧
        (first ≠ second ↔ ∃ c, (.separator, c) ∈ middle)) ∧
    "" ∉ split line ∧
    ∀ (before after : String) (blank : Char), isBlank blank →
      line = before ++ String.singleton blank ++ after →
      if (Scanner.start.after before.toList).quote = none ∧
          (Scanner.start.after before.toList).escaping = false then
        split line = split before ++ split after
      else
        ((split line).map String.toList).flatten = literals (Scanner.start.roles before.toList) ++
          blank ::
            literals (((Scanner.start.after before.toList).next blank).roles after.toList) := by
  refine ⟨⟨Scanner.map_snd_roles _ _, ?_⟩, fun front => ⟨Scanner.escaping_after_iff front,
    Scanner.quote_after_eq_none_iff front⟩, ?_, ?_, empty_notMem_split line, ?_⟩
  · intro front c back hline
    refine ⟨(Scanner.start.after front).role c, ?_, fun other => ?_⟩
    · rw [hline, Scanner.roles_append, Scanner.roles_cons]
    · rw [← Scanner.role_eq_iff, eq_comm]
  · rw [map_toList_split, splitChars, flatten_wordsOf]
    rfl
  · intro front a middle b back noLiteral hroles
    rw [map_toList_split, splitChars, hroles]
    -- two literals beside each other share a word just when no separator is between
    by_cases separator : ∃ c, (Role.separator, c) ∈ middle
    · obtain ⟨c, hc⟩ := separator
      obtain ⟨word, hfirst, hsecond⟩ := exists_liesIn_of_separator noLiteral hc
      exact ⟨word, word + 1, hfirst, hsecond, iff_of_true (Nat.succ_ne_self word).symm ⟨c, hc⟩⟩
    · obtain ⟨word, hfirst, hsecond⟩ :=
        exists_liesIn_of_still noLiteral (not_exists.1 separator)
      exact ⟨word, word, hfirst, hsecond, iff_of_false (not_not_intro rfl) separator⟩
  · rintro before after blank hblank rfl
    -- outside quotes and escapes the blank parts words, elsewhere it is a literal
    split_ifs with houtside
    · exact split_append_blank hblank ((Scanner.eq_start_iff _).2 houtside)
    · exact flatten_split_append_blank hblank fun hstart =>
        houtside ((Scanner.eq_start_iff _).1 hstart)

/-- A line with a blank that is taken literally, a quoted piece and a blank that parts words. -/
def partedLine : String := "\\ 'a'\u2003b"

/-- The first blank is a literal, the second one is a separator, and parts the word before it from
the one after it. -/
theorem words_of_roles_sample :
    (partedLine.toList = ['\\'] ++ ' ' :: "'a'\u2003b".toList ∧
      ∃ role, ∀ other : Role, other.Fits (Scanner.start.after ['\\']) ' ' ↔ other = role) ∧
    (literals [(.delimiter, '\''), (.separator, '\u2003')] = [] ∧
      Scanner.start.roles partedLine.toList =
        [(.escape, '\\'), (.literal, ' '), (.delimiter, '\'')] ++
          (.literal, 'a') :: ([(.delimiter, '\''), (.separator, '\u2003')] ++ [(.literal, 'b')]) ∧
      ∃ first second, LiesIn ((split partedLine).map String.toList) 1 first ∧
        LiesIn ((split partedLine).map String.toList) 2 second ∧ first ≠ second) ∧
    (isBlank '\u2003' = true ∧ partedLine = "\\ 'a'" ++ String.singleton '\u2003' ++ "b" ∧
      split partedLine = split "\\ 'a'" ++ split "b") := by
  obtain ⟨⟨-, hrole⟩, -, -, hparted, -, hsplit⟩ := words_of_roles partedLine
  obtain ⟨role, -, hfits⟩ := hrole ['\\'] ' ' "'a'\u2003b".toList (by decide)
  obtain ⟨first, second, hfirst, hsecond, hne⟩ :=
    hparted [(.escape, '\\'), (.literal, ' '), (.delimiter, '\'')] 'a'
      [(.delimiter, '\''), (.separator, '\u2003')] 'b' [] (by decide) (by decide)
  have hwords := hsplit "\\ 'a'" "b" '\u2003' (by decide) (by decide)
  rw [if_pos (by decide)] at hwords
  exact ⟨⟨by decide, role, hfits⟩, ⟨by decide, by decide, first, second, hfirst, hsecond,
    hne.2 ⟨'\u2003', by decide⟩⟩, by decide, by decide, hwords⟩

/-- Adjacent quoted pieces are one word, and a quote that is never closed runs to the end. -/
example : split "a\\ b 'c\"d'e\u2003\"f g" = ["a b", "c\"de", "f g"] := by decide

end AsmScope.CommandLine
