import AsmScope.Assembly
import Mathlib.Data.List.TakeWhile
/-! # Lines without directives

A listing whose only line ends are line feeds is cut, filtered and joined again: the lines of the
result are the lines that are shown (`splitOn_stripChars`), unless there is none. So nothing is left
to take away from a result, and it does not matter whether the lines of the listing end with a line
feed alone or with a carriage return before it. -/

namespace AsmScope.Assembly

open Text

/-- A line that is shown: its first character that is not blank, if it has one, begins neither a
directive nor a comment. -/
def Shown (line : List Char) : Prop :=
  ∀ c ∈ line.find? fun c => !isBlank c, c ≠ '#' ∧ c ≠ ';'

/-- A line is shown exactly if it is no directive. -/
theorem shown_iff (line : List Char) : Shown line ↔ isDirective line = false := by
  have hfirst : line.find? (fun c => !isBlank c) = (trimStart line).head? := by
    rw [List.find?_eq_head?_dropWhile_not, trimStart]
    simp only [Bool.not_not]
  rw [Shown, hfirst, isDirective]
  cases trimStart line with
  | nil => simp
  | cons c rest => simp

instance : DecidablePred Shown := fun line =>
  decidable_of_iff (isDirective line = false) (shown_iff line).symm

/-- The lines of a listing without carriage returns that are shown. -/
def shownLines (asm : List Char) : List (List Char) :=
  (asm.splitOn '\n').filter fun line => Shown line

/-- The same listing with a carriage return before every line feed. -/
def withCarriageReturns (asm : List Char) : List Char :=
  asm.flatMap fun c => if c = '\n' then ['\r', '\n'] else [c]

variable {asm line : List Char}

/-! ### Line ends -/

/-- Cutting at a separator is splitting a list at it. -/
theorem cutAt_eq_splitOn (separator : Char) (cs : List Char) :
    cutAt separator cs = cs.splitOn separator := by
  have hpieces : ∀ piece ∈ cutAt separator cs, separator ∉ piece :=
    fun _ => not_mem_of_mem_cutAt
  rw [← List.splitOn_intercalate separator hpieces (cutAt_ne_nil separator cs),
    intercalate_cutAt]

/-- Where there are no carriage returns none are dropped. -/
theorem dropCarriageReturns_of_notMem (plain : '\r' ∉ asm) : dropCarriageReturns asm = asm := by
  induction asm with
  | nil => rfl
  | cons c rest ih =>
    rw [List.mem_cons, not_or] at plain
    rw [dropCarriageReturns, ih plain.2]
    rintro _ rfl
    exact absurd rfl plain.1

/-- Dropping the carriage returns that were put before line feeds gives the listing back. -/
theorem dropCarriageReturns_withCarriageReturns (plain : '\r' ∉ asm) :
    dropCarriageReturns (withCarriageReturns asm) = asm := by
  induction asm with
  | nil => rfl
  | cons c rest ih =>
    rw [List.mem_cons, not_or] at plain
    rw [withCarriageReturns, List.flatMap_cons, ← withCarriageReturns]
    split
    · next h => rw [List.cons_append, List.singleton_append, dropCarriageReturns, ih plain.2, h]
    · rw [List.singleton_append, dropCarriageReturns, ih plain.2]
      rintro _ rfl
      exact absurd rfl plain.1

/-! ### Joined lines -/

/-- What lines joined by line feeds hold besides these comes from the lines. -/
theorem mem_of_mem_intercalate {c : Char} {lines : List (List Char)}
    (h : c ∈ ['\n'].intercalate lines) : c = '\n' ∨ ∃ line ∈ lines, c ∈ line := by
  induction lines with
  | nil => cases h
  | cons line lines ih =>
    by_cases hlines : lines = []
    · rw [hlines, List.intercalate_singleton] at h
      exact .inr ⟨line, List.mem_cons_self, h⟩
    · rw [List.intercalate_cons_of_ne_nil hlines, List.append_assoc, List.mem_append,
        List.mem_append, List.mem_singleton] at h
      rcases h with h | h | h
      · exact .inr ⟨line, List.mem_cons_self, h⟩
      · exact .inl h
      · rcases ih h with hfeed | ⟨other, hother, hc⟩
        · exact .inl hfeed
        · exact .inr ⟨other, List.mem_cons_of_mem _ hother, hc⟩

/-- A character of one of the lines is one of the listing. -/
theorem mem_intercalate_of_mem {c : Char} {lines : List (List Char)} (h : line ∈ lines)
    (hc : c ∈ line) : c ∈ ['\n'].intercalate lines := by
  induction lines with
  | nil => cases h
  | cons first lines ih =>
    by_cases hlines : lines = []
    · rw [hlines, List.mem_singleton] at h
      rwa [hlines, List.intercalate_singleton, ← h]
    · rw [List.intercalate_cons_of_ne_nil hlines, List.append_assoc, List.mem_append,
        List.mem_append]
      rcases List.mem_cons.1 h with rfl | hrest
      · exact .inl hc
      · exact .inr (.inr (ih hrest))

/-- A line of a listing holds no line feed, and no carriage return if the listing has none. -/
theorem notMem_of_mem_shownLines (h : line ∈ shownLines asm) :
    '\n' ∉ line ∧ ('\r' ∉ asm → '\r' ∉ line) := by
  have hline : line ∈ asm.splitOn '\n' := (List.mem_filter.1 h).1
  refine ⟨?_, fun plain hreturn => plain ?_⟩
  · rw [← cutAt_eq_splitOn] at hline
    exact not_mem_of_mem_cutAt hline
  · have hjoined : ['\n'].intercalate (asm.splitOn '\n') = asm := List.intercalate_splitOn '\n'
    rw [← hjoined]
    exact mem_intercalate_of_mem hline hreturn

/-! ### What is left of a listing -/

/-- What is left are the shown lines, joined by line feeds. -/
theorem stripChars_eq (plain : '\r' ∉ asm) :
    stripChars asm = ['\n'].intercalate (shownLines asm) := by
  rw [stripChars, linesOf, dropCarriageReturns_of_notMem plain, cutAt_eq_splitOn, shownLines]
  congr 1
  refine List.filter_congr fun line _ => ?_
  rw [Bool.eq_iff_iff, decide_eq_true_iff, shown_iff, Bool.not_eq_true']

/-- Carriage returns before line feeds make no difference to what is left of a listing. -/
theorem stripChars_withCarriageReturns (plain : '\r' ∉ asm) :
    stripChars (withCarriageReturns asm) = stripChars asm := by
  rw [stripChars, stripChars, linesOf, linesOf, dropCarriageReturns_withCarriageReturns plain,
    dropCarriageReturns_of_notMem plain]

/-- **The lines of what is left** are the lines that are shown, if there is any. -/
theorem splitOn_stripChars (plain : '\r' ∉ asm) (ne : shownLines asm ≠ []) :
    (stripChars asm).splitOn '\n' = shownLines asm := by
  rw [stripChars_eq plain]
  exact List.splitOn_intercalate '\n' (fun _ hline => (notMem_of_mem_shownLines hline).1) ne

/-- What is left has no carriage return, if the listing has none. -/
theorem notMem_stripChars (plain : '\r' ∉ asm) : '\r' ∉ stripChars asm := by
  rw [stripChars_eq plain]
  intro h
  rcases mem_of_mem_intercalate h with hfeed | ⟨line, hline, hreturn⟩
  · cases hfeed
  · exact (notMem_of_mem_shownLines hline).2 plain hreturn

/-- Nothing is left to take away. -/
theorem stripChars_stripChars (plain : '\r' ∉ asm) :
    stripChars (stripChars asm) = stripChars asm := by
  by_cases hnone : shownLines asm = []
  · rw [stripChars_eq plain, hnone]
    rfl
  · have hall : shownLines (stripChars asm) = shownLines asm := by
      rw [shownLines, splitOn_stripChars plain hnone]
      exact List.filter_eq_self.2 fun line hline => (List.mem_filter.1 hline).2
    rw [stripChars_eq (notMem_stripChars plain), hall, stripChars_eq plain]

/-- The line feed at the end of a listing opens an empty line, which is shown. -/
theorem shownLines_concat (front : List Char) :
    shownLines (front ++ ['\n']) = shownLines front ++ [[]] := by
  have hlines : (front ++ ['\n']).splitOn '\n' = front.splitOn '\n' ++ [[]] := by
    rw [← cutAt_eq_splitOn, ← cutAt_eq_splitOn, cutAt_append_cons]
    rfl
  rw [shownLines, shownLines, hlines, List.filter_append]
  rfl

/-- A line feed at the end stays there, if a line before it stays. -/
theorem stripChars_concat {front : List Char} (plain : '\r' ∉ front) (ne : shownLines front ≠ []) :
    stripChars (front ++ ['\n']) = stripChars front ++ ['\n'] := by
  have hplain : '\r' ∉ front ++ ['\n'] := by simpa using plain
  rw [stripChars_eq plain, stripChars_eq hplain, shownLines_concat, intercalate_concat '\n' ne]

/-- **A listing without directives.** Take a listing that has line feeds, but no carriage returns.
With a carriage return before every line feed it gives the same result, and a result stays as it is
when its directives are taken away again. The lines of the result are the lines of the listing whose
first character that is not blank, if there is one, is neither `#` nor `;`, in their order; if there
is no such line, the result is empty. So a line feed at the end stays there if there is such a line
before it. -/
theorem stripDirectives_of_feeds (asm : String) (plain : '\r' ∉ asm.toList) :
    stripDirectives (String.ofList (withCarriageReturns asm.toList)) = stripDirectives asm ∧
      stripDirectives (stripDirectives asm) = stripDirectives asm ∧
      ((∃ line ∈ asm.toList.splitOn '\n', Shown line) →
        (stripDirectives asm).toList.splitOn '\n' =
          (asm.toList.splitOn '\n').filter fun line => Shown line) ∧
      ((∀ line ∈ asm.toList.splitOn '\n', ¬Shown line) → stripDirectives asm = "") ∧
      ∀ front, asm = front ++ "\n" → (∃ line ∈ front.toList.splitOn '\n', Shown line) →
        stripDirectives asm = stripDirectives front ++ "\n" := by
  have hne : ∀ asm : List Char, (∃ line ∈ asm.splitOn '\n', Shown line) → shownLines asm ≠ [] := by
    rintro asm ⟨line, hline, hshown⟩
    exact List.ne_nil_of_mem (List.mem_filter.2 ⟨hline, decide_eq_true hshown⟩)
  simp only [stripDirectives, String.toList_ofList]
  refine ⟨?_, ?_, fun shows => splitOn_stripChars plain (hne _ shows), fun hides => ?_, ?_⟩
  · rw [stripChars_withCarriageReturns plain]
  · rw [stripChars_stripChars plain]
  · have hnone : shownLines asm.toList = [] :=
      List.filter_eq_nil_iff.2 fun line hline => by simpa using hides line hline
    rw [stripChars_eq plain, hnone]
    rfl
  · rintro front rfl shows
    have hplain : '\r' ∉ front.toList := fun h => plain (by simp [h])
    have hfeed : "\n".toList = ['\n'] := rfl
    rw [String.toList_append, hfeed, stripChars_concat hplain (hne _ shows), String.ofList_append]

/-- A listing whose lines are indented, are empty, or begin with a space that ends no line. -/
def sampleListing : String := "\t.text\n  # a\n\n\u2028; b\n c ; d\n"

/-- Two of its lines are taken away, and its last line feed stays. -/
theorem stripDirectives_of_feeds_sample :
    '\r' ∉ sampleListing.toList ∧
      stripDirectives (String.ofList (withCarriageReturns sampleListing.toList)) =
        stripDirectives sampleListing ∧
      (stripDirectives sampleListing).toList.splitOn '\n' =
        ["\t.text".toList, [], " c ; d".toList, []] := by
  have hplain : '\r' ∉ sampleListing.toList := by decide
  have hshows : ∃ line ∈ sampleListing.toList.splitOn '\n', Shown line :=
    ⟨"\t.text".toList, by decide, by decide⟩
  obtain ⟨hreturns, -, hlines, -, -⟩ := stripDirectives_of_feeds sampleListing hplain
  exact ⟨hplain, hreturns, (hlines hshows).trans (by decide)⟩

end AsmScope.Assembly
