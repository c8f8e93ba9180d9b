/-! # Texts as characters

The classes of characters that are told apart, how a text is cut at its line ends or at a separator,
and how one sequence is looked for in another. Every place that skips or cuts at blanks uses the one
class `isBlank`; there are two notions of a line, one that ends at a line feed only and one that
ends at any of the line boundaries of Unicode. -/

namespace AsmScope.Text

/-! ### Classes of characters -/

/-- The blank characters: the ASCII ones with the four information separators, next line, the
no-break space and the space separators and line and paragraph separators of Unicode. -/
def isBlank (c : Char) : Bool :=
  let n := c.toNat
  (0x09 ≤ n && n ≤ 0x0D) || (0x1C ≤ n && n ≤ 0x20) || n == 0x85 || n == 0xA0 || n == 0x1680 ||
    (0x2000 ≤ n && n ≤ 0x200A) || n == 0x2028 || n == 0x2029 || n == 0x202F || n == 0x205F ||
    n == 0x3000

/-- The code points of the zeros of all scripts, in ascending order. The characters of general
category decimal digit come in runs of ten, one for each script, from zero to nine. -/
def digitZeros : List Nat :=
  [0x30, 0x660, 0x6F0, 0x7C0, 0x966, 0x9E6, 0xA66, 0xAE6, 0xB66, 0xBE6, 0xC66, 0xCE6, 0xD66, 0xDE6,
   0xE50, 0xED0, 0xF20, 0x1040, 0x1090, 0x17E0, 0x1810, 0x1946, 0x19D0, 0x1A80, 0x1A90, 0x1B50,
   0x1BB0, 0x1C40, 0x1C50, 0xA620, 0xA8D0, 0xA900, 0xA9D0, 0xA9F0, 0xAA50, 0xABF0, 0xFF10, 0x104A0,
   0x10D30, 0x11066, 0x110F0, 0x11136, 0x111D0, 0x112F0, 0x11450, 0x114D0, 0x11650, 0x116C0,
   0x11730, 0x118E0, 0x11950, 0x11C50, 0x11D50, 0x11DA0, 0x16A60, 0x16AC0, 0x16B50, 0x1D7CE,
   0x1D7D8, 0x1D7E2, 0x1D7EC, 0x1D7F6, 0x1E140, 0x1E2F0, 0x1E950, 0x1FBF0]

/-- Whether a character is a decimal digit of some script. -/
def isDecimalDigit (c : Char) : Bool :=
  digitZeros.any fun first => first ≤ c.toNat && c.toNat ≤ first + 9

/-- The characters that end a line, a carriage return with its line feed counting as one. -/
def isLineBoundary (c : Char) : Bool :=
  let n := c.toNat
  (0x0A ≤ n && n ≤ 0x0D) || (0x1C ≤ n && n ≤ 0x1E) || n == 0x85 || n == 0x2028 || n == 0x2029

/-! ### Blanks and lines -/

/-- Whether a text holds blank characters only. -/
def isBlankText (s : String) : Bool := s.toList.all isBlank

/-- The characters from the first one that is not blank. -/
def trimStart (cs : List Char) : List Char := cs.dropWhile isBlank

/-- The characters without the line feeds at their end. -/
def dropFinalLineFeeds (cs : List Char) : List Char := (cs.reverse.dropWhile (· == '\n')).reverse

/-- A text without the line feeds at its end. -/
def withoutFinalLineFeeds (s : String) : String := String.ofList (dropFinalLineFeeds s.toList)

/-- Collects lines; `current` holds the open line backwards, `none` while no character of a new line
has been seen. -/
def collectLines : Option (List Char) → List Char → List (List Char)
  | none, [] => []
  | some current, [] => [current.reverse]
  | current, '\r' :: '\n' :: rest => (current.getD []).reverse :: collectLines none rest
  | current, c :: rest =>
    if isLineBoundary c then (current.getD []).reverse :: collectLines none rest
    else collectLines (some (c :: current.getD [])) rest

/-- The lines of a text without their ends; an end at the very end of the text opens no new line. -/
def lines (s : String) : List String := (collectLines none s.toList).map String.ofList

/-- Carriage returns, alone or before a line feed, become line feeds. -/
def unifyLineFeeds : List Char → List Char
  | [] => []
  | '\r' :: '\n' :: rest => '\n' :: unifyLineFeeds rest
  | '\r' :: rest => '\n' :: unifyLineFeeds rest
  | c :: rest => c :: unifyLineFeeds rest

/-! ### Cutting at a separator -/

/-- Cuts a text at every occurrence of a character; there is always at least one piece. -/
def cutAt (separator : Char) : List Char → List (List Char)
  | [] => [[]]
  | c :: rest =>
    if c = separator then [] :: cutAt separator rest
    else match cutAt separator rest with
      | [] => [[c]]
      | piece :: pieces => (c :: piece) :: pieces

/-- Cutting gives at least one piece. -/
theorem cutAt_ne_nil (separator : Char) (cs : List Char) : cutAt separator cs ≠ [] := by
  induction cs with
  | nil => simp [cutAt]
  | cons c rest ih =>
    by_cases h : c = separator
    · simp [cutAt, h]
    · simp only [cutAt, h, ↓reduceIte]
      split <;> simp_all

/-- Joining the pieces with the separator gives the text back. -/
theorem intercalate_cutAt (separator : Char) (cs : List Char) :
    [separator].intercalate (cutAt separator cs) = cs := by
  induction cs with
  | nil => simp [cutAt, List.intercalate]
  | cons c rest ih =>
    cases hrest : cutAt separator rest with
    | nil => exact absurd hrest (cutAt_ne_nil separator rest)
    | cons piece pieces =>
      rw [hrest] at ih
      by_cases h : c = separator
      · subst h
        rw [show cutAt c (c :: rest) = [] :: piece :: pieces by simp [cutAt, hrest]]
        simpa [List.intercalate] using ih
      · rw [show cutAt separator (c :: rest) = (c :: piece) :: pieces by simp [cutAt, h, hrest]]
        cases pieces <;> simp_all [List.intercalate]

/-- No piece holds the separator. -/
theorem not_mem_of_mem_cutAt {separator : Char} {cs piece : List Char}
    (h : piece ∈ cutAt separator cs) : separator ∉ piece := by
  -- the character in front ends a piece, or it is the first of the piece after it
  induction cs generalizing piece with
  | nil =>
    rw [List.mem_singleton.1 h]
    exact List.not_mem_nil
  | cons c rest ih =>
    by_cases hc : c = separator
    · simp only [cutAt, hc, ↓reduceIte, List.mem_cons] at h
      rcases h with rfl | h
      · exact List.not_mem_nil
      · exact ih h
    · cases hrest : cutAt separator rest with
      | nil => exact absurd hrest (cutAt_ne_nil separator rest)
      | cons first pieces =>
        simp only [cutAt, hc, ↓reduceIte, hrest, List.mem_cons] at h ih
        rcases h with rfl | h
        · have hnext := ih (.inl rfl)
          simp [Ne.symm hc, hnext]
        · exact ih (.inr h)

/-- Joining with one more piece puts a separator and this piece at the end. -/
theorem intercalate_concat (separator : Char) {pieces : List (List Char)} (ne : pieces ≠ [])
    (last : List Char) :
    [separator].intercalate (pieces ++ [last]) =
      [separator].intercalate pieces ++ separator :: last := by
  induction pieces with
  | nil => exact absurd rfl ne
  | cons piece pieces ih =>
    cases pieces with
    | nil => simp [List.intercalate]
    | cons next pieces =>
      have hrest := ih (List.cons_ne_nil _ _)
      rw [List.cons_append, List.intercalate_cons_of_ne_nil (by simp),
        List.intercalate_cons_of_ne_nil (by simp), hrest]
      simp only [List.append_assoc]

/-- A text without the separator is one piece. -/
theorem cutAt_of_not_mem {separator : Char} {cs : List Char} (h : separator ∉ cs) :
    cutAt separator cs = [cs] := by
  induction cs with
  | nil => rfl
  | cons c rest ih =>
    rw [List.mem_cons, not_or] at h
    simp only [cutAt, if_neg (Ne.symm h.1), ih h.2]

/-- Cutting at one occurrence of the separator and then each side is cutting the whole. -/
theorem cutAt_append_cons (separator : Char) (front rest : List Char) :
    cutAt separator (front ++ separator :: rest) =
      cutAt separator front ++ cutAt separator rest := by
  induction front with
  | nil => simp [cutAt]
  | cons c front ih =>
    by_cases hc : c = separator
    · simp only [List.cons_append, cutAt, hc, ↓reduceIte, ih]
    · cases hfront : cutAt separator front with
      | nil => exact absurd hfront (cutAt_ne_nil separator front)
      | cons piece pieces => simp [cutAt, hc, ih, hfront]

/-- What stands before the first separator is the first piece. -/
theorem cutAt_append {separator : Char} {piece : List Char} (h : separator ∉ piece)
    (rest : List Char) :
    cutAt separator (piece ++ separator :: rest) = piece :: cutAt separator rest := by
  rw [cutAt_append_cons, cutAt_of_not_mem h, List.singleton_append]

/-- Cutting what was joined gives the pieces back. -/
theorem cutAt_intercalate {separator : Char} {pieces : List (List Char)} (ne : pieces ≠ [])
    (h : ∀ piece ∈ pieces, separator ∉ piece) :
    cutAt separator ([separator].intercalate pieces) = pieces := by
  induction pieces with
  | nil => exact absurd rfl ne
  | cons piece pieces ih =>
    have hpiece := h piece List.mem_cons_self
    cases pieces with
    | nil => simpa [List.intercalate] using cutAt_of_not_mem hpiece
    | cons next pieces =>
      have hrest := ih (List.cons_ne_nil _ _)
        fun other hother => h other (List.mem_cons_of_mem _ hother)
      have hjoined : [separator].intercalate (piece :: next :: pieces) =
          piece ++ separator :: [separator].intercalate (next :: pieces) := by
        simp [List.intercalate, List.intersperse]
      rw [hjoined, cutAt_append hpiece, hrest]

/-! ### Occurrences of one sequence in another

For characters and for bytes alike. Occurrences are taken from the left and do not overlap. -/

section Occurrences

universe u

variable {α : Type u} [BEq α]

/-- Whether `pattern` occurs in a sequence. -/
def occursIn (pattern : List α) : List α → Bool
  | [] => pattern.isEmpty
  | c :: rest => pattern.isPrefixOf (c :: rest) || occursIn pattern rest

/-- Puts `replacement` in the place of the first occurrence of `pattern`. -/
def replaceFirst (pattern replacement : List α) : List α → List α
  | [] => if pattern.isEmpty then replacement else []
  | c :: rest =>
    if pattern.isPrefixOf (c :: rest) then replacement ++ (c :: rest).drop pattern.length
    else c :: replaceFirst pattern replacement rest

/-- Replaces the occurrences of a nonempty `pattern`, leaving out the next `skip` elements, which
belong to an occurrence that has been replaced already. -/
def replaceFrom (pattern replacement : List α) : Nat → List α → List α
  | _, [] => []
  | skip + 1, _ :: rest => replaceFrom pattern replacement skip rest
  | 0, c :: rest =>
    if pattern.isPrefixOf (c :: rest) then
      replacement ++ replaceFrom pattern replacement (pattern.length - 1) rest
    else c :: replaceFrom pattern replacement 0 rest

/-- Puts `replacement` in the place of every occurrence of `pattern`; the empty pattern occurs
before every element and at the end. -/
def replaceAll (pattern replacement text : List α) : List α :=
  if pattern.isEmpty then replacement ++ text.flatMap (fun c => c :: replacement)
  else replaceFrom pattern replacement 0 text

end Occurrences

end AsmScope.Text
