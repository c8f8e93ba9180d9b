import AsmScope.Json.Parser
import Mathlib.Data.List.DropRight
/-! # What the reader refuses for its size

Besides texts that break the grammar, the reader refuses integers with too many digits and values
that are nested too deep. Both can be seen in the text without reading it: it refuses an integer
only if there is a run of that many digits (`longRun_of_parse`), and a nesting only if brackets are
open inside each other that often, those between quotes not counted (`maxNesting_lt_of_parse`). -/

namespace AsmScope.Json

/-! ### Brackets -/

/-- Behind a character no more brackets are open than from it on. -/
theorem nesting_tail_le (spot : Spot) (level : Nat) (c : Char) (cs : List Char) :
    nesting (spot.next c) (spot.level level c) cs ≤ nesting spot level (c :: cs) :=
  Nat.le_max_right _ _

/-- The brackets that are open at most are no fewer than those that are open before. -/
theorem le_nesting (spot : Spot) (level : Nat) (cs : List Char) :
    level ≤ nesting spot level cs := by
  cases cs with
  | nil => exact Nat.le_refl level
  | cons c cs => exact Nat.le_max_left _ _

/-- A text that is its own front within a limit is not nested deeper. -/
theorem nesting_le_of_frontWithin {limit : Nat} {cs : List Char} {spot : Spot} {level : Nat}
    (start : level ≤ limit) (whole : frontWithin limit spot level cs = cs) :
    nesting spot level cs ≤ limit := by
  induction cs generalizing spot level with
  | nil => exact start
  | cons c cs ih =>
    rw [frontWithin] at whole
    split at whole
    · next hlevel => exact Nat.max_le.2 ⟨start, ih hlevel (List.cons.inj whole).2⟩
    · cases whole

/-! ### What is left -/

/-- Reading from such a spot, inside of so many brackets, ends at this rest: outside of quotes, with
these brackets closed and no others left open. -/
structure Ends (spot : Spot) (within : Nat) (rest cs : List Char) : Prop where
  suffix : rest <:+ cs
  nesting_le : ∀ level, nesting .outside level rest ≤ nesting spot (level + within) cs

/-- Whole parts have been read. -/
abbrev Behind : List Char → List Char → Prop := Ends .outside 0

/-- The character is no quote and no bracket. -/
abbrev Plain (c : Char) : Prop := c ∉ ['"', '[', ']', '{', '}']

section Ends

variable {spot : Spot} {within : Nat} {rest cs ds : List Char} {c : Char}

/-- Nothing has been read. -/
theorem Behind.refl (cs : List Char) : Behind cs cs := ⟨List.suffix_rfl, fun _ => Nat.le_refl _⟩

/-- Reading from a later place on ends where reading from an earlier one does, with whole parts
between them. -/
theorem Ends.trans (h : Ends .outside within rest ds) (h' : Behind ds cs) :
    Ends .outside within rest cs :=
  ⟨h.suffix.trans h'.suffix,
    fun level => Nat.le_trans (h.nesting_le level) (h'.nesting_le (level + within))⟩

/-- One character more is read if it leads to the spot and the brackets from which the rest is. -/
theorem Ends.cons {spot' : Spot} {within' : Nat} (h : Ends spot' within' rest cs)
    (next : spot.next c = spot')
    (levels : ∀ level, spot.level (level + within) c = level + within') :
    Ends spot within rest (c :: cs) := by
  subst next
  refine ⟨h.suffix.trans (List.suffix_cons c cs), fun level => ?_⟩
  have htail := nesting_tail_le spot (level + within) c cs
  rw [levels level] at htail
  exact Nat.le_trans (h.nesting_le level) htail

/-- A character that is no quote and no bracket is a whole part. -/
theorem behind_cons (plain : Plain c) (cs : List Char) : Behind cs (c :: cs) := by
  simp only [Plain, List.mem_cons, List.not_mem_nil, or_false, not_or] at plain
  exact (Behind.refl cs).cons (if_neg plain.1) fun level => by simp [Spot.level, plain]

/-- Many characters that are no quotes and no brackets are whole parts. -/
theorem behind_append {read : List Char} (plain : ∀ c ∈ read, Plain c) (rest : List Char) :
    Behind rest (read ++ rest) := by
  induction read with
  | nil => exact .refl rest
  | cons c read ih =>
    obtain ⟨hc, hread⟩ := List.forall_mem_cons.1 plain
    exact (ih hread).trans (behind_cons hc _)

/-- What is skipped is whole parts, if no quotes and no brackets are skipped. -/
theorem behind_dropWhile {p : Char → Bool} (plain : ∀ c, p c → Plain c) (cs : List Char) :
    Behind (cs.dropWhile p) cs := by
  have hplain : ∀ c ∈ cs.takeWhile p, Plain c := fun c hc => plain c (List.mem_takeWhile_imp hc)
  have hread := behind_append hplain (cs.dropWhile p)
  rwa [List.takeWhile_append_dropWhile] at hread

/-- An opening bracket, with all up to the closing one. -/
theorem Ends.opened (opens : c = '[' ∨ c = '{') (h : Ends .outside 1 rest cs) :
    Behind rest (c :: cs) := by
  rcases opens with rfl | rfl
  · exact h.cons rfl fun _ => rfl
  · exact h.cons rfl fun _ => rfl

/-- A closing bracket closes the one bracket that is open. -/
theorem ends_closing (closes : c = ']' ∨ c = '}') (cs : List Char) :
    Ends .outside 1 cs (c :: cs) := by
  rcases closes with rfl | rfl
  · exact (Behind.refl cs).cons rfl fun _ => rfl
  · exact (Behind.refl cs).cons rfl fun _ => rfl

end Ends

/-! ### What is refused -/

/-- Some digits in a row are more than are converted. -/
def LongRun (cs : List Char) : Prop :=
  ∃ digits, digits <:+: cs ∧ (∀ c ∈ digits, isDigit c) ∧ maxIntegerDigits < digits.length

/-- What a refusal tells of the characters, where this many brackets may still be opened inside each
other. -/
def Refused (depth : Nat) (cs : List Char) : ReadError → Prop
  | .malformed .. => True
  | .integerTooLong => LongRun cs
  | .nestedTooDeep => ∀ level, level + depth < nesting .outside level cs

/-- An opening bracket opens one more, and what follows stands outside of quotes. -/
theorem level_opening {c : Char} (opens : c = '[' ∨ c = '{') (level : Nat) :
    Spot.outside.next c = .outside ∧ Spot.outside.level level c = level + 1 := by
  rcases opens with rfl | rfl <;> exact ⟨rfl, rfl⟩

/-- A long run of digits in the rest of a text is one in the text. -/
theorem LongRun.of_suffix {rest cs : List Char} (h : LongRun rest) (suffix : rest <:+ cs) :
    LongRun cs := by
  obtain ⟨digits, hdigits, hlong⟩ := h
  exact ⟨digits, hdigits.trans suffix.isInfix, hlong⟩

/-- What a refusal tells of the rest it tells of a text from which whole parts were read before. -/
theorem Refused.of_behind {depth : Nat} {rest cs : List Char} {error : ReadError}
    (h : Refused depth rest error) (behind : Behind rest cs) : Refused depth cs error := by
  cases error with
  | malformed => trivial
  | integerTooLong => exact h.of_suffix behind.suffix
  | nestedTooDeep => exact fun level => Nat.lt_of_lt_of_le (h level) (behind.nesting_le level)

/-- Behind an opening bracket one bracket less may be opened. -/
theorem Refused.opened {depth : Nat} {c : Char} {cs : List Char} {error : ReadError}
    (opens : c = '[' ∨ c = '{') (h : Refused depth cs error) :
    Refused (depth + 1) (c :: cs) error := by
  cases error with
  | malformed => trivial
  | integerTooLong => exact h.of_suffix (List.suffix_cons c cs)
  | nestedTooDeep =>
    intro level
    have hrest := h (level + 1)
    have htail := nesting_tail_le .outside level c cs
    rw [(level_opening opens level).1, (level_opening opens level).2] at htail
    omega

/-- A bracket where none may be opened. -/
theorem refused_opening {c : Char} (opens : c = '[' ∨ c = '{') (cs : List Char) :
    Refused 0 (c :: cs) .nestedTooDeep := by
  intro level
  have htail := nesting_tail_le .outside level c cs
  rw [(level_opening opens level).1, (level_opening opens level).2] at htail
  have hlevel := le_nesting .outside (level + 1) cs
  omega

/-- A reading goes well and leaves such a rest, or is refused. -/
def Accounts {α : Type} (depth : Nat) (cs : List Char) (Leaves : List Char → Prop) :
    Except ReadError (α × List Char) → Prop
  | .ok (_, rest) => Leaves rest
  | .error error => Refused depth cs error

section Accounts

variable {α β : Type} {depth : Nat} {rest cs : List Char}

/-- Two readings in a row account for what they leave or are refused, if each of them does. -/
theorem Accounts.bind {Leaves : List Char → Prop} {reading : Except ReadError (α × List Char)}
    {next : α × List Char → Except ReadError (β × List Char)}
    (h : Accounts depth cs (Behind · cs) reading)
    (h' : ∀ value rest, Behind rest cs → Accounts depth cs Leaves (next (value, rest))) :
    Accounts depth cs Leaves (reading >>= next) := by
  match reading with
  | .ok (value, rest) => exact h' value rest h
  | .error _ => exact h

/-- What a reading leaves may be said more weakly. -/
theorem Accounts.mono {Leaves Leaves' : List Char → Prop}
    {reading : Except ReadError (α × List Char)} (h : Accounts depth cs Leaves reading)
    (imp : ∀ rest, Leaves rest → Leaves' rest) : Accounts depth cs Leaves' reading := by
  match reading with
  | .ok (_, rest) => exact imp rest h
  | .error _ => exact h

/-- A reading of the rest is one of the text from which whole parts were read before. -/
theorem Accounts.of_behind {within : Nat} {reading : Except ReadError (α × List Char)}
    (h : Accounts depth rest (Ends .outside within · rest) reading) (behind : Behind rest cs) :
    Accounts depth cs (Ends .outside within · cs) reading := by
  match reading with
  | .ok (value, left) => exact Ends.trans h behind
  | .error _ => exact Refused.of_behind h behind

/-- A reading behind an opening bracket, up to the closing one, reads a whole part. -/
theorem Accounts.opened {c : Char} {reading : Except ReadError (α × List Char)}
    (opens : c = '[' ∨ c = '{') (h : Accounts depth cs (Ends .outside 1 · cs) reading) :
    Accounts (depth + 1) (c :: cs) (Behind · (c :: cs)) reading := by
  match reading with
  | .ok (value, left) => exact Ends.opened opens h
  | .error _ => exact Refused.opened opens h

end Accounts

/-! ### Texts, numbers and words -/

/-- A digit is no quote and no bracket. -/
theorem plain_of_isDigit {c : Char} (h : isDigit c) : Plain c := by
  rintro hc
  simp only [List.mem_cons, List.not_mem_nil, or_false] at hc
  rcases hc with rfl | rfl | rfl | rfl | rfl <;> cases h

/-- What may stand between parts is no quote and no bracket. -/
theorem behind_skipGap (cs : List Char) : Behind (skipGap cs) cs := by
  refine behind_dropWhile (fun c hc => ?_) cs
  rintro hplain
  simp only [List.mem_cons, List.not_mem_nil, or_false] at hplain
  rcases hplain with rfl | rfl | rfl | rfl | rfl <;> cases hc

/-- Characters between quotes that are no quote and no backslash. -/
theorem Ends.quoted {c : Char} {rest cs : List Char} (h : Ends .quoted 0 rest cs) (quote : c ≠ '"')
    (backslash : c ≠ '\\') : Ends .quoted 0 rest (c :: cs) :=
  h.cons (by rw [Spot.next, if_neg quote, if_neg backslash]) fun _ => rfl

/-- A character between quotes behind a backslash. -/
theorem Ends.escaped {c : Char} {rest cs : List Char} (h : Ends .quoted 0 rest cs) :
    Ends .quoted 0 rest ('\\' :: c :: cs) := by
  have hescaped : Ends .escaped 0 rest (c :: cs) := h.cons rfl fun _ => rfl
  exact hescaped.cons rfl fun _ => rfl

/-- A hexadecimal digit is no quote and no backslash. -/
theorem ne_of_hexValue? {c : Char} {n : Nat} (h : hexValue? c = some n) : c ≠ '"' ∧ c ≠ '\\' := by
  constructor <;> rintro rfl <;> cases h

/-- Four hexadecimal digits are neither quotes nor backslashes. -/
theorem hexValue?_of_hex4? {a b c d : Char} {n : Nat} (h : hex4? a b c d = some n) :
    ∀ e ∈ [a, b, c, d], e ≠ '"' ∧ e ≠ '\\' := by
  simp only [hex4?, Option.bind_eq_bind, Option.bind_eq_some_iff] at h
  obtain ⟨_, ha, _, hb, _, hc, _, hd, -⟩ := h
  simp only [List.forall_mem_cons]
  exact ⟨ne_of_hexValue? ha, ne_of_hexValue? hb, ne_of_hexValue? hc, ne_of_hexValue? hd, nofun⟩

/-- A text is read up to its closing quote. -/
theorem accounts_readUnits (depth opening : Nat) (all : List Char) (units : List Nat)
    (cs : List Char) :
    Accounts depth all (Ends .quoted 0 · cs) (readUnits opening units cs) := by
  -- what matters of each branch is which characters it has read
  fun_induction readUnits opening units cs with
  | case1 | case3 | case4 | case6 | case7 | case9 | case10 => trivial
  | case2 units rest => exact (Behind.refl rest).cons rfl fun _ => rfl
  | case5 units a b c d rest n hhex hrest ih =>
    -- the digits after an escape are no quotes
    have hdigits := hexValue?_of_hex4? hhex
    simp only [List.forall_mem_cons] at hdigits
    obtain ⟨⟨ha, ha'⟩, ⟨hb, hb'⟩, ⟨hc, hc'⟩, ⟨hd, hd'⟩, -⟩ := hdigits
    exact ih.mono fun _ h =>
      ((((h.quoted hd hd').quoted hc hc').quoted hb hb').quoted ha ha').escaped
  | case8 units c rest hu hu' e he ih => exact ih.mono fun _ h => h.escaped
  | case11 units c rest hquote hlast hunicode hescape hcontrol ih =>
    have hbackslash : c ≠ '\\' := by
      rintro rfl
      cases rest with
      | nil => exact hlast rfl rfl
      | cons d rest => exact hescape d rest rfl rfl
    exact ih.mono fun _ h => h.quoted hquote hbackslash

/-- Reading a text between quotes accounts for what it leaves. -/
theorem accounts_readText (depth : Nat) (cs : List Char) :
    Accounts depth ('"' :: cs) (Behind · ('"' :: cs)) (readText cs) := by
  have hunits := accounts_readUnits depth (cs.length + 1) ('"' :: cs) [] cs
  rw [readText]
  match hread : readUnits (cs.length + 1) [] cs with
  | .ok (units, rest) =>
    rw [hread] at hunits
    exact Ends.cons hunits rfl fun _ => rfl
  | .error _ =>
    rw [hread] at hunits
    exact hunits

/-- The digits of a whole number stand at the front of the characters. -/
theorem wholeDigits?_eq_some {cs whole rest : List Char}
    (h : wholeDigits? cs = some (whole, rest)) : whole ++ rest = cs ∧ ∀ c ∈ whole, isDigit c := by
  cases cs with
  | nil => cases h
  | cons c cs =>
    rw [wholeDigits?] at h
    split at h
    · next hzero =>
      cases h
      subst hzero
      exact ⟨rfl, List.forall_mem_singleton.2 rfl⟩
    · split at h
      · next hdigit =>
        cases h
        refine ⟨congrArg (c :: ·) List.takeWhile_append_dropWhile, ?_⟩
        exact List.forall_mem_cons.2 ⟨hdigit, fun _ => List.mem_takeWhile_imp⟩
      · cases h

/-- The digits of a fraction are a whole part. -/
theorem behind_fractionDigits (cs : List Char) : Behind (fractionDigits cs).2 cs := by
  unfold fractionDigits
  split
  · next rest =>
    split
    · exact .refl _
    · exact (behind_dropWhile (fun _ => plain_of_isDigit) rest).trans (behind_cons (by decide) rest)
  · exact .refl cs

/-- The sign of an exponent is a whole part. -/
theorem behind_exponentSign (cs : List Char) : Behind (exponentSign cs).2 cs := by
  unfold exponentSign
  split
  · next rest => exact behind_cons (by decide) rest
  · next rest => exact behind_cons (by decide) rest
  · exact .refl cs

/-- An exponent is a whole part. -/
theorem behind_of_exponent? {cs rest : List Char} {power : Int}
    (h : exponent? cs = some (power, rest)) : Behind rest cs := by
  unfold exponent? at h
  split at h
  · cases h
  · next c cs =>
    split at h
    · next hmark =>
      dsimp only at h
      split at h
      · cases h
      · cases h
        have hplain : Plain c := by rcases hmark with rfl | rfl <;> decide
        have hdigits := behind_dropWhile (fun _ => plain_of_isDigit) (exponentSign cs).2
        exact (hdigits.trans (behind_exponentSign cs)).trans (behind_cons hplain cs)
    · cases h

/-- Reading a number without its sign accounts for what it leaves. -/
theorem accounts_readUnsigned (depth : Nat) (negative : Bool) (start cs : List Char) :
    Accounts depth cs (Behind · cs) (readUnsigned negative start cs) := by
  rw [readUnsigned]
  split
  · trivial
  · next whole rest hwhole =>
    obtain ⟨rfl, hdigits⟩ := wholeDigits?_eq_some hwhole
    have hrest := behind_append (fun c hc => plain_of_isDigit (hdigits c hc)) rest
    have hfraction := (behind_fractionDigits rest).trans hrest
    dsimp only
    split
    · next power rest' hexponent => exact (behind_of_exponent? hexponent).trans hfraction
    · -- a whole number without fraction and exponent is the only one that may be too long
      split
      · exact hfraction
      · split
        · next hlong => exact ⟨whole, (List.prefix_append whole rest).isInfix, hdigits, hlong⟩
        · exact hfraction

/-- Reading a number accounts for what it leaves. -/
theorem accounts_readNumber (depth : Nat) (cs : List Char) :
    Accounts depth cs (Behind · cs) (readNumber cs) := by
  unfold readNumber
  split
  · next rest =>
    exact (accounts_readUnsigned depth true _ rest).of_behind (behind_cons (by decide) rest)
  · exact accounts_readUnsigned depth false cs cs

/-- A word that stands for a value is a whole part. -/
theorem behind_of_readWord? {value : Json} {cs rest : List Char}
    (h : readWord? cs = some (value, rest)) : Behind rest cs := by
  obtain ⟨⟨word, read⟩, hword, hrest⟩ := List.exists_of_findSome?_eq_some h
  obtain ⟨left, hprefix, hread⟩ := Option.map_eq_some_iff.1 hrest
  cases hread
  rw [List.isPrefixOf?_eq_some_iff_append_eq] at hprefix
  have hplain : ∀ entry ∈ words, ∀ c ∈ entry.1, Plain c := by simp [words, Plain]
  rw [← hprefix]
  exact behind_append (hplain _ hword) rest

/-! ### Values -/

/-- A comma or a colon, and the gaps around it. -/
theorem behind_separator {c : Char} {rest cs : List Char} (plain : Plain c)
    (h : skipGap cs = c :: rest) : Behind (skipGap rest) cs := by
  have hgap := behind_skipGap cs
  rw [h] at hgap
  exact ((behind_skipGap rest).trans (behind_cons plain rest)).trans hgap

/-- A closing bracket, and the gap before it. -/
theorem ends_of_closing {c : Char} {rest cs : List Char} (closes : c = ']' ∨ c = '}')
    (h : skipGap cs = c :: rest) : Ends .outside 1 rest cs := by
  have hgap := behind_skipGap cs
  rw [h] at hgap
  exact (ends_closing closes rest).trans hgap

/-- **What is left and what is refused** by the readers of values, of items and of fields. -/
theorem accounts_read (fuel : Nat) :
    (∀ depth cs, Accounts depth cs (Behind · cs) (readValue fuel depth cs)) ∧
    (∀ depth items cs, Accounts depth cs (Ends .outside 1 · cs) (readItems fuel depth items cs)) ∧
    ∀ depth fields cs,
      Accounts depth cs (Ends .outside 1 · cs) (readFields fuel depth fields cs) := by
  induction fuel with
  | zero => exact ⟨fun _ _ => trivial, fun _ _ _ => trivial, fun _ _ _ => trivial⟩
  | succ fuel ih =>
    obtain ⟨hvalue, hitems, hfields⟩ := ih
    refine ⟨fun depth cs => ?_, fun depth items cs => ?_, fun depth fields cs => ?_⟩
    · -- a bracket takes one from the depth, and what is inside of it is read with less fuel
      unfold readValue
      split
      · next rest => exact (accounts_readText depth rest).bind fun _ _ behind => behind
      · next rest =>
        split
        · exact refused_opening (.inl rfl) rest
        · next closed => exact (ends_of_closing (.inl rfl) closed).opened (.inl rfl)
        · exact ((hitems _ [] _).of_behind (behind_skipGap rest)).opened (.inl rfl)
      · next rest =>
        split
        · exact refused_opening (.inr rfl) rest
        · next closed => exact (ends_of_closing (.inr rfl) closed).opened (.inr rfl)
        · exact ((hfields _ [] _).of_behind (behind_skipGap rest)).opened (.inr rfl)
      · split
        · next reading hword => exact behind_of_readWord? hword
        · exact accounts_readNumber depth cs
    · -- after an item there is a comma or the closing bracket
      unfold readItems
      refine (hvalue depth cs).bind fun item rest behind => ?_
      dsimp only
      split
      · next closed => exact (ends_of_closing (.inl rfl) closed).trans behind
      · next comma =>
        exact (hitems depth _ _).of_behind ((behind_separator (by decide) comma).trans behind)
      · trivial
    · -- a field has a name, a colon and a value
      unfold readFields
      split
      · next rest =>
        refine (accounts_readText depth rest).bind fun name rest behind => ?_
        dsimp only
        split
        · next colon =>
          have hcolon := (behind_separator (by decide) colon).trans behind
          refine ((hvalue depth _).of_behind hcolon).bind fun value rest behind => ?_
          dsimp only
          split
          · next closed => exact (ends_of_closing (.inr rfl) closed).trans behind
          · next comma =>
            exact (hfields depth _ _).of_behind ((behind_separator (by decide) comma).trans behind)
          · trivial
        · trivial
      · trivial

/-- A text that is not read as a value is refused for a reason that shows in it. -/
theorem refused_of_parseChars {cs : List Char} {error : ReadError}
    (h : parseChars cs = .error error) : Refused maxNesting cs error := by
  have hvalue := ((accounts_read (2 * cs.length + 2)).1 maxNesting (skipGap cs)).of_behind
    (behind_skipGap cs)
  unfold parseChars at h
  split at h
  · cases h
    trivial
  · match hread : readValue (2 * cs.length + 2) maxNesting (skipGap cs) with
    | .ok (value, rest) =>
      rw [hread] at h
      dsimp only [Bind.bind, Except.bind] at h
      -- what follows the value can only be malformed
      split at h
      · cases h
      · cases h
        trivial
    | .error refusal =>
      rw [hread] at h hvalue
      cases h
      exact hvalue

/-- **An integer is refused for its length** only where digits stand in a row that are too many. -/
theorem longRun_of_parse {s : String} (h : parse s = .error .integerTooLong) : LongRun s.toList :=
  refused_of_parseChars h

/-- **A value is refused for its depth** only where brackets are nested too deep. -/
theorem maxNesting_lt_of_parse {s : String} (h : parse s = .error .nestedTooDeep) :
    maxNesting < nesting .outside 0 s.toList := by
  have hlevel := refused_of_parseChars h 0
  rwa [Nat.zero_add] at hlevel

end AsmScope.Json
