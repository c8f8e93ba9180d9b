import AsmScope.Json.Printer
import AsmScope.Proofs.Nesting
import Mathlib.Algebra.Group.Nat.Defs
/-! # Numbers and texts are read back

The reader undoes the writer on integers that are short enough to be read, and on all texts. A
number is read as far as it goes on, so what follows it must not go on with it (`Stops`); a text
ends with a quote of its own, and inside it every character is read back from the escape that it is
written as (`readUnits_escapeChar`). -/

namespace AsmScope.Json

/-! ### Numbers -/

/-- The digits of a number are read as this number. -/
theorem digitsValue_toDigits (n : Nat) : digitsValue (Nat.toDigits 10 n) = n := by
  have hvalue : Nat.ofDigitChars 10 (Nat.toDigits 10 n) 0 = n :=
    Nat.ofDigitChars_toDigits (by decide) (by decide)
  simpa only [Nat.ofDigitChars, digitsValue, Nat.mul_comm] using hvalue

/-- A number is written with digits only. -/
theorem isDigit_of_mem_toDigits {n : Nat} {c : Char} (h : c ∈ Nat.toDigits 10 n) : isDigit c :=
  Nat.isDigit_of_mem_toDigits (by decide) (by decide) h

/-- A digit stands for nine at most. -/
theorem digit_le {c : Char} (h : isDigit c) : c.toNat - '0'.toNat ≤ 9 := by
  simp only [isDigit, Bool.and_eq_true, decide_eq_true_eq] at h
  have hc : c.toNat ≤ '9'.toNat := h.2
  have h9 : '9'.toNat = '0'.toNat + 9 := rfl
  omega

/-- Some digits are read as a number below the power of ten with their count. -/
theorem digitsValue_lt {digits : List Char} (h : ∀ c ∈ digits, isDigit c) :
    digitsValue digits < 10 ^ digits.length := by
  -- the digits are read on from a number that those before gave
  have hfrom : ∀ n, digits.foldl (fun n c => n * 10 + (c.toNat - '0'.toNat)) n <
      (n + 1) * 10 ^ digits.length := by
    induction digits with
    | nil => intro n; simp
    | cons c digits ih =>
      intro n
      obtain ⟨hc, hdigits⟩ := List.forall_mem_cons.1 h
      have hdigit := digit_le hc
      have hstep : n * 10 + (c.toNat - '0'.toNat) + 1 ≤ (n + 1) * 10 := by omega
      calc digits.foldl _ (n * 10 + (c.toNat - '0'.toNat))
          < (n * 10 + (c.toNat - '0'.toNat) + 1) * 10 ^ digits.length := ih hdigits _
        _ ≤ (n + 1) * 10 * 10 ^ digits.length := Nat.mul_le_mul_right _ hstep
        _ = (n + 1) * 10 ^ (c :: digits).length := by
            rw [List.length_cons, Nat.pow_succ', Nat.mul_assoc]
  have hzero := hfrom 0
  rwa [Nat.zero_add, Nat.one_mul] at hzero

/-- Only zero begins with a zero. -/
theorem eq_nil_of_toDigits {n : Nat} {rest : List Char} (h : Nat.toDigits 10 n = '0' :: rest) :
    rest = [] := by
  refine Decidable.byContradiction fun hrest => ?_
  have hdigits : ∀ c ∈ rest, isDigit c := fun c hc =>
    isDigit_of_mem_toDigits (h ▸ List.mem_cons_of_mem _ hc)
  have hvalue : n = digitsValue rest := by
    rw [← digitsValue_toDigits n, h]
    rfl
  have hshort : (Nat.toDigits 10 n).length ≤ rest.length :=
    (Nat.length_toDigits_le_iff (by decide) (List.length_pos_iff.2 hrest)).2
      (hvalue ▸ digitsValue_lt hdigits)
  rw [h, List.length_cons] at hshort
  omega

/-- A number has a first digit, and this is a zero only if it is the only one. -/
theorem exists_cons_toDigits (n : Nat) :
    ∃ c digits, Nat.toDigits 10 n = c :: digits ∧ isDigit c ∧ (c = '0' → digits = []) := by
  obtain ⟨c, digits, h⟩ := List.exists_cons_of_ne_nil (Nat.toDigits_ne_nil (n := n) (b := 10))
  refine ⟨c, digits, h, isDigit_of_mem_toDigits (h ▸ List.mem_cons_self), ?_⟩
  rintro rfl
  exact eq_nil_of_toDigits h

/-- No number goes on with these characters. -/
def Stops (rest : List Char) : Prop :=
  ∀ c ∈ rest.head?, isDigit c = false ∧ c ≠ '.' ∧ c ≠ 'e' ∧ c ≠ 'E'

/-- Digits are read up to where they stop, and what is behind them is left. -/
theorem takeWhile_dropWhile_of_stops {digits rest : List Char} (h : ∀ c ∈ digits, isDigit c)
    (stops : Stops rest) :
    (digits ++ rest).takeWhile isDigit = digits ∧ (digits ++ rest).dropWhile isDigit = rest := by
  rw [List.takeWhile_append_of_pos h, List.dropWhile_append_of_pos h]
  cases rest with
  | nil => simp
  | cons c rest => simp [(stops c rfl).1]

/-- The digits of a number are read back as an integer, with the sign that came before. -/
theorem readUnsigned_toDigits {n : Nat} (small : n < 10 ^ maxIntegerDigits) {rest : List Char}
    (stops : Stops rest) (negative : Bool) (start : List Char) :
    readUnsigned negative start (Nat.toDigits 10 n ++ rest) =
      .ok (.int (if negative then -n else n), rest) := by
  -- the digits are read whole, since the next character is none
  have hwhole : wholeDigits? (Nat.toDigits 10 n ++ rest) = some (Nat.toDigits 10 n, rest) := by
    obtain ⟨c, digits, heq, hc, hzero⟩ := exists_cons_toDigits n
    have hdigits : ∀ d ∈ digits, isDigit d := fun d hd =>
      isDigit_of_mem_toDigits (heq ▸ List.mem_cons_of_mem c hd)
    rw [heq, List.cons_append, wholeDigits?]
    split
    · next h => rw [hzero h, h]; rfl
    · obtain ⟨htake, hdrop⟩ := takeWhile_dropWhile_of_stops hdigits stops
      rw [htake, hdrop]
  -- and neither a fraction nor an exponent follows
  have hfraction : fractionDigits rest = ([], rest) := by
    unfold fractionDigits
    split
    · exact absurd rfl (stops '.' rfl).2.1
    · rfl
  have hexponent : exponent? rest = none := by
    unfold exponent?
    split
    · rfl
    · next c rest =>
      obtain ⟨-, -, he, hE⟩ := stops c rfl
      rw [if_neg (by simp [he, hE])]
  have hshort : (Nat.toDigits 10 n).length ≤ maxIntegerDigits :=
    (Nat.length_toDigits_le_iff (by decide) (by decide)).2 small
  rw [readUnsigned, hwhole]
  dsimp only
  rw [hfraction]
  dsimp only
  rw [hexponent]
  dsimp only
  rw [if_neg (by simp), if_neg (Nat.not_lt.2 hshort), digitsValue_toDigits]

/-- An integer that is short enough is read back as it was written. -/
theorem readNumber_writeInt {n : Int} (small : n.natAbs < 10 ^ maxIntegerDigits)
    {rest : List Char} (stops : Stops rest) :
    readNumber (writeInt n ++ rest) = .ok (.int n, rest) := by
  rw [writeInt]
  split
  · next hneg =>
    rw [List.cons_append, readNumber, readUnsigned_toDigits small stops]
    simp only [if_true, Except.ok.injEq, Prod.mk.injEq, int.injEq, and_true]
    omega
  · next hpos =>
    obtain ⟨c, digits, heq, hc, -⟩ := exists_cons_toDigits n.natAbs
    have hunsigned : ∀ cs, readNumber (c :: cs) = readUnsigned false (c :: cs) (c :: cs) := by
      intro cs
      unfold readNumber
      split
      · next h => cases h; cases hc
      · rfl
    have hread := readUnsigned_toDigits small stops false (Nat.toDigits 10 n.natAbs ++ rest)
    rw [heq, List.cons_append] at hread ⊢
    rw [hunsigned, hread]
    simp only [Bool.false_eq_true, if_false, Except.ok.injEq, Prod.mk.injEq, int.injEq, and_true]
    omega

/-- A digit is none of the characters that are no digits. -/
theorem ne_of_isDigit {c d : Char} (h : isDigit c) (hd : isDigit d = false) : c ≠ d := by
  rintro rfl
  rw [h] at hd
  cases hd

/-- A written integer begins with a digit, or with a minus sign and a digit. -/
theorem exists_cons_writeInt (n : Int) :
    ∃ c cs, writeInt n = c :: cs ∧ (isDigit c ∨ c = '-' ∧ ∃ d ds, cs = d :: ds ∧ isDigit d) := by
  obtain ⟨d, ds, h, hd, -⟩ := exists_cons_toDigits n.natAbs
  rw [writeInt]
  split
  · exact ⟨'-', _, rfl, .inr ⟨rfl, d, ds, h, hd⟩⟩
  · exact ⟨d, ds, h, .inl hd⟩

/-- No word begins like an integer. -/
theorem readWord?_writeInt (n : Int) (rest : List Char) :
    readWord? (writeInt n ++ rest) = none := by
  obtain ⟨c, cs, h, hc | ⟨rfl, d, ds, rfl, hd⟩⟩ := exists_cons_writeInt n
  · -- a word begins with a letter, or with a minus sign and a letter
    rw [h]
    simp only [readWord?, words, List.findSome?_eq_none_iff]
    simp [List.isPrefixOf?]
    refine ⟨?_, ?_, ?_, ?_, ?_, ?_⟩ <;> (rintro rfl; cases hc)
  · rw [h]
    simp [readWord?, words, List.isPrefixOf?]
    rintro rfl
    cases hd

/-! ### Texts -/

/-- The numbers that stand for a character in a text: its UTF-16 units. -/
def unitsOf (c : Char) : List Nat :=
  if c.toNat < 0x10000 then [c.toNat]
  else [0xD800 + (c.toNat - 0x10000) / 0x400, 0xDC00 + (c.toNat - 0x10000) % 0x400]

/-- A unit has sixteen bits. -/
theorem lt_of_mem_unitsOf {c : Char} {n : Nat} (h : n ∈ unitsOf c) : n < 0x10000 := by
  have hvalid : c.toNat < 0xD800 ∨ 0xDFFF < c.toNat ∧ c.toNat < 0x110000 := c.valid
  rw [unitsOf] at h
  split at h
  · next hbasic => rwa [List.mem_singleton.1 h]
  · rw [List.mem_cons, List.mem_singleton] at h
    omega

/-- A character is written as a backslash and a letter, as itself, or by its units. -/
theorem escapeChar_cases (c : Char) :
    (∃ d, escapeChar c = ['\\', d] ∧ escaped? d = some c ∧ unitsOf c = [c.toNat] ∧
      0x20 ≤ d.toNat ∧ d.toNat < 0x7F) ∨
    (escapeChar c = [c] ∧ unitsOf c = [c.toNat] ∧ c ≠ '"' ∧ c ≠ '\\' ∧
      0x20 ≤ c.toNat ∧ c.toNat < 0x7F) ∨
    escapeChar c = (unitsOf c).flatMap unitEscape := by
  -- seven characters have an escape of their own, printable ones stand for themselves
  unfold escapeChar
  split
  · next h => subst h; exact .inl ⟨_, rfl, rfl, rfl, by decide⟩
  split
  · next h => subst h; exact .inl ⟨_, rfl, rfl, rfl, by decide⟩
  split
  · next h => subst h; exact .inl ⟨_, rfl, rfl, rfl, by decide⟩
  split
  · next h => subst h; exact .inl ⟨_, rfl, rfl, rfl, by decide⟩
  split
  · next h => subst h; exact .inl ⟨_, rfl, rfl, rfl, by decide⟩
  split
  · next h => subst h; exact .inl ⟨_, rfl, rfl, rfl, by decide⟩
  split
  · next h => subst h; exact .inl ⟨_, rfl, rfl, rfl, by decide⟩
  split
  · next hquote hbackslash _ _ _ _ _ hplain =>
    exact .inr (.inl ⟨rfl, if_pos (by omega), hquote, hbackslash, hplain⟩)
  split
  · next hbasic =>
    rw [unitsOf, if_pos hbasic, List.flatMap_singleton]
    exact .inr (.inr rfl)
  · next hbasic =>
    rw [unitsOf, if_neg hbasic, List.flatMap_cons, List.flatMap_singleton]
    exact .inr (.inr rfl)

/-- No character has the code point of a surrogate. -/
theorem isHighSurrogate_toNat (c : Char) : isHighSurrogate c.toNat = false := by
  have hvalid : c.toNat < 0xD800 ∨ 0xDFFF < c.toNat ∧ c.toNat < 0x110000 := c.valid
  simp only [isHighSurrogate, Bool.and_eq_false_imp, decide_eq_true_eq, decide_eq_false_iff_not]
  omega

/-- A unit that is the code point of a character stands for it. -/
theorem charOfUnit_toNat (c : Char) : charOfUnit c.toNat = c := by
  have hvalid : c.toNat.isValidChar := c.valid
  rw [charOfUnit, if_pos hvalid, Char.ofNat_toNat]

/-- A unit that is the code point of a character is read as this one, whatever comes behind it. -/
theorem charsOfUnits_toNat (c : Char) (units : List Nat) :
    charsOfUnits (c.toNat :: units) = c :: charsOfUnits units := by
  cases units with
  | nil => rw [charsOfUnits, charsOfUnits, charOfUnit_toNat]
  | cons low units =>
    rw [charsOfUnits, isHighSurrogate_toNat, Bool.false_and, if_neg (by decide), charOfUnit_toNat]

/-- The characters of the units are those that the units were made of. -/
theorem charsOfUnits_flatMap (cs : List Char) : charsOfUnits (cs.flatMap unitsOf) = cs := by
  induction cs with
  | nil => rw [List.flatMap_nil, charsOfUnits]
  | cons c cs ih =>
    have hvalid : c.toNat < 0xD800 ∨ 0xDFFF < c.toNat ∧ c.toNat < 0x110000 := c.valid
    rw [List.flatMap_cons, unitsOf]
    split
    · rw [List.singleton_append, charsOfUnits_toNat, ih]
    · have hpair : isHighSurrogate (0xD800 + (c.toNat - 0x10000) / 0x400) &&
          isLowSurrogate (0xDC00 + (c.toNat - 0x10000) % 0x400) := by
        simp only [isHighSurrogate, isLowSurrogate, Bool.and_eq_true, decide_eq_true_eq]
        omega
      have hcode : 0x10000 + (0xD800 + (c.toNat - 0x10000) / 0x400 - 0xD800) * 0x400 +
          (0xDC00 + (c.toNat - 0x10000) % 0x400 - 0xDC00) = c.toNat := by omega
      rw [List.cons_append, List.singleton_append, charsOfUnits, if_pos hpair, hcode,
        Char.ofNat_toNat, ih]

/-- The character for a hexadecimal digit is read as this digit. -/
theorem hexValue?_digitChar {d : Nat} (h : d < 16) : hexValue? d.digitChar = some d := by
  have hall : ∀ d < 16, hexValue? (Nat.digitChar d) = some d := by decide
  exact hall d h

/-- A number below sixteen is written as one digit. -/
theorem hex_one {n : Nat} (h : n < 16) : Text.hex 1 n = [n.digitChar] := by
  rw [Text.hex, Nat.toDigits_of_lt_base h]
  rfl

/-- In more places the last digit is written behind those of the rest. -/
theorem hex_succ {width : Nat} (h : 0 < width) (n : Nat) :
    Text.hex (width + 1) n = Text.hex width (n / 16) ++ [(n % 16).digitChar] := by
  simp only [Text.hex]
  rcases Nat.lt_or_ge n 16 with hn | hn
  · -- all digits but the last are zeros that are put in front
    have hzero : n / 16 = 0 := by omega
    rw [Nat.toDigits_of_lt_base hn, hzero, Nat.toDigits_of_lt_base (by decide), Nat.mod_eq_of_lt hn,
      List.length_singleton, List.length_singleton, Nat.add_sub_cancel]
    obtain ⟨width, rfl⟩ := Nat.exists_eq_add_of_le' h
    rw [List.replicate_succ']
    rfl
  · rw [Nat.toDigits_of_base_le (by decide) hn, List.length_append, List.length_singleton,
      Nat.add_sub_add_right, List.append_assoc]

/-- Four hexadecimal digits write the numbers up to `0xFFFF`. -/
theorem hex4?_hex {n : Nat} (h : n < 0x10000) :
    ∃ a b c d, Text.hex 4 n = [a, b, c, d] ∧ hex4? a b c d = some n := by
  refine ⟨(n / 16 / 16 / 16).digitChar, (n / 16 / 16 % 16).digitChar, (n / 16 % 16).digitChar,
    (n % 16).digitChar, ?_, ?_⟩
  · rw [hex_succ (by decide), hex_succ (by decide), hex_succ (by decide), hex_one (by omega)]
    rfl
  · rw [hex4?, hexValue?_digitChar (by omega), hexValue?_digitChar (by omega),
      hexValue?_digitChar (by omega), hexValue?_digitChar (by omega)]
    simp only [Option.bind_eq_bind, Option.bind_some, Option.pure_def, Option.some.injEq]
    omega

/-- The escape of a unit is read as this unit. -/
theorem readUnits_unitEscape {n : Nat} (h : n < 0x10000) (opening : Nat) (units : List Nat)
    {rest : List Char} (more : rest ≠ []) :
    readUnits opening units (unitEscape n ++ rest) = readUnits opening (n :: units) rest := by
  obtain ⟨a, b, c, d, hhex, hvalue⟩ := hex4?_hex h
  rw [unitEscape, hhex]
  simp only [List.cons_append, List.nil_append, readUnits, hvalue]
  rw [if_neg (by simpa using more)]

/-- An escaped character is read as the one that it stands for. -/
theorem readUnits_escaped {d e : Char} (h : escaped? d = some e) (opening : Nat) (units : List Nat)
    (rest : List Char) :
    readUnits opening units ('\\' :: d :: rest) = readUnits opening (e.toNat :: units) rest := by
  have hu : d ≠ 'u' := by
    rintro rfl
    cases h
  rw [readUnits, if_neg hu, h]
  · exact fun _ _ _ _ _ hd _ => hu hd

/-- A character that need not be escaped is read as itself. -/
theorem readUnits_plain {c : Char} (quote : c ≠ '"') (backslash : c ≠ '\\')
    (control : 0x20 ≤ c.toNat) (opening : Nat) (units : List Nat) (rest : List Char) :
    readUnits opening units (c :: rest) = readUnits opening (c.toNat :: units) rest := by
  rw [readUnits, if_neg (Nat.not_lt.2 control)]
  · exact quote
  · exact fun hc => absurd hc backslash
  · exact fun _ _ _ _ _ hc => absurd hc backslash
  · exact fun _ _ hc => absurd hc backslash

/-- The escapes of units are read as these units. -/
theorem readUnits_units {ns : List Nat} (h : ∀ n ∈ ns, n < 0x10000) (opening : Nat)
    (units : List Nat) {rest : List Char} (more : rest ≠ []) :
    readUnits opening units (ns.flatMap unitEscape ++ rest) =
      readUnits opening (ns.reverse ++ units) rest := by
  induction ns generalizing units with
  | nil => rfl
  | cons n ns ih =>
    obtain ⟨hn, hns⟩ := List.forall_mem_cons.1 h
    have hmore : ns.flatMap unitEscape ++ rest ≠ [] := List.append_ne_nil_of_right_ne_nil _ more
    rw [List.flatMap_cons, List.append_assoc, readUnits_unitEscape hn opening units hmore,
      ih hns, List.reverse_cons, List.append_assoc, List.singleton_append]

/-- A character is read as its units. -/
theorem readUnits_escapeChar (c : Char) (opening : Nat) (units : List Nat) {rest : List Char}
    (more : rest ≠ []) :
    readUnits opening units (escapeChar c ++ rest) =
      readUnits opening ((unitsOf c).reverse ++ units) rest := by
  obtain ⟨d, hwritten, hescaped, hunits, -⟩ | ⟨hwritten, hunits, hquote, hbackslash, hleast, -⟩ |
    hwritten := escapeChar_cases c
  · rw [hwritten, hunits]
    exact readUnits_escaped hescaped opening units rest
  · rw [hwritten, hunits]
    exact readUnits_plain hquote hbackslash hleast opening units rest
  · rw [hwritten]
    exact readUnits_units (fun n hn => lt_of_mem_unitsOf hn) opening units more

/-- Reading the forms of characters, up to the quote that ends them, gives the units of these
characters. -/
theorem readUnits_flatMap (cs : List Char) (opening : Nat) (units : List Nat) (rest : List Char) :
    readUnits opening units (cs.flatMap escapeChar ++ '"' :: rest) =
      .ok (units.reverse ++ cs.flatMap unitsOf, rest) := by
  induction cs generalizing units with
  | nil => rw [List.flatMap_nil, List.flatMap_nil, List.nil_append, List.append_nil, readUnits]
  | cons c cs ih =>
    rw [List.flatMap_cons, List.append_assoc, readUnits_escapeChar c opening units (by simp), ih,
      List.reverse_append, List.reverse_reverse, List.append_assoc, List.flatMap_cons]

/-- A text is read back behind its opening quote. -/
theorem readText_writeText {s : String} {cs : List Char} (h : writeText s = '"' :: cs)
    (rest : List Char) : readText (cs ++ rest) = .ok (s, rest) := by
  obtain rfl : s.toList.flatMap escapeChar ++ ['"'] = cs := by
    rw [writeText] at h
    exact (List.cons.inj h).2
  rw [readText, List.append_assoc, List.singleton_append, readUnits_flatMap]
  dsimp only [Bind.bind, Except.bind]
  rw [List.reverse_nil, List.nil_append, charsOfUnits_flatMap, String.ofList_toList]
  rfl

end AsmScope.Json
