import AsmScope.Text.Utf8
import Mathlib.Data.List.Basic
import Mathlib.Data.Option.Basic
/-! # Strict decoding

Strict decoding is the inverse of encoding: it succeeds on the encoded texts and on nothing else
(`Utf8.decode?_eq_some_iff`). The first byte of a character tells how many follow it and where the
second one may lie (`begin_*`); the bytes that follow give six bits each (`scan_inside_cons`). -/

namespace AsmScope.Utf8

/-! ### The first byte -/

section Begin

variable {byte : Nat}

/-- A byte below 128 is a character. -/
theorem begin_one (ascii : byte < 0x80) : begin byte = ([some (Char.ofNat byte)], .between) :=
  if_pos ascii

/-- A byte that begins a form of two bytes opens it. -/
theorem begin_two (least : 0xC2 ≤ byte) (greatest : byte < 0xE0) :
    begin byte = ([], .inside (byte - 0xC0) 1 0x80 0xBF) := by
  rw [begin, if_neg (by omega), if_neg (by omega), if_pos greatest]

/-- The second byte excludes the long forms after the first of these, and the halves of surrogate
pairs after another one. -/
theorem begin_three (least : 0xE0 ≤ byte) (greatest : byte < 0xF0) :
    begin byte = ([], .inside (byte - 0xE0) 2 (if byte = 0xE0 then 0xA0 else 0x80)
      (if byte = 0xED then 0x9F else 0xBF)) := by
  rw [begin, if_neg (by omega), if_neg (by omega), if_neg (by omega), if_pos greatest]
  split
  · next first => subst first; rfl
  · split
    · next surrogates => subst surrogates; rfl
    · rfl

/-- The second byte excludes the long forms after the first of these, and what lies beyond the last
character after the last one. -/
theorem begin_four (least : 0xF0 ≤ byte) (greatest : byte < 0xF5) :
    begin byte = ([], .inside (byte - 0xF0) 3 (if byte = 0xF0 then 0x90 else 0x80)
      (if byte = 0xF4 then 0x8F else 0xBF)) := by
  rw [begin, if_neg (by omega), if_neg (by omega), if_neg (by omega), if_neg (by omega),
    if_neg (by omega), if_neg (by omega)]
  split
  · next first => subst first; rfl
  · split
    · next between => rw [if_neg (by omega)]
    · obtain rfl : byte = 0xF4 := by omega
      rfl

/-- A byte that begins no character is reported as invalid. -/
theorem begin_none (continues : 0x80 ≤ byte) (outside : byte < 0xC2 ∨ 0xF5 ≤ byte) :
    begin byte = ([none], .between) := by
  rw [begin, if_neg (by omega)]
  split
  · rfl
  · rw [if_neg (by omega), if_neg (by omega), if_neg (by omega), if_neg (by omega),
      if_neg (by omega), if_neg (by omega), if_neg (by omega)]

end Begin

/-! ### The bytes that follow -/

/-- Between characters the next byte is a character or opens one. -/
theorem scan_between_cons (byte : UInt8) (rest : Bytes) :
    scan .between (byte :: rest) = (begin byte.toNat).1 ++ scan (begin byte.toNat).2 rest := rfl

section Inside

variable {value remaining least greatest : Nat}

/-- Inside a form a byte within the limits ends it, or leads on in it. -/
theorem scan_inside_cons {byte : UInt8} (above : least ≤ byte.toNat) (below : byte.toNat ≤ greatest)
    (rest : Bytes) :
    scan (.inside value remaining least greatest) (byte :: rest) =
      if remaining ≤ 1 then
        some (Char.ofNat (value * 64 + (byte.toNat - 0x80))) :: scan .between rest
      else scan (.inside (value * 64 + (byte.toNat - 0x80)) (remaining - 1) 0x80 0xBF) rest := by
  rw [scan]
  simp only [step, if_pos (And.intro above below)]
  split <;> rfl

/-- Where nothing is reported as invalid, an open character goes on with a byte that fits. -/
theorem exists_cons_of_scan_inside {bytes : Bytes}
    (valid : none ∉ scan (.inside value remaining least greatest) bytes) :
    ∃ byte rest, bytes = byte :: rest ∧ least ≤ byte.toNat ∧ byte.toNat ≤ greatest := by
  cases bytes with
  | nil => simp [scan] at valid
  | cons byte rest =>
    refine ⟨byte, rest, rfl, ?_⟩
    by_contra hfits
    refine valid ?_
    rw [scan]
    simp [step, if_neg hfits]

end Inside

/-! ### One character -/

section Character

variable {first second third fourth : UInt8}

/-- Two bytes within their limits are read as one character. -/
theorem scan_two (least : 0xC2 ≤ first.toNat) (greatest : first.toNat < 0xE0)
    (above : 0x80 ≤ second.toNat) (below : second.toNat ≤ 0xBF) (rest : Bytes) :
    scan .between (first :: second :: rest) =
      some (Char.ofNat ((first.toNat - 0xC0) * 64 + (second.toNat - 0x80))) ::
        scan .between rest := by
  rw [scan_between_cons, begin_two least greatest, List.nil_append, scan_inside_cons above below]
  rfl

/-- Three bytes within their limits, which keep out shorter forms and surrogates, are read as one
character. -/
theorem scan_three (least : 0xE0 ≤ first.toNat) (greatest : first.toNat < 0xF0)
    (above : (if first.toNat = 0xE0 then 0xA0 else 0x80) ≤ second.toNat)
    (below : second.toNat ≤ if first.toNat = 0xED then 0x9F else 0xBF)
    (above' : 0x80 ≤ third.toNat) (below' : third.toNat ≤ 0xBF) (rest : Bytes) :
    scan .between (first :: second :: third :: rest) =
      some (Char.ofNat (((first.toNat - 0xE0) * 64 + (second.toNat - 0x80)) * 64 +
        (third.toNat - 0x80))) :: scan .between rest := by
  rw [scan_between_cons, begin_three least greatest, List.nil_append, scan_inside_cons above below,
    if_neg (by decide), scan_inside_cons above' below']
  rfl

/-- Four bytes within their limits, which keep out shorter forms and what is beyond the last code
point, are read as one character. -/
theorem scan_four (least : 0xF0 ≤ first.toNat) (greatest : first.toNat < 0xF5)
    (above : (if first.toNat = 0xF0 then 0x90 else 0x80) ≤ second.toNat)
    (below : second.toNat ≤ if first.toNat = 0xF4 then 0x8F else 0xBF)
    (above' : 0x80 ≤ third.toNat) (below' : third.toNat ≤ 0xBF)
    (above'' : 0x80 ≤ fourth.toNat) (below'' : fourth.toNat ≤ 0xBF) (rest : Bytes) :
    scan .between (first :: second :: third :: fourth :: rest) =
      some (Char.ofNat ((((first.toNat - 0xF0) * 64 + (second.toNat - 0x80)) * 64 +
        (third.toNat - 0x80)) * 64 + (fourth.toNat - 0x80))) :: scan .between rest := by
  rw [scan_between_cons, begin_four least greatest, List.nil_append, scan_inside_cons above below,
    if_neg (by decide), scan_inside_cons above' below', if_neg (by decide),
    scan_inside_cons above'' below'']
  rfl

end Character

/-- The code of a character is no half of a surrogate pair, and is not too large. -/
theorem toNat_bounds (c : Char) :
    c.toNat < 0xD800 ∨ 0xDFFF < c.toNat ∧ c.toNat < 0x110000 := c.valid

/-- A number below 256 is that of a byte. -/
theorem toNat_byte {n : Nat} (h : n < 256) : (UInt8.ofNat n).toNat = n := by
  rw [UInt8.toNat_ofNat', Nat.mod_eq_of_lt h]

/-- The bytes of a character by the size of its code. -/
theorem utf8EncodeChar_eq (c : Char) : String.utf8EncodeChar c =
    if c.toNat ≤ 0x7F then [UInt8.ofNat c.toNat]
    else if c.toNat ≤ 0x7FF then
      [UInt8.ofNat (c.toNat / 64 % 0x20 + 0xC0), UInt8.ofNat (c.toNat % 0x40 + 0x80)]
    else if c.toNat ≤ 0xFFFF then
      [UInt8.ofNat (c.toNat / 4096 % 0x10 + 0xE0), UInt8.ofNat (c.toNat / 64 % 0x40 + 0x80),
        UInt8.ofNat (c.toNat % 0x40 + 0x80)]
    else
      [UInt8.ofNat (c.toNat / 262144 % 0x08 + 0xF0), UInt8.ofNat (c.toNat / 4096 % 0x40 + 0x80),
        UInt8.ofNat (c.toNat / 64 % 0x40 + 0x80), UInt8.ofNat (c.toNat % 0x40 + 0x80)] := rfl

/-- The scan reports an encoded character, and goes on behind it. -/
theorem scan_utf8EncodeChar (c : Char) (rest : Bytes) :
    scan .between (String.utf8EncodeChar c ++ rest) = some c :: scan .between rest := by
  have hbounds := toNat_bounds c
  have hc : Char.ofNat c.toNat = c := Char.ofNat_toNat c
  rw [utf8EncodeChar_eq]
  generalize c.toNat = n at hbounds hc ⊢
  subst hc
  -- the bytes hold the digits of the code to the base 64, which give it back
  split
  · rw [List.singleton_append, scan_between_cons, toNat_byte (by omega), begin_one (by omega)]
    rfl
  split
  · have hfirst := toNat_byte (n := n / 64 % 0x20 + 0xC0) (by omega)
    have hsecond := toNat_byte (n := n % 0x40 + 0x80) (by omega)
    simp only [List.cons_append, List.nil_append]
    rw [scan_two (by omega) (by omega) (by omega) (by omega), hfirst, hsecond]
    exact congrArg (fun code => some (Char.ofNat code) :: scan .between rest) (by omega)
  split
  · have hfirst := toNat_byte (n := n / 4096 % 0x10 + 0xE0) (by omega)
    have hsecond := toNat_byte (n := n / 64 % 0x40 + 0x80) (by omega)
    have hthird := toNat_byte (n := n % 0x40 + 0x80) (by omega)
    simp only [List.cons_append, List.nil_append]
    rw [scan_three (by omega) (by omega) (by split <;> omega) (by split <;> omega) (by omega)
      (by omega), hfirst, hsecond, hthird]
    exact congrArg (fun code => some (Char.ofNat code) :: scan .between rest) (by omega)
  · have hfirst := toNat_byte (n := n / 262144 % 0x08 + 0xF0) (by omega)
    have hsecond := toNat_byte (n := n / 4096 % 0x40 + 0x80) (by omega)
    have hthird := toNat_byte (n := n / 64 % 0x40 + 0x80) (by omega)
    have hfourth := toNat_byte (n := n % 0x40 + 0x80) (by omega)
    simp only [List.cons_append, List.nil_append]
    rw [scan_four (by omega) (by omega) (by split <;> omega) (by split <;> omega) (by omega)
      (by omega) (by omega) (by omega), hfirst, hsecond, hthird, hfourth]
    exact congrArg (fun code => some (Char.ofNat code) :: scan .between rest) (by omega)

/-! ### The character that bytes encode -/

section Valid

variable {first second third fourth : UInt8}

/-- A byte is the one with its number. -/
theorem byte_eq (byte : UInt8) {n : Nat} (h : byte.toNat = n) : UInt8.ofNat n = byte := by
  rw [← h, UInt8.ofNat_toNat]

/-- Every valid code point is that of a character. -/
theorem exists_toNat_eq {n : Nat} (h : n.isValidChar) : ∃ c : Char, c.toNat = n := by
  refine ⟨Char.ofNat n, ?_⟩
  rw [Char.ofNat, dif_pos h]
  rfl

/-- A byte below 128 is the form of a character. -/
theorem utf8EncodeChar_one (ascii : first.toNat < 0x80) :
    ∃ c, String.utf8EncodeChar c = [first] := by
  obtain ⟨c, hc⟩ := exists_toNat_eq (n := first.toNat) (.inl (by omega))
  exact ⟨c, by rw [utf8EncodeChar_eq, if_pos (by omega), byte_eq first (by omega)]⟩

/-- Two bytes within their limits are the form of a character. -/
theorem utf8EncodeChar_two (least : 0xC2 ≤ first.toNat) (greatest : first.toNat < 0xE0)
    (above : 0x80 ≤ second.toNat) (below : second.toNat ≤ 0xBF) :
    ∃ c, String.utf8EncodeChar c = [first, second] := by
  have hcode : ((first.toNat - 0xC0) * 64 + (second.toNat - 0x80)).isValidChar :=
    .inl (by omega)
  obtain ⟨c, hc⟩ := exists_toNat_eq hcode
  refine ⟨c, ?_⟩
  rw [utf8EncodeChar_eq, if_neg (by omega), if_pos (by omega),
    byte_eq first (by omega), byte_eq second (by omega)]

/-- Three bytes within their limits are the form of a character. -/
theorem utf8EncodeChar_three (least : 0xE0 ≤ first.toNat) (greatest : first.toNat < 0xF0)
    (above : (if first.toNat = 0xE0 then 0xA0 else 0x80) ≤ second.toNat)
    (below : second.toNat ≤ if first.toNat = 0xED then 0x9F else 0xBF)
    (above' : 0x80 ≤ third.toNat) (below' : third.toNat ≤ 0xBF) :
    ∃ c, String.utf8EncodeChar c = [first, second, third] := by
  -- neither a long form nor a half of a surrogate pair
  have hlong : 0x80 ≤ second.toNat ∧ (first.toNat = 0xE0 → 0xA0 ≤ second.toNat) := by
    split at above <;> omega
  have hhalf : second.toNat ≤ 0xBF ∧ (first.toNat = 0xED → second.toNat ≤ 0x9F) := by
    split at below <;> omega
  have hcode : (((first.toNat - 0xE0) * 64 + (second.toNat - 0x80)) * 64 +
      (third.toNat - 0x80)).isValidChar := by
    unfold Nat.isValidChar
    omega
  obtain ⟨c, hc⟩ := exists_toNat_eq hcode
  refine ⟨c, ?_⟩
  rw [utf8EncodeChar_eq, if_neg (by omega), if_neg (by omega),
    if_pos (by omega), byte_eq first (by omega), byte_eq second (by omega),
    byte_eq third (by omega)]

/-- Four bytes within their limits are the form of a character. -/
theorem utf8EncodeChar_four (least : 0xF0 ≤ first.toNat) (greatest : first.toNat < 0xF5)
    (above : (if first.toNat = 0xF0 then 0x90 else 0x80) ≤ second.toNat)
    (below : second.toNat ≤ if first.toNat = 0xF4 then 0x8F else 0xBF)
    (above' : 0x80 ≤ third.toNat) (below' : third.toNat ≤ 0xBF)
    (above'' : 0x80 ≤ fourth.toNat) (below'' : fourth.toNat ≤ 0xBF) :
    ∃ c, String.utf8EncodeChar c = [first, second, third, fourth] := by
  -- neither a long form nor beyond the last character
  have hlong : 0x80 ≤ second.toNat ∧ (first.toNat = 0xF0 → 0x90 ≤ second.toNat) := by
    split at above <;> omega
  have hlast : second.toNat ≤ 0xBF ∧ (first.toNat = 0xF4 → second.toNat ≤ 0x8F) := by
    split at below <;> omega
  have hcode : ((((first.toNat - 0xF0) * 64 + (second.toNat - 0x80)) * 64 +
      (third.toNat - 0x80)) * 64 + (fourth.toNat - 0x80)).isValidChar := by
    unfold Nat.isValidChar
    omega
  obtain ⟨c, hc⟩ := exists_toNat_eq hcode
  refine ⟨c, ?_⟩
  rw [utf8EncodeChar_eq, if_neg (by omega), if_neg (by omega),
    if_neg (by omega), byte_eq first (by omega), byte_eq second (by omega),
    byte_eq third (by omega), byte_eq fourth (by omega)]

/-- Valid bytes begin with an encoded character. -/
theorem exists_utf8EncodeChar_append {bytes : Bytes}
    (valid : none ∉ scan .between (first :: bytes)) :
    ∃ c rest, first :: bytes = String.utf8EncodeChar c ++ rest := by
  rw [scan_between_cons] at valid
  -- the first byte tells how many bytes there are
  rcases Nat.lt_or_ge first.toNat 0x80 with hone | hone
  · obtain ⟨c, hc⟩ := utf8EncodeChar_one hone
    exact ⟨c, bytes, by rw [hc]; rfl⟩
  rcases Nat.lt_or_ge first.toNat 0xC2 with hnone | hleast
  · simp [begin_none hone (.inl hnone)] at valid
  rcases Nat.lt_or_ge first.toNat 0xE0 with htwo | hthree
  · rw [begin_two hleast htwo, List.nil_append] at valid
    obtain ⟨second, rest, rfl, habove, hbelow⟩ := exists_cons_of_scan_inside valid
    obtain ⟨c, hc⟩ := utf8EncodeChar_two hleast htwo habove hbelow
    exact ⟨c, rest, by rw [hc]; rfl⟩
  rcases Nat.lt_or_ge first.toNat 0xF0 with hthree' | hfour
  · rw [begin_three hthree hthree', List.nil_append] at valid
    obtain ⟨second, rest, rfl, habove, hbelow⟩ := exists_cons_of_scan_inside valid
    rw [scan_inside_cons habove hbelow, if_neg (by decide)] at valid
    obtain ⟨third, rest, rfl, habove', hbelow'⟩ := exists_cons_of_scan_inside valid
    obtain ⟨c, hc⟩ := utf8EncodeChar_three hthree hthree' habove hbelow habove' hbelow'
    exact ⟨c, rest, by rw [hc]; rfl⟩
  rcases Nat.lt_or_ge first.toNat 0xF5 with hfour' | hnone
  · rw [begin_four hfour hfour', List.nil_append] at valid
    obtain ⟨second, rest, rfl, habove, hbelow⟩ := exists_cons_of_scan_inside valid
    rw [scan_inside_cons habove hbelow, if_neg (by decide)] at valid
    obtain ⟨third, rest, rfl, habove', hbelow'⟩ := exists_cons_of_scan_inside valid
    rw [scan_inside_cons habove' hbelow', if_neg (by decide)] at valid
    obtain ⟨fourth, rest, rfl, habove'', hbelow''⟩ := exists_cons_of_scan_inside valid
    obtain ⟨c, hc⟩ := utf8EncodeChar_four hfour hfour' habove hbelow habove' hbelow' habove''
      hbelow''
    exact ⟨c, rest, by rw [hc]; rfl⟩
  · simp [begin_none hone (.inr hnone)] at valid

end Valid

/-! ### Whole texts -/

/-- Reading the forms of characters gives these characters, and nothing is refused. -/
theorem scan_flatMap (cs : List Char) :
    scan .between (cs.flatMap String.utf8EncodeChar) = cs.map some := by
  induction cs with
  | nil => rfl
  | cons c cs ih => rw [List.flatMap_cons, scan_utf8EncodeChar, ih, List.map_cons]

/-- Valid bytes are encoded characters. -/
theorem exists_flatMap_of_scan (bytes : Bytes) (valid : none ∉ scan .between bytes) :
    ∃ cs : List Char, bytes = cs.flatMap String.utf8EncodeChar := by
  -- a character takes at least one byte
  induction hlength : bytes.length using Nat.strongRecOn generalizing bytes with
  | ind length ih =>
    cases bytes with
    | nil => exact ⟨[], rfl⟩
    | cons first bytes =>
      obtain ⟨c, rest, hrest⟩ := exists_utf8EncodeChar_append valid
      have hshorter : rest.length < length := by
        have hpos := List.length_pos_of_ne_nil (String.utf8EncodeChar_ne_nil (c := c))
        rw [← hlength, hrest, List.length_append]
        omega
      rw [hrest, scan_utf8EncodeChar] at valid
      obtain ⟨cs, hcs⟩ := ih _ hshorter rest (List.not_mem_of_not_mem_cons valid) rfl
      exact ⟨c :: cs, by rw [hrest, hcs, List.flatMap_cons]⟩

/-- A report without refusals is that of its characters. -/
theorem mapM_id_eq_some_iff (report : Report) (cs : List Char) :
    report.mapM id = some cs ↔ cs.map some = report := by
  induction report generalizing cs with
  | nil => cases cs <;> simp
  | cons c report ih =>
    rw [List.map_eq_cons_iff]
    cases c with
    | none => simp
    | some c =>
      simp only [List.mapM_cons, id_eq, Option.bind_eq_bind, Option.bind_some, Option.pure_def,
        Option.bind_eq_some_iff, ih, Option.some.injEq]
      constructor
      · rintro ⟨ds, hds, rfl⟩
        exact ⟨c, ds, rfl, rfl, hds⟩
      · rintro ⟨d, ds, rfl, rfl, hds⟩
        exact ⟨ds, hds, rfl⟩

/-- **Strict decoding** gives the text whose encoding the bytes are, and nothing if there is
none. -/
theorem decode?_eq_some_iff (bytes : Bytes) (s : String) :
    decode? bytes = some s ↔ encode s = bytes := by
  simp only [decode?, Option.map_eq_some_iff, mapM_id_eq_some_iff]
  constructor
  · rintro ⟨cs, hcs, rfl⟩
    obtain ⟨ds, rfl⟩ := exists_flatMap_of_scan bytes (by simp [← hcs])
    rw [scan_flatMap] at hcs
    obtain rfl := List.map_injective_iff.2 (Option.some_injective _) hcs
    rw [encode, String.toList_ofList]
  · rintro rfl
    exact ⟨s.toList, (scan_flatMap s.toList).symm, String.ofList_toList⟩

end AsmScope.Utf8
