import AsmScope.Proofs.Scalars
/-! # What is written is read back

The reader undoes the writer, for both layouts, on every value without floating-point numbers whose
integers are short enough to be read and whose fields have distinct names (`Lasting`). It can only
stop at a bracket that is nested too deep (`Rereads`), which can be told from the text. Whole texts
are in `parse_write`. The other way round, what the reader gives is always such a value,
floating-point numbers apart (`regular_of_parse`). -/

namespace AsmScope.Json

/-! ### Values -/

/-- A value that has no more than a text can say: its integers are short enough to be read, the
fields of an object have distinct names, and floating-point numbers are in it only where they may
be. -/
inductive Regular (floats : Prop) : Json → Prop
  | null : Regular floats .null
  | bool (value : Bool) : Regular floats (.bool value)
  | int {value : Int} (short : value.natAbs < 10 ^ maxIntegerDigits) : Regular floats (.int value)
  | float (allowed : floats) (value : Binary64) : Regular floats (.float value)
  | text (value : String) : Regular floats (.text value)
  | array {items : List Json} (regular : ∀ item ∈ items, Regular floats item) :
    Regular floats (.array items)
  | object {fields : Table String Json} (distinct : fields.keys.Nodup)
    (regular : ∀ field ∈ fields, Regular floats field.2) : Regular floats (.object fields)

/-- A value that is the same after it was written and read. -/
abbrev Lasting : Json → Prop := Regular False

/-- A value without floating-point numbers. -/
inductive Floatless : Json → Prop
  | null : Floatless .null
  | bool (value : Bool) : Floatless (.bool value)
  | int (value : Int) : Floatless (.int value)
  | text (value : String) : Floatless (.text value)
  | array {items : List Json} (floatless : ∀ item ∈ items, Floatless item) :
    Floatless (.array items)
  | object {fields : Table String Json} (floatless : ∀ field ∈ fields, Floatless field.2) :
    Floatless (.object fields)

/-- Where floating-point numbers may be in fewer places a value is no less regular where they may be
in more. -/
theorem Regular.mono {floats floats' : Prop} (imp : floats → floats') {value : Json}
    (regular : Regular floats value) : Regular floats' value := by
  induction regular with
  | null => exact .null
  | bool value => exact .bool value
  | int short => exact .int short
  | float allowed value => exact .float (imp allowed) value
  | text value => exact .text value
  | array _ ih => exact .array ih
  | object distinct _ ih => exact .object distinct ih

/-- A regular value without floating-point numbers lasts. -/
theorem Regular.lasting {floats : Prop} {value : Json} (regular : Regular floats value)
    (floatless : Floatless value) : Lasting value := by
  induction regular with
  | null => exact .null
  | bool value => exact .bool value
  | int short => exact .int short
  | float allowed value => cases floatless
  | text value => exact .text value
  | array _ ih =>
    cases floatless with
    | array floatless => exact .array fun item hitem => ih item hitem (floatless item hitem)
  | object distinct _ ih =>
    cases floatless with
    | object floatless =>
      exact .object distinct fun field hfield => ih field hfield (floatless field hfield)

/-! ### What is written -/

/-- The reading gives this and leaves that, unless brackets are nested too deep for it. -/
def Rereads {α : Type} (reading : Except ReadError (α × List Char)) (value : α)
    (rest : List Char) : Prop :=
  reading = .ok (value, rest) ∨ reading = .error .nestedTooDeep

/-- Two readings in a row give back what the second one does, if the first one gives back what it
needs. -/
theorem Rereads.bind {α β : Type} {reading : Except ReadError (α × List Char)} {value : α}
    {rest rest' : List Char} {next : α × List Char → Except ReadError (β × List Char)} {result : β}
    (h : Rereads reading value rest) (h' : Rereads (next (value, rest)) result rest') :
    Rereads (reading >>= next) result rest' := by
  rcases h with rfl | rfl
  · exact h'
  · exact .inr rfl

/-- However it is laid out, and whatever comes behind, the value is read back. -/
def Returns (style : Style) (value : Json) : Prop :=
  ∀ level depth fuel rest, Stops rest → 2 * (write style level value).length ≤ fuel →
    Rereads (readValue fuel depth (write style level value ++ rest)) value rest

/-- A line break is skipped. -/
theorem skipGap_lineBreak (style : Style) (level : Nat) (cs : List Char) :
    skipGap (style.lineBreak level ++ cs) = skipGap cs := by
  cases style with
  | compact => rfl
  | indented =>
    have hblank : ∀ n, skipGap (List.replicate n ' ' ++ cs) = skipGap cs := by
      intro n
      induction n with
      | zero => rfl
      | succ n ih => exact ih
    exact hblank (2 * level)

/-- What comes behind a comma is skipped up to the next part. -/
theorem skipGap_comma (style : Style) (level : Nat) (cs : List Char) :
    ∃ rest, style.comma ++ style.lineBreak level ++ cs = ',' :: rest ∧
      skipGap rest = skipGap cs := by
  cases style with
  | compact => exact ⟨' ' :: cs, rfl, rfl⟩
  | indented => exact ⟨_, rfl, skipGap_lineBreak .indented level cs⟩

/-- A number stops where no character comes that could belong to it. -/
theorem stops_cons {c : Char} (h : isDigit c = false ∧ c ≠ '.' ∧ c ≠ 'e' ∧ c ≠ 'E')
    (rest : List Char) : Stops (c :: rest) := by
  rintro d hd
  obtain rfl : c = d := Option.some.inj hd
  exact h

/-- No number goes on with what stands between a value and a closing bracket. -/
theorem stops_lineBreak (style : Style) (level : Nat) {c : Char} (closes : c = ']' ∨ c = '}')
    (rest : List Char) : Stops (style.lineBreak level ++ c :: rest) := by
  cases style with
  | compact => rcases closes with rfl | rfl <;> exact stops_cons (by decide) rest
  | indented => exact stops_cons (by decide) _

/-- A written value begins with a character that is neither a gap nor a closing bracket. -/
theorem exists_cons_write {value : Json} (lasting : Lasting value) (style : Style) (level : Nat) :
    ∃ c cs, write style level value = c :: cs ∧ isGap c = false ∧ c ≠ ']' := by
  cases lasting with
  | null => exact ⟨_, _, rfl, by decide, by decide⟩
  | bool value => cases value <;> exact ⟨_, _, rfl, by decide, by decide⟩
  | @int value short =>
    obtain ⟨c, cs, h, hc | ⟨rfl, -⟩⟩ := exists_cons_writeInt value
    · refine ⟨c, cs, h, ?_, ne_of_isDigit hc rfl⟩
      simp [isGap, ne_of_isDigit hc (d := ' ') rfl, ne_of_isDigit hc (d := '\t') rfl,
        ne_of_isDigit hc (d := '\n') rfl, ne_of_isDigit hc (d := '\r') rfl]
    · exact ⟨_, _, h, by decide, by decide⟩
  | float allowed => exact allowed.elim
  | text value => exact ⟨_, _, rfl, by decide, by decide⟩
  | @array items lasting => cases items <;> exact ⟨_, _, rfl, by decide, by decide⟩
  | @object fields distinct lasting => cases fields <;> exact ⟨_, _, rfl, by decide, by decide⟩

/-- The text of a value begins with no gap. -/
theorem skipGap_write {value : Json} (lasting : Lasting value) (style : Style) (level : Nat)
    (rest : List Char) :
    skipGap (write style level value ++ rest) = write style level value ++ rest := by
  obtain ⟨c, cs, h, hgap, -⟩ := exists_cons_write lasting style level
  rw [h, List.cons_append, skipGap, List.dropWhile_cons_of_neg (by simp [hgap])]

section Items

variable {style : Style} {level outer : Nat} {first : Json} {items : List Json}

/-- The items of an array are read back one after the other, if each of them is. -/
theorem rereads_items (lasting : ∀ item ∈ first :: items, Lasting item)
    (returns : ∀ item ∈ first :: items, Returns style item) (before : List Json) {fuel : Nat}
    (enough : 2 * ((write style level first).length + (writeItems style level items).length) + 1 ≤
      fuel) (depth : Nat) (rest : List Char) :
    Rereads (readItems fuel depth before (write style level first ++
      (writeItems style level items ++ (style.lineBreak outer ++ ']' :: rest))))
      (.array (before.reverse ++ first :: items)) rest := by
  -- the items that were read already move from those that are to come to those before
  induction items generalizing first before fuel with
  | nil =>
    obtain ⟨fuel, rfl⟩ := Nat.exists_eq_add_of_le' (show 1 ≤ fuel by omega)
    have hstops := stops_lineBreak style outer (.inl rfl) rest
    have hgap : skipGap (style.lineBreak outer ++ ']' :: rest) = ']' :: rest :=
      skipGap_lineBreak style outer _
    rw [readItems]
    refine (returns first List.mem_cons_self level depth fuel _ hstops (by omega)).bind (.inl ?_)
    simp only [hgap, List.reverse_cons]
    rfl
  | cons item items ih =>
    obtain ⟨fuel, rfl⟩ := Nat.exists_eq_add_of_le' (show 1 ≤ fuel by omega)
    obtain ⟨hfirst, hitems⟩ := List.forall_mem_cons.1 returns
    have hlasting := (List.forall_mem_cons.1 lasting).2
    obtain ⟨after, hafter, hgap⟩ := skipGap_comma style level (write style level item ++
      (writeItems style level items ++ (style.lineBreak outer ++ ']' :: rest)))
    rw [skipGap_write (hlasting item List.mem_cons_self)] at hgap
    have hwritten : writeItems style level (item :: items) ++
        (style.lineBreak outer ++ ']' :: rest) = ',' :: after := by
      rw [← hafter]
      simp only [writeItems, List.append_assoc]
    have hlength : (writeItems style level (item :: items)).length =
        style.comma.length + (style.lineBreak level).length + (write style level item).length +
          (writeItems style level items).length := by
      simp only [writeItems, List.length_append]
    have hcomma : 1 ≤ style.comma.length := by cases style <;> decide
    rw [readItems, hwritten]
    refine (hfirst level depth fuel _ (stops_cons (by decide) after) (by omega)).bind ?_
    have hfuel : 2 * ((write style level item).length +
        (writeItems style level items).length) + 1 ≤ fuel := by omega
    have hnext := ih hlasting hitems (first :: before) hfuel
    rw [← hgap, List.reverse_cons, List.append_assoc, List.singleton_append] at hnext
    exact hnext

end Items

section Fields

variable {style : Style} {level outer : Nat} {name : String} {first : Json}
  {fields : Table String Json}

/-- Behind the name of a field, its value is read. -/
theorem readFields_writeText (fuel depth : Nat) (before : Table String Json) (name : String)
    (cs : List Char) :
    readFields (fuel + 1) depth before (writeText name ++ ([':', ' '] ++ cs)) = (do
      let (value, rest) ← readValue fuel depth (skipGap cs)
      match skipGap rest with
      | '}' :: rest => return (.object (before.put name value), rest)
      | ',' :: rest => readFields fuel depth (before.put name value) (skipGap rest)
      | rest => refuse .expectedComma rest) := by
  obtain ⟨text, htext⟩ : ∃ text, writeText name = '"' :: text := ⟨_, rfl⟩
  rw [htext, List.cons_append, readFields, readText_writeText htext]
  rfl

/-- A text in quotes begins with no gap. -/
theorem skipGap_writeText (s : String) (rest : List Char) :
    skipGap (writeText s ++ rest) = writeText s ++ rest := rfl

/-- The fields of an object are read back one after the other, if the value of each is and no name
comes twice. -/
theorem rereads_fields (before : Table String Json)
    (distinct : (Table.keys (before ++ (name, first) :: fields)).Nodup)
    (lasting : ∀ field ∈ (name, first) :: fields, Lasting field.2)
    (returns : ∀ field ∈ (name, first) :: fields, Returns style field.2) {fuel : Nat}
    (enough : 2 * ((writeText name).length + (write style level first).length +
      (writeFields style level fields).length) + 1 ≤ fuel) (depth : Nat) (rest : List Char) :
    Rereads (readFields fuel depth before (writeText name ++ ([':', ' '] ++
      (write style level first ++
        (writeFields style level fields ++ (style.lineBreak outer ++ '}' :: rest))))))
      (.object (before ++ (name, first) :: fields)) rest := by
  induction fields generalizing name first before fuel with
  | nil =>
    have hfirst : Lasting first := (List.forall_mem_cons.1 lasting).1
    have hreturns : Returns style first := (List.forall_mem_cons.1 returns).1
    obtain ⟨fuel, rfl⟩ := Nat.exists_eq_add_of_le' (show 1 ≤ fuel by omega)
    have hstops := stops_lineBreak style outer (.inr rfl) rest
    have hgap : skipGap (style.lineBreak outer ++ '}' :: rest) = '}' :: rest :=
      skipGap_lineBreak style outer _
    have hput : before.put name first = before ++ [(name, first)] :=
      Table.put_of_not_mem (Table.not_mem_keys_of_nodup distinct) first
    rw [readFields_writeText, skipGap_write hfirst]
    refine (hreturns level depth fuel _ hstops (by omega)).bind (.inl ?_)
    simp only [hgap, hput]
    rfl
  | cons field fields ih =>
    have hfirst : Lasting first := (List.forall_mem_cons.1 lasting).1
    have hreturns : Returns style first := (List.forall_mem_cons.1 returns).1
    obtain ⟨other, second⟩ := field
    obtain ⟨fuel, rfl⟩ := Nat.exists_eq_add_of_le' (show 1 ≤ fuel by omega)
    obtain ⟨after, hafter, hgap⟩ := skipGap_comma style level (writeText other ++ ([':', ' '] ++
      (write style level second ++
        (writeFields style level fields ++ (style.lineBreak outer ++ '}' :: rest)))))
    have hwritten : writeFields style level ((other, second) :: fields) ++
        (style.lineBreak outer ++ '}' :: rest) = ',' :: after := by
      rw [← hafter]
      simp only [writeFields, List.append_assoc]
    have hlength : (writeFields style level ((other, second) :: fields)).length =
        style.comma.length + (style.lineBreak level).length + (writeText other).length + 2 +
          (write style level second).length + (writeFields style level fields).length := by
      simp only [writeFields, List.length_append]
      rfl
    have hcomma : 1 ≤ style.comma.length := by cases style <;> decide
    -- the name is new, so the field is put behind those before
    have hput : before.put name first = before ++ [(name, first)] :=
      Table.put_of_not_mem (Table.not_mem_keys_of_nodup distinct) first
    rw [readFields_writeText, skipGap_write hfirst, hwritten]
    refine (hreturns level depth fuel _ (stops_cons (by decide) after) (by omega)).bind ?_
    have hfuel : 2 * ((writeText other).length + (write style level second).length +
        (writeFields style level fields).length) + 1 ≤ fuel := by omega
    have hnext := ih (before ++ [(name, first)]) (by simpa using distinct)
      (List.forall_mem_cons.1 lasting).2 (List.forall_mem_cons.1 returns).2 hfuel
    rw [skipGap_writeText] at hgap
    rw [← hgap, List.append_assoc, List.singleton_append, ← hput] at hnext
    exact hnext

end Fields

/-- Words are read back. -/
theorem returns_word {style : Style} {value : Json} {word : List Char}
    (h : ∀ level, write style level value = word)
    (reads : ∀ fuel depth rest, readValue (fuel + 1) depth (word ++ rest) = .ok (value, rest))
    (some : 0 < word.length) : Returns style value := by
  intro level depth fuel rest _ enough
  rw [h] at enough ⊢
  obtain ⟨fuel, rfl⟩ := Nat.exists_eq_add_of_le' (show 1 ≤ fuel by omega)
  exact .inl (reads fuel depth rest)

/-- An integer that is short enough is read back. -/
theorem readValue_writeInt {n : Int} (short : n.natAbs < 10 ^ maxIntegerDigits)
    {rest : List Char} (stops : Stops rest) (fuel depth : Nat) :
    readValue (fuel + 1) depth (writeInt n ++ rest) = .ok (.int n, rest) := by
  have hword := readWord?_writeInt n rest
  have hnumber := readNumber_writeInt short stops
  obtain ⟨c, cs, h, hc⟩ := exists_cons_writeInt n
  have hother : c ≠ '"' ∧ c ≠ '[' ∧ c ≠ '\x7b' := by
    rcases hc with hc | ⟨rfl, -⟩
    · exact ⟨ne_of_isDigit hc rfl, ne_of_isDigit hc rfl, ne_of_isDigit hc rfl⟩
    · decide
  rw [h, List.cons_append] at hword hnumber ⊢
  unfold readValue
  split
  · next heq => cases heq; exact absurd rfl hother.1
  · next heq => cases heq; exact absurd rfl hother.2.1
  · next heq => cases heq; exact absurd rfl hother.2.2
  · rw [hword]
    exact hnumber

/-- Behind an opening bracket the items of an array are read, if there are some. -/
theorem readValue_items {rest cs : List Char} (h : skipGap rest = cs)
    (more : ∀ rest', cs ≠ ']' :: rest') (fuel depth : Nat) :
    readValue (fuel + 1) (depth + 1) ('[' :: rest) = readItems fuel depth [] cs := by
  subst h
  exact readValue.eq_5 fuel rest depth more

/-- Behind an opening brace the fields of an object are read, if there are some. -/
theorem readValue_fields {rest cs : List Char} (h : skipGap rest = cs)
    (more : ∀ rest', cs ≠ '\x7d' :: rest') (fuel depth : Nat) :
    readValue (fuel + 1) (depth + 1) ('\x7b' :: rest) = readFields fuel depth [] cs := by
  subst h
  exact readValue.eq_8 fuel rest depth more

/-- An integer that is short enough comes back. -/
theorem returns_int {value : Int} (short : value.natAbs < 10 ^ maxIntegerDigits) (style : Style) :
    Returns style (.int value) := by
  intro level depth fuel rest stops enough
  have hlength : 1 ≤ (writeInt value).length := by
    obtain ⟨c, cs, h, -⟩ := exists_cons_writeInt value
    simp [h]
  rw [write] at enough ⊢
  obtain ⟨fuel, rfl⟩ := Nat.exists_eq_add_of_le' (show 1 ≤ fuel by omega)
  exact .inl (readValue_writeInt short stops fuel depth)

/-- Every text comes back. -/
theorem returns_text (value : String) (style : Style) : Returns style (.text value) := by
  intro level depth fuel rest _ enough
  obtain ⟨text, htext⟩ : ∃ text, writeText value = '"' :: text := ⟨_, rfl⟩
  rw [write, htext, List.length_cons] at enough
  obtain ⟨fuel, rfl⟩ := Nat.exists_eq_add_of_le' (show 1 ≤ fuel by omega)
  rw [write, htext, List.cons_append, readValue, readText_writeText htext]
  exact .inl rfl

/-- An array is read back if its items are. -/
theorem returns_array {style : Style} {items : List Json}
    (lasting : ∀ item ∈ items, Lasting item) (returns : ∀ item ∈ items, Returns style item) :
    Returns style (.array items) := by
  intro level depth fuel rest _ enough
  cases items with
  | nil =>
    rw [write, List.length_cons] at enough
    obtain ⟨fuel, rfl⟩ := Nat.exists_eq_add_of_le' (show 1 ≤ fuel by omega)
    cases depth with
    | zero => exact .inr rfl
    | succ depth => exact .inl rfl
  | cons first items =>
    have hwrite : write style level (.array (first :: items)) ++ rest =
        '[' :: (style.lineBreak (level + 1) ++ (write style (level + 1) first ++
          (writeItems style (level + 1) items ++ (style.lineBreak level ++ ']' :: rest)))) := by
      simp only [write, List.append_assoc, List.cons_append, List.nil_append]
    have hlength : (write style level (.array (first :: items))).length =
        (style.lineBreak (level + 1)).length + (write style (level + 1) first).length +
          (writeItems style (level + 1) items).length + (style.lineBreak level).length + 2 := by
      simp only [write, List.length_append, List.length_cons, List.length_nil]
      omega
    obtain ⟨fuel, rfl⟩ := Nat.exists_eq_add_of_le' (show 1 ≤ fuel by omega)
    rw [hwrite]
    cases depth with
    | zero => exact .inr rfl
    | succ depth =>
      have hgap := skipGap_lineBreak style (level + 1) (write style (level + 1) first ++
        (writeItems style (level + 1) items ++ (style.lineBreak level ++ ']' :: rest)))
      rw [skipGap_write (lasting first List.mem_cons_self)] at hgap
      -- the reader takes it for an empty array unless the first item begins with another character
      obtain ⟨c, cs, hfirst, -, hmore⟩ :=
        exists_cons_write (lasting first List.mem_cons_self) style (level + 1)
      rw [readValue_items hgap fun rest' h => hmore (by rw [hfirst] at h; cases h; rfl)]
      exact rereads_items lasting returns [] (by omega) depth rest

/-- An object with distinct names is read back if the values of its fields are. -/
theorem returns_object {style : Style} {fields : Table String Json}
    (distinct : fields.keys.Nodup) (lasting : ∀ field ∈ fields, Lasting field.2)
    (returns : ∀ field ∈ fields, Returns style field.2) : Returns style (.object fields) := by
  intro level depth fuel rest _ enough
  cases fields with
  | nil =>
    rw [write, List.length_cons] at enough
    obtain ⟨fuel, rfl⟩ := Nat.exists_eq_add_of_le' (show 1 ≤ fuel by omega)
    cases depth with
    | zero => exact .inr rfl
    | succ depth => exact .inl rfl
  | cons field fields =>
    obtain ⟨name, first⟩ := field
    -- the text in the order in which the reader takes it apart
    have hwrite : write style level (.object ((name, first) :: fields)) ++ rest =
        '\x7b' :: (style.lineBreak (level + 1) ++ (writeText name ++ ([':', ' '] ++
          (write style (level + 1) first ++ (writeFields style (level + 1) fields ++
            (style.lineBreak level ++ '\x7d' :: rest)))))) := by
      simp only [write, List.append_assoc, List.cons_append, List.nil_append]
    -- the fuel is counted in characters
    have hlength : (write style level (.object ((name, first) :: fields))).length =
        (style.lineBreak (level + 1)).length + (writeText name).length + 2 +
          (write style (level + 1) first).length +
          (writeFields style (level + 1) fields).length + (style.lineBreak level).length + 2 := by
      simp only [write, List.length_append, List.length_cons, List.length_nil]
      omega
    obtain ⟨fuel, rfl⟩ := Nat.exists_eq_add_of_le' (show 1 ≤ fuel by omega)
    rw [hwrite]
    cases depth with
    | zero => exact .inr rfl
    | succ depth =>
      have hgap := skipGap_lineBreak style (level + 1) (writeText name ++ ([':', ' '] ++
        (write style (level + 1) first ++ (writeFields style (level + 1) fields ++
          (style.lineBreak level ++ '\x7d' :: rest)))))
      rw [skipGap_writeText] at hgap
      rw [readValue_fields hgap fun rest' h => by cases h]
      exact rereads_fields [] distinct lasting returns (by omega) depth rest

/-- **A value that lasts is read back as it was written.** -/
theorem returns_of_lasting {value : Json} (lasting : Lasting value) (style : Style) :
    Returns style value := by
  induction lasting with
  | null => exact returns_word (fun _ => rfl) (fun _ _ _ => rfl) (by decide)
  | bool value =>
    cases value
    · exact returns_word (fun _ => rfl) (fun _ _ _ => rfl) (by decide)
    · exact returns_word (fun _ => rfl) (fun _ _ _ => rfl) (by decide)
  | int short => exact returns_int short style
  | float allowed => exact allowed.elim
  | text value => exact returns_text value style
  | array lasting ih => exact returns_array lasting ih
  | object distinct lasting ih => exact returns_object distinct lasting ih

/-! ### The text of a value -/

/-- A printed ASCII character or a line feed. -/
def Printed (c : Char) : Prop := c = '\n' ∨ 0x20 ≤ c.toNat ∧ c.toNat < 0x7F

/-- A digit is a printed character. -/
theorem printed_of_isDigit {c : Char} (h : isDigit c) : Printed c := by
  simp only [isDigit, Bool.and_eq_true, decide_eq_true_eq] at h
  have hleast : '0'.toNat ≤ c.toNat := h.1
  have hgreatest : c.toNat ≤ '9'.toNat := h.2
  exact .inr ⟨Nat.le_trans (by decide) hleast, Nat.lt_of_le_of_lt hgreatest (by decide)⟩

/-- A hexadecimal digit is a printed character. -/
theorem printed_of_hexValue? {c : Char} {n : Nat} (h : hexValue? c = some n) : Printed c := by
  unfold hexValue? at h
  have hbetween {least greatest : Char} (hc : least ≤ c ∧ c ≤ greatest) (h' : 0x20 ≤ least.toNat)
      (h'' : greatest.toNat < 0x7F) : Printed c :=
    .inr ⟨Nat.le_trans h' hc.1, Nat.lt_of_le_of_lt hc.2 h''⟩
  split at h
  · next hc => exact hbetween hc (by decide) (by decide)
  split at h
  · next hc => exact hbetween hc (by decide) (by decide)
  split at h
  · next hc => exact hbetween hc (by decide) (by decide)
  · cases h

/-- The escape of a unit consists of printed characters. -/
theorem printed_unitEscape {n : Nat} (h : n < 0x10000) : ∀ c ∈ unitEscape n, Printed c := by
  obtain ⟨c₁, c₂, c₃, c₄, hhex, hvalue⟩ := hex4?_hex h
  simp only [hex4?, Option.bind_eq_bind, Option.bind_eq_some_iff] at hvalue
  obtain ⟨_, h₁, _, h₂, _, h₃, _, h₄, -⟩ := hvalue
  rw [unitEscape, hhex]
  simp only [List.forall_mem_cons]
  exact ⟨.inr (by decide), .inr (by decide), printed_of_hexValue? h₁, printed_of_hexValue? h₂,
    printed_of_hexValue? h₃, printed_of_hexValue? h₄, List.forall_mem_nil _⟩

/-- The form of a character in a text consists of printed characters. -/
theorem printed_escapeChar (c : Char) : ∀ d ∈ escapeChar c, Printed d := by
  obtain ⟨d, hwritten, -, -, hd⟩ | ⟨hwritten, -, -, -, hc⟩ | hwritten := escapeChar_cases c
  · rw [hwritten]
    exact List.forall_mem_cons.2 ⟨.inr (by decide), List.forall_mem_singleton.2 (.inr hd)⟩
  · rw [hwritten]
    exact List.forall_mem_singleton.2 (.inr hc)
  · rw [hwritten]
    intro d hd
    obtain ⟨n, hn, hdigit⟩ := List.mem_flatMap.1 hd
    exact printed_unitEscape (lt_of_mem_unitsOf hn) d hdigit

/-- Characters in the printed range are printed ones. -/
theorem forall_printed {cs : List Char}
    (h : cs.all fun c => 0x20 ≤ c.toNat ∧ c.toNat < 0x7F) : ∀ c ∈ cs, Printed c := fun c hc =>
  .inr (of_decide_eq_true (List.all_eq_true.1 h c hc))

/-- A text in quotes consists of printed characters. -/
theorem printed_writeText (s : String) : ∀ c ∈ writeText s, Printed c := by
  have hcs : ∀ c ∈ s.toList.flatMap escapeChar, Printed c := by
    intro c hc
    obtain ⟨d, -, hd⟩ := List.mem_flatMap.1 hc
    exact printed_escapeChar d c hd
  refine List.forall_mem_append.2 ⟨List.forall_mem_cons.2 ⟨.inr (by decide), hcs⟩, ?_⟩
  exact List.forall_mem_singleton.2 (.inr (by decide))

/-- A line break consists of printed characters. -/
theorem printed_lineBreak (style : Style) (level : Nat) :
    ∀ c ∈ style.lineBreak level, Printed c := by
  cases style with
  | compact => exact List.forall_mem_nil _
  | indented =>
    refine List.forall_mem_cons.2 ⟨.inl rfl, fun c hc => ?_⟩
    rw [List.eq_of_mem_replicate hc]
    exact .inr (by decide)

/-- A comma, with what follows it, consists of printed characters. -/
theorem printed_comma (style : Style) : ∀ c ∈ style.comma, Printed c := by
  cases style
  · exact List.forall_mem_cons.2 ⟨.inr (by decide), List.forall_mem_singleton.2 (.inr (by decide))⟩
  · exact List.forall_mem_singleton.2 (.inr (by decide))

/-- The items of an array consist of printed characters, if each of them does. -/
theorem printed_writeItems {style : Style} {items : List Json}
    (h : ∀ item ∈ items, ∀ level, ∀ c ∈ write style level item, Printed c) (level : Nat) :
    ∀ c ∈ writeItems style level items, Printed c := by
  induction items with
  | nil => exact List.forall_mem_nil _
  | cons item items ih =>
    obtain ⟨hitem, hitems⟩ := List.forall_mem_cons.1 h
    simp only [writeItems, List.forall_mem_append]
    exact ⟨⟨⟨printed_comma style, printed_lineBreak style level⟩, hitem level⟩, ih hitems⟩

/-- The fields of an object consist of printed characters, if the value of each does. -/
theorem printed_writeFields {style : Style} {fields : Table String Json}
    (h : ∀ field ∈ fields, ∀ level, ∀ c ∈ write style level field.2, Printed c) (level : Nat) :
    ∀ c ∈ writeFields style level fields, Printed c := by
  induction fields with
  | nil => exact List.forall_mem_nil _
  | cons field fields ih =>
    obtain ⟨name, value⟩ := field
    obtain ⟨hvalue, hfields⟩ := List.forall_mem_cons.1 h
    simp only [writeFields, List.forall_mem_append]
    exact ⟨⟨⟨⟨⟨printed_comma style, printed_lineBreak style level⟩, printed_writeText name⟩,
      forall_printed (by decide)⟩, hvalue level⟩, ih hfields⟩

/-- The text of a value that lasts consists of printed characters. -/
theorem printed_write {value : Json} (lasting : Lasting value) (style : Style) (level : Nat) :
    ∀ c ∈ write style level value, Printed c := by
  have hbreak := printed_lineBreak style
  -- induction on the value; the level only sets how far a line is indented
  induction lasting generalizing level with
  | null => rw [write]; exact forall_printed (by decide)
  | bool value => cases value <;> rw [write] <;> exact forall_printed (by decide)
  | @int value _ =>
    have hdigits : ∀ c ∈ Nat.toDigits 10 value.natAbs, Printed c := fun c hc =>
      printed_of_isDigit (isDigit_of_mem_toDigits hc)
    rw [write, writeInt]
    split
    · exact List.forall_mem_cons.2 ⟨.inr (by decide), hdigits⟩
    · exact hdigits
  | float allowed => exact allowed.elim
  | text value => exact printed_writeText value
  | @array items _ ih =>
    cases items with
    | nil => rw [write]; exact forall_printed (by decide)
    | cons item items =>
      obtain ⟨hitem, hitems⟩ := List.forall_mem_cons.1 ih
      simp only [write, List.forall_mem_append, List.forall_mem_cons]
      exact ⟨⟨⟨⟨⟨.inr (by decide), hbreak _⟩, hitem _⟩, printed_writeItems hitems _⟩, hbreak _⟩,
        .inr (by decide), List.forall_mem_nil _⟩
  | @object fields _ _ ih =>
    cases fields with
    | nil => rw [write]; exact forall_printed (by decide)
    | cons field fields =>
      obtain ⟨name, value⟩ := field
      obtain ⟨hvalue, hfields⟩ := List.forall_mem_cons.1 ih
      simp only [write, List.forall_mem_append, List.forall_mem_cons]
      exact ⟨⟨⟨⟨⟨⟨⟨.inr (by decide), hbreak _⟩, printed_writeText name⟩, .inr (by decide),
        .inr (by decide), List.forall_mem_nil _⟩, hvalue _⟩, printed_writeFields hfields _⟩,
        hbreak _⟩, .inr (by decide), List.forall_mem_nil _⟩

/-! ### Whole texts -/

/-- **A written text is read back** as the value that was written, unless it is nested too deep. -/
theorem parse_write {value : Json} (lasting : Lasting value) (style : Style) :
    parse (String.ofList (write style 0 value)) = .ok value ∨
      parse (String.ofList (write style 0 value)) = .error .nestedTooDeep := by
  -- what is written is ASCII, so no byte order mark stands before it
  have hmark : (write style 0 value).head? ≠ some '\uFEFF' := fun h =>
    absurd (printed_write lasting style 0 _ (List.mem_of_mem_head? h)) (by simp [Printed])
  have hgap := skipGap_write lasting style 0 []
  have hread := returns_of_lasting lasting style 0 maxNesting (2 * (write style 0 value).length + 2)
    [] nofun (by omega)
  rw [List.append_nil] at hgap hread
  rw [parse, String.toList_ofList, parseChars, if_neg hmark, hgap]
  rcases hread with hread | hread
  · rw [hread]
    exact .inl rfl
  · rw [hread]
    exact .inr rfl

/-! ### What is read -/

/-- What the reading gives, if it gives something. -/
def Gives {α : Type} (P : α → Prop) (reading : Except ReadError (α × List Char)) : Prop :=
  ∀ value rest, reading = .ok (value, rest) → P value

section Gives

variable {α β : Type} {P : α → Prop} {Q : β → Prop}

/-- A reading that goes well gives what it gives. -/
theorem Gives.ok {value : α} {rest : List Char} (h : P value) : Gives P (.ok (value, rest)) := by
  rintro _ _ ⟨⟩
  exact h

/-- A refusal gives nothing, so anything holds of what it gives. -/
theorem Gives.error (refusal : ReadError) : Gives P (.error refusal) := by
  rintro _ _ ⟨⟩

/-- Two readings in a row give what the second one does. -/
theorem Gives.bind {reading : Except ReadError (α × List Char)}
    {next : α × List Char → Except ReadError (β × List Char)} (h : Gives P reading)
    (h' : ∀ value rest, P value → Gives Q (next (value, rest))) : Gives Q (reading >>= next) := by
  match reading with
  | .ok (value, rest) => exact h' value rest (h value rest rfl)
  | .error refusal => exact .error refusal

end Gives

/-- A number is read without its sign as a regular value. -/
theorem gives_readUnsigned (negative : Bool) (start cs : List Char) :
    Gives (Regular True) (readUnsigned negative start cs) := by
  rw [readUnsigned]
  split
  · exact .error _
  · next whole rest hwhole =>
    obtain ⟨-, hdigits⟩ := wholeDigits?_eq_some hwhole
    dsimp only
    split
    · exact .ok (.float trivial _)
    · split
      · exact .ok (.float trivial _)
      · split
        · exact .error _
        · next hshort =>
          -- the digits are few enough to bound the number
          have hvalue : digitsValue whole < 10 ^ maxIntegerDigits :=
            Nat.lt_of_lt_of_le (digitsValue_lt hdigits)
              (Nat.pow_le_pow_right (by decide) (Nat.le_of_not_lt hshort))
          refine .ok (.int ?_)
          split
          · rwa [Int.natAbs_neg, Int.natAbs_natCast]
          · rwa [Int.natAbs_natCast]

/-- A number is read as a regular value. -/
theorem gives_readNumber (cs : List Char) : Gives (Regular True) (readNumber cs) := by
  unfold readNumber
  split
  · exact gives_readUnsigned true _ _
  · exact gives_readUnsigned false cs cs

/-- What a word stands for is a regular value. -/
theorem regular_of_readWord? {value : Json} {cs rest : List Char}
    (h : readWord? cs = some (value, rest)) : Regular True value := by
  have hwords : ∀ entry ∈ words, Regular True entry.2 := by
    simp only [words, List.forall_mem_cons]
    exact ⟨.null, .bool true, .bool false, .float trivial _, .float trivial _, .float trivial _,
      List.forall_mem_nil _⟩
  obtain ⟨⟨word, read⟩, hword, hrest⟩ := List.exists_of_findSome?_eq_some h
  obtain ⟨left, -, hread⟩ := Option.map_eq_some_iff.1 hrest
  cases hread
  exact hwords _ hword

/-- **The reader only gives regular values.** -/
theorem gives_read (fuel : Nat) :
    (∀ depth cs, Gives (Regular True) (readValue fuel depth cs)) ∧
    (∀ depth items cs, (∀ item ∈ items, Regular True item) →
      Gives (Regular True) (readItems fuel depth items cs)) ∧
    ∀ depth (fields : Table String Json) cs, fields.keys.Nodup →
      (∀ field ∈ fields, Regular True field.2) →
        Gives (Regular True) (readFields fuel depth fields cs) := by
  -- the three readers call each other with less fuel, so they are proved together
  induction fuel with
  | zero => exact ⟨fun _ _ => .error _, fun _ _ _ _ => .error _, fun _ _ _ _ _ => .error _⟩
  | succ fuel ih =>
    obtain ⟨hvalue, hitems, hfields⟩ := ih
    refine ⟨fun depth cs => ?_, fun depth items cs regular => ?_,
      fun depth fields cs distinct regular => ?_⟩
    · unfold readValue
      split
      · refine Gives.bind (P := fun _ => True) (fun _ _ _ => trivial) fun value rest _ => ?_
        exact .ok (.text value)
      · split
        · exact .error _
        · exact .ok (.array (List.forall_mem_nil _))
        · exact hitems _ [] _ (List.forall_mem_nil _)
      · split
        · exact .error _
        · exact .ok (.object .nil (List.forall_mem_nil _))
        · exact hfields _ [] _ .nil (List.forall_mem_nil _)
      · split
        · next reading hword => exact .ok (regular_of_readWord? hword)
        · exact gives_readNumber _
    · unfold readItems
      refine (hvalue depth cs).bind fun item rest hitem => ?_
      dsimp only
      have hregular := List.forall_mem_cons.2 ⟨hitem, regular⟩
      split
      · exact .ok (.array fun item hitem => hregular item (List.mem_reverse.1 hitem))
      · exact hitems depth _ _ hregular
      · exact .error _
    · unfold readFields
      split
      · refine Gives.bind (P := fun _ => True) (fun _ _ _ => trivial) fun name rest _ => ?_
        dsimp only
        split
        · refine (hvalue depth _).bind fun value rest hvalue => ?_
          dsimp only
          have hdistinct := Table.nodup_keys_put distinct name value
          have hfield : Regular True (Prod.mk name value).2 := hvalue
          have hregular := Table.forall_mem_put regular hfield
          split
          · exact .ok (.object hdistinct hregular)
          · exact hfields depth _ _ hdistinct hregular
          · exact .error _
        · exact .error _
      · exact .error _

/-- A text that is read has short integers only, and distinct names. -/
theorem regular_of_parse {s : String} {value : Json} (h : parse s = .ok value) :
    Regular True value := by
  unfold parse parseChars at h
  split at h
  · cases h
  · match hread : readValue (2 * s.toList.length + 2) maxNesting (skipGap s.toList) with
    | .ok (read, rest) =>
      rw [hread] at h
      dsimp only [Bind.bind, Except.bind] at h
      split at h
      · cases h
        exact (gives_read _).1 _ _ _ _ hread
      · cases h
    | .error refusal =>
      rw [hread] at h
      cases h

end AsmScope.Json
