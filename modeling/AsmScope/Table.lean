/-! # Tables in order of first insertion

A table is a list of pairs in which every key stands once, in the order in which the keys came.
Writing a key that is present replaces its value where it stands, so the order of an index, of a
settings object or of an environment never depends on how often an entry was written. -/

namespace AsmScope

universe u v

/-- A table from keys to values, in the order in which the keys were first written. -/
abbrev Table (κ : Type u) (ν : Type v) : Type (max u v) := List (κ × ν)

namespace Table

variable {κ : Type u} {ν : Type v} [DecidableEq κ]

/-- The value of the first entry with this key. -/
def get? : Table κ ν → κ → Option ν
  | [], _ => none
  | (k, v) :: rest, key => if k = key then some v else get? rest key

/-- Writes a value: in place if the key is present, at the end if it is not. -/
def put : Table κ ν → κ → ν → Table κ ν
  | [], key, value => [(key, value)]
  | (k, v) :: rest, key, value =>
    if k = key then (k, value) :: rest else (k, v) :: put rest key value

/-- Removes every entry with this key. -/
def erase (table : Table κ ν) (key : κ) : Table κ ν := table.filter fun entry => entry.1 ≠ key

/-- The keys, in order of first insertion. -/
def keys (table : Table κ ν) : List κ := table.map Prod.fst

/-- Whether the key is present. -/
def contains (table : Table κ ν) (key : κ) : Bool := (table.get? key).isSome

/-- Writes every entry of `updates` in turn. -/
def update (table updates : Table κ ν) : Table κ ν :=
  updates.foldl (fun t entry => t.put entry.1 entry.2) table

/-- The table of a list of entries, in which a later entry of a key replaces an earlier one. -/
def ofEntries (entries : List (κ × ν)) : Table κ ν := update [] entries

/-- An empty table has no value for any key. -/
@[simp] theorem get?_nil (key : κ) : get? ([] : Table κ ν) key = none := rfl

/-- After putting a value there, its key has this value, and every other key has what it had. -/
theorem get?_put (table : Table κ ν) (key other : κ) (value : ν) :
    (table.put key value).get? other = if key = other then some value else table.get? other := by
  induction table with
  | nil => simp [put, get?]
  | cons entry rest ih =>
    obtain ⟨k, v⟩ := entry
    by_cases hk : k = key
    · subst hk
      by_cases ho : k = other <;> simp [put, get?, ho]
    · by_cases hko : k = other
      · subst hko
        have ho : ¬ key = k := fun h => hk h.symm
        simp [put, get?, hk, ho]
      · simp [put, get?, hk, hko, ih]

/-- What was written last under a key is read back. -/
@[simp] theorem get?_put_self (table : Table κ ν) (key : κ) (value : ν) :
    (table.put key value).get? key = some value := by
  simp [get?_put]

/-- Writing what is there changes nothing. -/
theorem put_of_get? {table : Table κ ν} {key : κ} {value : ν} (h : table.get? key = some value) :
    table.put key value = table := by
  induction table with
  | nil => cases h
  | cons entry rest ih =>
    obtain ⟨k, v⟩ := entry
    by_cases hk : k = key
    · subst hk
      obtain rfl : v = value := by simpa [get?] using h
      simp [put]
    · simp only [get?, hk, if_false] at h
      simp [put, hk, ih h]

/-- Writing passes over entries of other keys. -/
theorem put_append {front : Table κ ν} {key : κ} (h : key ∉ front.keys) (back : Table κ ν)
    (value : ν) : Table.put (front ++ back) key value = front ++ Table.put back key value := by
  induction front with
  | nil => rfl
  | cons entry front ih =>
    obtain ⟨k, v⟩ := entry
    have hkey : key ≠ k ∧ key ∉ keys front := by simpa [keys] using h
    rw [List.cons_append, put, if_neg (Ne.symm hkey.1), ih hkey.2, List.cons_append]

/-- A new key goes to the end. -/
theorem put_of_not_mem {table : Table κ ν} {key : κ} (h : key ∉ table.keys) (value : ν) :
    table.put key value = table ++ [(key, value)] := by
  have hput := put_append h [] value
  rwa [List.append_nil] at hput

omit [DecidableEq κ] in
/-- Where every key occurs once, the key of an entry does not occur before it. -/
theorem not_mem_keys_of_nodup {front back : Table κ ν} {entry : κ × ν}
    (nodup : (keys (front ++ entry :: back)).Nodup) : entry.1 ∉ front.keys := by
  rw [keys, List.map_append, List.map_cons] at nodup
  exact fun h => (List.nodup_append.1 nodup).2.2 entry.1 h entry.1 List.mem_cons_self rfl

/-- Writing keeps the order of the keys; a new key comes last. -/
theorem keys_put (table : Table κ ν) (key : κ) (value : ν) :
    (table.put key value).keys = if key ∈ table.keys then table.keys else table.keys ++ [key] := by
  induction table with
  | nil => simp [put, keys]
  | cons entry rest ih =>
    obtain ⟨k, v⟩ := entry
    simp only [keys] at ih
    by_cases hk : k = key
    · simp [put, keys, hk]
    · have hk' : ¬ key = k := fun h => hk h.symm
      by_cases hm : ∃ w, (key, w) ∈ rest <;> simp_all [put, keys]

/-- Removing a key removes nothing else. -/
theorem get?_erase (table : Table κ ν) (key other : κ) :
    (table.erase key).get? other = if key = other then none else table.get? other := by
  induction table with
  | nil => simp [erase]
  | cons entry rest ih =>
    obtain ⟨k, v⟩ := entry
    simp only [erase] at ih
    by_cases hk : k = key
    · subst hk
      by_cases ho : k = other <;> simp_all [erase, get?]
    · by_cases hko : k = other
      · subst hko
        have hk' : ¬ key = k := fun h => hk h.symm
        simp [erase, get?, hk, hk']
      · simpa [erase, get?, hk, hko] using ih

/-- Removing what is not there changes nothing. -/
theorem erase_of_get?_eq_none {table : Table κ ν} {key : κ} (h : table.get? key = none) :
    table.erase key = table := by
  induction table with
  | nil => rfl
  | cons entry rest ih =>
    obtain ⟨k, v⟩ := entry
    by_cases hk : k = key
    · simp [get?, hk] at h
    · simp only [get?, hk, if_false] at h
      have hrest := ih h
      simp only [erase] at hrest ⊢
      rw [List.filter_cons_of_pos (by simpa using hk), hrest]

/-- Erasing a key leaves the others, in their order. -/
theorem keys_erase (table : Table κ ν) (key : κ) :
    (table.erase key).keys = table.keys.filter fun other => other ≠ key := by
  simp [erase, keys, List.filter_map, Function.comp_def]

/-- A key occurs exactly if it has a value. -/
theorem mem_keys_iff (table : Table κ ν) (key : κ) :
    key ∈ table.keys ↔ (table.get? key).isSome := by
  induction table with
  | nil => simp [keys]
  | cons entry rest ih =>
    obtain ⟨k, v⟩ := entry
    simp only [keys] at ih
    by_cases hk : k = key
    · simp [keys, get?, hk]
    · have hk' : ¬ key = k := fun h => hk h.symm
      simp [keys, get?, hk, hk', ← ih]

/-- The value of a key stands in an entry with it. -/
theorem mem_of_get? {table : Table κ ν} {key : κ} {value : ν} (h : table.get? key = some value) :
    (key, value) ∈ table := by
  induction table with
  | nil => cases h
  | cons entry rest ih =>
    obtain ⟨k, v⟩ := entry
    by_cases hk : k = key
    · subst hk
      obtain rfl : v = value := by simpa [get?] using h
      exact List.mem_cons_self
    · exact List.mem_cons_of_mem _ (ih (by simpa [get?, hk] using h))

/-- What holds of the entries and of a new one holds of the entries after that is written. -/
theorem forall_mem_put {P : κ × ν → Prop} {table : Table κ ν} (h : ∀ entry ∈ table, P entry)
    {key : κ} {value : ν} (h' : P (key, value)) : ∀ entry ∈ table.put key value, P entry := by
  induction table with
  | nil => exact List.forall_mem_singleton.2 h'
  | cons entry rest ih =>
    obtain ⟨k, v⟩ := entry
    obtain ⟨hentry, hrest⟩ := List.forall_mem_cons.1 h
    rw [put]
    split
    · next hk => exact List.forall_mem_cons.2 ⟨hk ▸ h', hrest⟩
    · exact List.forall_mem_cons.2 ⟨hentry, ih hrest⟩

/-- What holds of all entries of two tables holds of those of the one updated with the other. -/
theorem forall_mem_update {P : κ × ν → Prop} {table updates : Table κ ν}
    (h : ∀ entry ∈ table, P entry) (h' : ∀ entry ∈ updates, P entry) :
    ∀ entry ∈ table.update updates, P entry := by
  induction updates generalizing table with
  | nil => exact h
  | cons entry updates ih =>
    obtain ⟨hentry, hupdates⟩ := List.forall_mem_cons.1 h'
    exact ih (forall_mem_put h hentry) hupdates

/-- Putting a value lets no key occur twice. -/
theorem nodup_keys_put {table : Table κ ν} (nodup : table.keys.Nodup) (key : κ) (value : ν) :
    (table.put key value).keys.Nodup := by
  rw [keys_put]
  split
  · exact nodup
  · next hkey =>
    refine List.nodup_append.2 ⟨nodup, by simp, ?_⟩
    rintro other hother _ hkey' rfl
    exact hkey (List.mem_singleton.1 hkey' ▸ hother)

/-- Erasing a key lets none occur twice. -/
theorem nodup_keys_erase {table : Table κ ν} (nodup : table.keys.Nodup) (key : κ) :
    (table.erase key).keys.Nodup := by
  rw [keys_erase]
  exact nodup.filter _

end Table

end AsmScope
