/-
**Dictionaries with ascending keys.**

A dictionary holds one value under each of finitely many strings. Its entries are kept in ascending
order of their keys, which is also the byte order of their UTF-8 forms, so two dictionaries that
hold the same are equal. Main statements: `get?_insert` describes a write through the look-up,
`get?_ofList` says that of several entries under one key the last one counts, `mem_entries_iff` that
the look-up finds every entry, and `ofList_entries` that nothing but the entries matters.
-/

namespace ColumnCalc

/-- Values under string keys, in ascending order of the keys. -/
structure Dictionary (α : Type) where
  entries : List (String × α)
  ascending : entries.Pairwise fun first second => first.1 < second.1
  deriving Repr, DecidableEq

namespace Dictionary

variable {α : Type}

/-- Entries with one key set: its value replaced, or a new entry at its place. -/
def insertEntry (key : String) (value : α) : List (String × α) → List (String × α)
  | [] => [(key, value)]
  | entry :: rest =>
    if key < entry.1 then (key, value) :: entry :: rest
    else if entry.1 < key then entry :: insertEntry key value rest
    else (key, value) :: rest

theorem mem_insertEntry {key : String} {value : α} {entries : List (String × α)}
    {entry : String × α} (member : entry ∈ insertEntry key value entries) :
    entry = (key, value) ∨ entry ∈ entries := by
  induction entries with
  | nil => simpa [insertEntry] using member
  | cons first rest hypothesis =>
    simp only [insertEntry] at member
    split at member
    · simpa using member
    · split at member
      · rcases List.mem_cons.1 member with same | later
        · exact .inr (by simp [same])
        · rcases hypothesis later with found | found
          · exact .inl found
          · exact .inr (List.mem_cons_of_mem _ found)
      · rcases List.mem_cons.1 member with same | later
        · exact .inl same
        · exact .inr (List.mem_cons_of_mem _ later)

theorem eq_of_not_lt {first second : String} (notLess : ¬first < second)
    (notGreater : ¬second < first) : first = second :=
  String.le_antisymm (String.not_lt.1 notGreater) (String.not_lt.1 notLess)

theorem insertEntry_ascending {key : String} {value : α} {entries : List (String × α)}
    (ascending : entries.Pairwise fun first second => first.1 < second.1) :
    (insertEntry key value entries).Pairwise fun first second => first.1 < second.1 := by
  induction entries with
  | nil => simp [insertEntry]
  | cons first rest hypothesis =>
    obtain ⟨least, tail⟩ := List.pairwise_cons.1 ascending
    simp only [insertEntry]
    split
    · rename_i before
      refine List.pairwise_cons.2 ⟨?_, ascending⟩
      intro entry member
      rcases List.mem_cons.1 member with same | later
      · exact same ▸ before
      · exact String.lt_trans before (least entry later)
    · split
      · rename_i after
        refine List.pairwise_cons.2 ⟨?_, hypothesis tail⟩
        intro entry member
        rcases mem_insertEntry member with same | later
        · exact same ▸ after
        · exact least entry later
      · rename_i notBefore notAfter
        have same := eq_of_not_lt notBefore notAfter
        exact List.pairwise_cons.2 ⟨fun entry member => same ▸ least entry member, tail⟩

/-- The dictionary without entries. -/
def empty : Dictionary α := ⟨[], List.Pairwise.nil⟩

instance : EmptyCollection (Dictionary α) := ⟨empty⟩

instance : Inhabited (Dictionary α) := ⟨empty⟩

/-- Sets the value under a key. -/
def insert (dictionary : Dictionary α) (key : String) (value : α) : Dictionary α :=
  ⟨insertEntry key value dictionary.entries, insertEntry_ascending dictionary.ascending⟩

/-- The value under a key. -/
def get? (dictionary : Dictionary α) (key : String) : Option α :=
  dictionary.entries.lookup key

/-- The dictionary of a list of entries; of several under one key the last one counts. -/
def ofList (entries : List (String × α)) : Dictionary α :=
  entries.foldl (fun dictionary entry => dictionary.insert entry.1 entry.2) empty

/-- The keys, ascending. -/
def keys (dictionary : Dictionary α) : List String :=
  dictionary.entries.map (·.1)

/-- How many keys there are. -/
def size (dictionary : Dictionary α) : Nat :=
  dictionary.entries.length

/-- There are no entries. -/
def isEmpty (dictionary : Dictionary α) : Bool :=
  dictionary.entries.isEmpty

theorem ext_entries {first second : Dictionary α} (same : first.entries = second.entries) :
    first = second := by
  cases first; cases second; simp_all

theorem lookup_entry (other : String) (entry : String × α) (entries : List (String × α)) :
    (entry :: entries).lookup other =
      if other = entry.1 then some entry.2 else entries.lookup other := by
  obtain ⟨key, value⟩ := entry
  by_cases same : other = key
  · simp [same]
  · have missed : (other == key) = false := by simpa using same
    simp [List.lookup_cons, missed, same]

theorem lookup_insertEntry (key other : String) (value : α) (entries : List (String × α)) :
    (insertEntry key value entries).lookup other =
      if other = key then some value else entries.lookup other := by
  induction entries with
  | nil => simp [insertEntry, lookup_entry]
  | cons first rest hypothesis =>
    simp only [insertEntry]
    split
    · simp [lookup_entry]
    · split
      · rename_i after
        by_cases same : other = first.1
        · have different : first.1 ≠ key := fun equal =>
            String.lt_irrefl key (by rw [equal] at after; exact after)
          simp [lookup_entry, same, different]
        · simp [lookup_entry, same, hypothesis]
      · rename_i notBefore notAfter
        have equal := eq_of_not_lt notBefore notAfter
        by_cases same : other = key <;> simp [lookup_entry, same, ← equal]

/-- A write is seen under its own key and nowhere else. -/
@[simp] theorem get?_insert (dictionary : Dictionary α) (key other : String) (value : α) :
    (dictionary.insert key value).get? other =
      if other = key then some value else dictionary.get? other :=
  lookup_insertEntry key other value dictionary.entries

@[simp] theorem get?_empty (key : String) : (empty : Dictionary α).get? key = none := rfl

/-- Entries that are written one after another hide what was there before them. -/
theorem get?_foldl_insert (entries : List (String × α)) (dictionary : Dictionary α)
    (key : String) :
    (entries.foldl (fun dictionary entry => dictionary.insert entry.1 entry.2) dictionary).get? key
      = (entries.reverse.lookup key).or (dictionary.get? key) := by
  induction entries generalizing dictionary with
  | nil => rfl
  | cons entry rest hypothesis =>
    rw [List.foldl_cons, hypothesis, get?_insert, List.reverse_cons, List.lookup_append,
      Option.or_assoc, lookup_entry, List.lookup_nil]
    split <;> rfl

/-- Of several entries under one key the last one counts. -/
theorem get?_ofList (entries : List (String × α)) (key : String) :
    (ofList entries).get? key = entries.reverse.lookup key := by
  rw [ofList, get?_foldl_insert, get?_empty, Option.or_none]

/-- What is looked up under a key is the entry of that key. -/
theorem mem_entries_iff (dictionary : Dictionary α) (key : String) (value : α) :
    (key, value) ∈ dictionary.entries ↔ dictionary.get? key = some value := by
  unfold get?
  have ascending := dictionary.ascending
  generalize dictionary.entries = entries at ascending
  induction entries with
  | nil => simp
  | cons entry rest hypothesis =>
    obtain ⟨least, tail⟩ := List.pairwise_cons.1 ascending
    rw [lookup_entry, List.mem_cons]
    split
    · rename_i same
      constructor
      · rintro (equal | later)
        · rw [← equal]
        · exact absurd (same ▸ least (key, value) later) (String.lt_irrefl key)
      · rintro found
        cases found
        exact .inl (by rw [same])
    · rename_i different
      have distinct : (key, value) ≠ entry := fun equal => different (by rw [← equal])
      exact ⟨fun found => (hypothesis tail).1 (found.resolve_left distinct),
        fun found => .inr ((hypothesis tail).2 found)⟩

/-- An entry whose key is greater than all keys goes to the end. -/
theorem insertEntry_of_greatest {key : String} {value : α} {entries : List (String × α)}
    (greatest : ∀ entry ∈ entries, entry.1 < key) :
    insertEntry key value entries = entries ++ [(key, value)] := by
  induction entries with
  | nil => rfl
  | cons first rest hypothesis =>
    have after := greatest first (by simp)
    have notBefore : ¬key < first.1 := fun before => String.lt_irrefl _ (String.lt_trans before after)
    simp [insertEntry, notBefore, after,
      hypothesis fun entry member => greatest entry (List.mem_cons_of_mem _ member)]

theorem foldl_insert_entries (entries : List (String × α)) (dictionary : Dictionary α)
    (ascending : (dictionary.entries ++ entries).Pairwise fun first second => first.1 < second.1) :
    (entries.foldl (fun dictionary entry => dictionary.insert entry.1 entry.2) dictionary).entries
      = dictionary.entries ++ entries := by
  induction entries generalizing dictionary with
  | nil => simp
  | cons entry rest hypothesis =>
    have greatest : ∀ earlier ∈ dictionary.entries, earlier.1 < entry.1 := fun earlier member =>
      (List.pairwise_append.1 ascending).2.2 earlier member entry (by simp)
    have grown : (dictionary.insert entry.1 entry.2).entries = dictionary.entries ++ [entry] :=
      insertEntry_of_greatest greatest
    simp only [List.foldl_cons]
    rw [hypothesis _ (by simpa [grown] using ascending), grown]
    simp

/-- The entries determine the dictionary. -/
@[simp] theorem ofList_entries (dictionary : Dictionary α) :
    ofList dictionary.entries = dictionary :=
  ext_entries (by
    simpa [ofList, empty] using
      foldl_insert_entries dictionary.entries empty (by simpa [empty] using dictionary.ascending))

end Dictionary

end ColumnCalc
