import EndpointAtlas.Entries

/-!
Finite maps from texts, kept as their entries in strictly increasing order of keys. Texts are
ordered by code points, which is also the order of their UTF-8 bytes. Two tables with the same
look-ups are equal.
-/

namespace EndpointAtlas

/-- The value of the first entry with the key. -/
def lookupEntry (key : String) : List (String × α) → Option α
  | [] => none
  | (other, value) :: rest => if key = other then some value else lookupEntry key rest

structure Table (α : Type) where
  entries : List (String × α)
  increasing : entries.Pairwise fun a b => a.1 < b.1

namespace Table

def empty : Table α := ⟨[], .nil⟩

instance : Inhabited (Table α) := ⟨empty⟩

def get? (table : Table α) (key : String) : Option α := lookupEntry key table.entries

def contains (table : Table α) (key : String) : Bool := (table.get? key).isSome

/-- The table with a value set for a key, whatever the key had before. -/
def insert (table : Table α) (key : String) (value : α) : Table α :=
  ⟨insertEntry key value table.entries, pairwise_insert_entry table.increasing⟩

def modify (table : Table α) (key : String) (change : α → α) : Table α :=
  match table.get? key with
  | some value => table.insert key (change value)
  | none => table

def size (table : Table α) : Nat := table.entries.length

def isEmpty (table : Table α) : Bool := table.entries.isEmpty

def keys (table : Table α) : List String := table.entries.map Prod.fst

def values (table : Table α) : List α := table.entries.map Prod.snd

def mapValues (table : Table α) (change : String → α → β) : Table β :=
  ⟨table.entries.map fun entry => (entry.1, change entry.1 entry.2),
    List.pairwise_map.2 table.increasing⟩

/-- The table of a list of entries; of two with the same key the later one counts. -/
def ofList (entries : List (String × α)) : Table α :=
  entries.foldl (fun table entry => table.insert entry.1 entry.2) empty

@[simp] theorem get_empty (key : String) : (empty : Table α).get? key = none := rfl

theorem get_insert (table : Table α) (key other : String) (value : α) :
    (table.insert key value).get? other = if other = key then some value else table.get? other := by
  show lookupEntry other (insertEntry key value table.entries) =
    if other = key then some value else lookupEntry other table.entries
  induction table.entries with
  | nil => simp [insertEntry, lookupEntry]
  | cons head rest ih =>
      obtain ⟨name, kept⟩ := head
      unfold insertEntry
      split
      · simp [lookupEntry]
      · split
        · rename_i same
          subst same
          by_cases equal : other = key <;> simp [lookupEntry, equal]
        · rename_i distinct
          by_cases equal : other = key
          · subst equal
            simp [lookupEntry, distinct, ih]
          · simp [lookupEntry, equal, ih]

theorem get_modify (table : Table α) (key other : String) (change : α → α) :
    (table.modify key change).get? other =
      if other = key then (table.get? key).map change else table.get? other := by
  unfold modify
  split
  · rename_i value found
    rw [get_insert, found]
    rfl
  · rename_i absent
    split
    · rename_i same
      rw [same, absent]
      rfl
    · rfl

theorem lookup_entry_eq_none {key : String} {entries : List (String × α)}
    (below : ∀ entry ∈ entries, key < entry.1) : lookupEntry key entries = none := by
  induction entries with
  | nil => rfl
  | cons head rest ih =>
      obtain ⟨name, kept⟩ := head
      have distinct : key ≠ name := fun h =>
        String.lt_irrefl key (h ▸ below (name, kept) List.mem_cons_self)
      rw [lookupEntry, if_neg distinct]
      exact ih fun entry member => below entry (List.mem_cons_of_mem _ member)

/-- A key that is found does not come before the first key. -/
theorem not_lt_of_lookup_entry {key : String} {value : α} {head : String × α}
    {rest : List (String × α)} (increasing : (head :: rest).Pairwise fun a b => a.1 < b.1)
    (found : lookupEntry key (head :: rest) = some value) : ¬ key < head.1 := by
  intro below
  have absent : lookupEntry key (head :: rest) = none := by
    refine lookup_entry_eq_none fun entry member => ?_
    rcases List.mem_cons.1 member with rfl | later
    · exact below
    · exact String.lt_trans below (List.rel_of_pairwise_cons increasing later)
  rw [absent] at found
  cases found

theorem entries_eq_of_lookup {first second : List (String × α)}
    (firstIncreasing : first.Pairwise fun a b => a.1 < b.1)
    (secondIncreasing : second.Pairwise fun a b => a.1 < b.1)
    (same : ∀ key, lookupEntry key first = lookupEntry key second) : first = second := by
  induction first generalizing second with
  | nil =>
      cases second with
      | nil => rfl
      | cons head rest =>
          have found := same head.1
          simp [lookupEntry] at found
  | cons head rest ih =>
      obtain ⟨name, value⟩ := head
      cases second with
      | nil =>
          have found := same name
          simp [lookupEntry] at found
      | cons other tail =>
          obtain ⟨label, kept⟩ := other
          have here : lookupEntry name ((name, value) :: rest) = some value := if_pos rfl
          have there : lookupEntry label ((label, kept) :: tail) = some kept := if_pos rfl
          have notBelow := not_lt_of_lookup_entry secondIncreasing ((same name).symm.trans here)
          have notAbove := not_lt_of_lookup_entry firstIncreasing ((same label).trans there)
          obtain rfl : name = label := Classical.byContradiction fun distinct =>
            notAbove (lt_of_not_lt_of_ne notBelow distinct)
          obtain rfl := Option.some.inj (here.symm.trans ((same name).trans there))
          rw [List.pairwise_cons] at firstIncreasing secondIncreasing
          congr 1
          refine ih firstIncreasing.2 secondIncreasing.2 fun key => ?_
          by_cases own : key = name
          · subst own
            rw [lookup_entry_eq_none firstIncreasing.1, lookup_entry_eq_none secondIncreasing.1]
          · simpa [lookupEntry, own] using same key

theorem contains_iff_mem_keys {table : Table α} {key : String} :
    table.contains key = true ↔ key ∈ table.keys := by
  show (lookupEntry key table.entries).isSome = true ↔ key ∈ table.entries.map Prod.fst
  induction table.entries with
  | nil => simp [lookupEntry]
  | cons head rest ih =>
      obtain ⟨name, value⟩ := head
      by_cases same : key = name <;> simp [lookupEntry, same, ih]

theorem get_map_values (table : Table α) (change : String → α → β) (key : String) :
    (table.mapValues change).get? key = (table.get? key).map (change key) := by
  show lookupEntry key (table.entries.map _) = (lookupEntry key table.entries).map (change key)
  induction table.entries with
  | nil => rfl
  | cons head rest ih =>
      obtain ⟨name, value⟩ := head
      rw [List.map_cons, lookupEntry, lookupEntry]
      split
      · rename_i same
        rw [same]
        rfl
      · exact ih

theorem mem_of_get {table : Table α} {key : String} {value : α}
    (found : table.get? key = some value) : (key, value) ∈ table.entries := by
  have within : ∀ entries : List (String × α), lookupEntry key entries = some value →
      (key, value) ∈ entries := by
    intro entries
    induction entries with
    | nil => simp [lookupEntry]
    | cons head rest ih =>
        obtain ⟨other, kept⟩ := head
        intro held
        unfold lookupEntry at held
        split at held
        · rename_i same
          obtain rfl := Option.some.inj held
          exact same ▸ List.mem_cons_self
        · exact List.mem_cons_of_mem _ (ih held)
  exact within table.entries found

theorem get_of_mem {table : Table α} {entry : String × α} (member : entry ∈ table.entries) :
    table.get? entry.1 = some entry.2 := by
  have within : ∀ entries : List (String × α), (entries.Pairwise fun a b => a.1 < b.1) →
      entry ∈ entries → lookupEntry entry.1 entries = some entry.2 := by
    intro entries
    induction entries with
    | nil => simp
    | cons head rest ih =>
        intro increasing held
        rw [List.pairwise_cons] at increasing
        rcases List.mem_cons.1 held with rfl | later
        · exact if_pos rfl
        · have distinct : entry.1 ≠ head.1 := fun same =>
            String.lt_irrefl entry.1 (by simpa [same] using increasing.1 entry later)
          exact (if_neg distinct).trans (ih increasing.2 later)
  exact within table.entries table.increasing member

theorem mem_values_iff {table : Table α} {value : α} :
    value ∈ table.values ↔ ∃ key, table.get? key = some value := by
  constructor
  · intro member
    obtain ⟨entry, held, rfl⟩ := List.mem_map.1 member
    exact ⟨entry.1, get_of_mem held⟩
  · rintro ⟨key, found⟩
    exact List.mem_map_of_mem (mem_of_get found)

/-- What a table of a list holds comes from the list. -/
theorem mem_of_mem_of_list {entries : List (String × α)} {entry : String × α}
    (member : entry ∈ (ofList entries).entries) : entry ∈ entries := by
  have within : ∀ (entries : List (String × α)) (table : Table α),
      entry ∈ (entries.foldl (fun table entry => table.insert entry.1 entry.2) table).entries →
        entry ∈ table.entries ∨ entry ∈ entries := by
    intro entries
    induction entries with
    | nil => exact fun _ held => .inl held
    | cons head rest ih =>
        intro table held
        rcases ih _ held with earlier | later
        · rcases mem_insert_entry earlier with rfl | older
          · exact .inr List.mem_cons_self
          · exact .inl older
        · exact .inr (List.mem_cons_of_mem _ later)
  rcases within entries .empty member with nothing | listed
  · cases nothing
  · exact listed

theorem mem_keys_of_list {entries : List (String × α)} {key : String} :
    key ∈ (ofList entries).keys ↔ key ∈ entries.map Prod.fst := by
  have within : ∀ (entries : List (String × α)) (table : Table α),
      (entries.foldl (fun table entry => table.insert entry.1 entry.2) table).contains key = true ↔
        table.contains key = true ∨ key ∈ entries.map Prod.fst := by
    intro entries
    induction entries with
    | nil => simp
    | cons head rest ih =>
        intro table
        rw [List.foldl_cons, ih, contains, get_insert]
        by_cases same : key = head.1 <;> simp [same, contains]
  rw [← contains_iff_mem_keys]
  exact (within entries .empty).trans (by simp [contains])

theorem ext_get {first second : Table α} (same : ∀ key, first.get? key = second.get? key) :
    first = second := by
  obtain ⟨a, firstIncreasing⟩ := first
  obtain ⟨b, secondIncreasing⟩ := second
  have equal : a = b := entries_eq_of_lookup firstIncreasing secondIncreasing same
  subst equal
  rfl

@[simp] theorem of_list_entries (table : Table α) : ofList table.entries = table := by
  have within : ∀ (entries : List (String × α)) (table : Table α) (key : String),
      (entries.Pairwise fun a b => a.1 < b.1) →
        (entries.foldl (fun table entry => table.insert entry.1 entry.2) table).get? key =
          (lookupEntry key entries).or (table.get? key) := by
    intro entries
    induction entries with
    | nil => exact fun _ _ _ => rfl
    | cons head rest ih =>
        intro table key increasing
        rw [List.pairwise_cons] at increasing
        rw [List.foldl_cons, ih _ key increasing.2, get_insert, lookupEntry]
        split
        · rename_i same
          rw [same, lookup_entry_eq_none increasing.1]
          rfl
        · rfl
  refine ext_get fun key => ?_
  exact (within table.entries .empty key table.increasing).trans Option.or_none

theorem insert_comm (table : Table α) {first second : String} (distinct : first ≠ second)
    (one other : α) : (table.insert first one).insert second other =
      (table.insert second other).insert first one := by
  refine ext_get fun key => ?_
  simp only [get_insert]
  by_cases isFirst : key = first
  · subst isFirst
    simp [distinct]
  · simp [isFirst]

end Table

end EndpointAtlas
