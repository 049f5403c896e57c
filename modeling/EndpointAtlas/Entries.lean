/-!
Lists of entries in strictly increasing order of their keys. An entry is put at its place in the
order, in the stead of an entry with the same key.
-/

namespace EndpointAtlas

variable {κ α : Type} [LT κ] [DecidableLT κ] [DecidableEq κ]

/-- Entries with the given one put at its place, in the stead of an entry with the same key. -/
def insertEntry (key : κ) (value : α) : List (κ × α) → List (κ × α)
  | [] => [(key, value)]
  | (other, kept) :: rest =>
      if key < other then (key, value) :: (other, kept) :: rest
      else if key = other then (key, value) :: rest
      else (other, kept) :: insertEntry key value rest

theorem mem_insert_entry {key : κ} {value : α} {entries : List (κ × α)}
    {entry : κ × α} (member : entry ∈ insertEntry key value entries) :
    entry = (key, value) ∨ entry ∈ entries := by
  induction entries with
  | nil => simpa [insertEntry] using member
  | cons head rest ih =>
      obtain ⟨other, kept⟩ := head
      unfold insertEntry at member
      split at member
      · simpa using member
      · split at member
        · rcases List.mem_cons.1 member with h | h
          · exact .inl h
          · exact .inr (List.mem_cons_of_mem _ h)
        · rcases List.mem_cons.1 member with h | h
          · exact .inr (h ▸ List.mem_cons_self)
          · rcases ih h with h | h
            · exact .inl h
            · exact .inr (List.mem_cons_of_mem _ h)

variable [transitive : Trans (α := κ) (β := κ) (γ := κ) (· < ·) (· < ·) (· < ·)]
  [Std.Trichotomous (α := κ) (· < ·)]

omit [DecidableLT κ] [DecidableEq κ] transitive in
theorem lt_of_not_lt_of_ne {a b : κ} (notBelow : ¬ a < b) (distinct : a ≠ b) : b < a := by
  rcases Std.lt_trichotomy a b with h | h | h
  · exact absurd h notBelow
  · exact absurd h distinct
  · exact h

theorem pairwise_insert_entry {key : κ} {value : α} {entries : List (κ × α)}
    (increasing : entries.Pairwise fun a b => a.1 < b.1) :
    (insertEntry key value entries).Pairwise fun a b => a.1 < b.1 := by
  induction entries with
  | nil => simp [insertEntry]
  | cons head rest ih =>
      obtain ⟨other, kept⟩ := head
      rw [List.pairwise_cons] at increasing
      unfold insertEntry
      split
      · rename_i below
        refine List.pairwise_cons.2 ⟨fun entry member => ?_, List.pairwise_cons.2 increasing⟩
        rcases List.mem_cons.1 member with rfl | h
        · exact below
        · exact transitive.trans below (increasing.1 entry h)
      · split
        · rename_i equal
          subst equal
          exact List.pairwise_cons.2 increasing
        · rename_i notBelow distinct
          refine List.pairwise_cons.2 ⟨fun entry member => ?_, ih increasing.2⟩
          rcases mem_insert_entry member with rfl | h
          · exact lt_of_not_lt_of_ne notBelow distinct
          · exact increasing.1 entry h

end EndpointAtlas
