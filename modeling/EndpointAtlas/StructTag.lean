import EndpointAtlas.Text.Split

/-!
Struct tags: entries of a key, a colon and a quoted value, between white space.
-/

namespace EndpointAtlas.StructTag

open Text

/-- The text up to the first quote that no backslash escapes, and the text after it. -/
def closeQuote (escaped : Bool) : List Char → Option (List Char × List Char)
  | [] => none
  | c :: rest =>
      if c = '"' && !escaped then some ([], rest)
      else
        (closeQuote (c == '\\' && !escaped) rest).map fun (value, after) => (c :: value, after)

/-- The key and the raw value of the entry at the start of a tag, and what follows the entry. -/
def entry? (tag : List Char) : Option (List Char × List Char × List Char) :=
  match cutFirst (· == ':') tag with
  | some (key, '"' :: rest) => (closeQuote false rest).map fun (value, after) => (key, value, after)
  | _ => none

theorem length_close_quote {escaped : Bool} {text value after : List Char}
    (closed : closeQuote escaped text = some (value, after)) : after.length < text.length := by
  induction text generalizing escaped value with
  | nil => simp [closeQuote] at closed
  | cons c rest ih =>
      unfold closeQuote at closed
      split at closed
      · simp only [Option.some.injEq, Prod.mk.injEq] at closed
        simp [← closed.2]
      · obtain ⟨⟨inner, tail⟩, step, equal⟩ := Option.map_eq_some_iff.1 closed
        simp only [Prod.mk.injEq] at equal
        obtain ⟨-, rfl⟩ := equal
        have := ih step
        simp only [List.length_cons]
        omega

theorem length_entry {tag key value after : List Char}
    (found : entry? tag = some (key, value, after)) : after.length + 3 ≤ tag.length := by
  unfold entry? at found
  split at found
  · rename_i before rest cut
    obtain ⟨mark, -, rfl, -⟩ := cut_first_eq_some cut
    obtain ⟨⟨inner, tail⟩, closed, equal⟩ := Option.map_eq_some_iff.1 found
    simp only [Prod.mk.injEq] at equal
    obtain ⟨-, -, rfl⟩ := equal
    have := length_close_quote closed
    simp only [List.length_append, List.length_cons]
    omega
  · simp at found

/-- The raw value of the first entry with a key. A malformed entry ends the search. -/
def lookupFrom (key tag : List Char) : Option (List Char) :=
  match _found : entry? tag with
  | none => none
  | some (name, value, after) =>
      if name = key then some value else lookupFrom key (trimStart after)
termination_by tag.length
decreasing_by
  have := length_entry _found
  have := length_trim_start_le after
  omega

def lookup (tag key : String) : Option String :=
  (lookupFrom key.toList (trimStart tag.toList)).map String.ofList

end EndpointAtlas.StructTag
