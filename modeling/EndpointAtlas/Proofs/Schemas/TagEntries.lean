import Mathlib.Data.List.Basic
import EndpointAtlas.Proofs.Text.Trimming
import EndpointAtlas.StructTag

/-!
Entries of struct tags. From a tag rows are read, each a key and a value, until the text at hand
starts with no entry, and a look-up gives the value of the first row with its key. Entries that are
written one after the other are read as their own rows, whatever follows them.
-/

namespace EndpointAtlas.StructTag

open Text

/-- A part of a raw value: a character that stands for itself, or a backslash and any character. -/
inductive ValuePart where
  | plain (c : Char) (bare : c ≠ '"' ∧ c ≠ '\\')
  | escape (c : Char)

def ValuePart.text : ValuePart → List Char
  | plain c _ => [c]
  | escape c => ['\\', c]

structure Entry where
  gap : Blanks
  key : String
  parts : List ValuePart
  clean : ∀ c ∈ key.toList, isBlank c = false ∧ c ≠ '"' ∧ c ≠ ':'

namespace Entry

def value (entry : Entry) : String := String.ofList (entry.parts.flatMap ValuePart.text)

def row (entry : Entry) : List Char × List Char := (entry.key.toList, entry.value.toList)

def text (entry : Entry) : List Char :=
  entry.gap.text ++ entry.key.toList ++ ':' :: '"' :: (entry.value.toList ++ ['"'])

end Entry

def write (entries : List Entry) (last : Blanks) : String :=
  String.ofList (entries.flatMap Entry.text ++ last.text)

/-- Whether these rows are read from a tag, one after the other, until no entry stands where the
next one is looked for. -/
inductive Reads : List Char → List (List Char × List Char) → Prop where
  | stops {tag : List Char} (none : entry? (trimStart tag) = none) : Reads tag []
  | next {tag key value after : List Char} {rows : List (List Char × List Char)}
      (found : entry? (trimStart tag) = some (key, value, after)) (rest : Reads after rows) :
      Reads tag ((key, value) :: rows)

section

variable {tag : List Char} {rows others : List (List Char × List Char)}

/-- The search ends on every text: each entry takes three characters at least. -/
theorem exists_reads (tag : List Char) : ∃ rows, Reads tag rows := by
  induction size : tag.length using Nat.strong_induction_on generalizing tag with
  | _ n ih =>
      cases found : entry? (trimStart tag) with
      | none => exact ⟨[], .stops found⟩
      | some entry =>
          obtain ⟨key, value, after⟩ := entry
          have shorter := length_entry found
          have trimmed := length_trim_start_le tag
          obtain ⟨rows, reads⟩ := ih after.length (by omega) after rfl
          exact ⟨(key, value) :: rows, .next found reads⟩

theorem Reads.unique (reads : Reads tag rows) (alike : Reads tag others) : rows = others := by
  induction reads generalizing others with
  | stops none =>
      cases alike with
      | stops => rfl
      | next found => rw [none] at found; cases found
  | next found _ ih =>
      cases alike with
      | stops none => rw [none] at found; cases found
      | next again rest =>
          rw [found] at again
          cases again
          rw [ih rest]

theorem Reads.length_le (reads : Reads tag rows) : 3 * rows.length ≤ tag.length := by
  induction reads with
  | stops => exact Nat.zero_le _
  | @next tag _ _ _ _ found _ ih =>
      have shorter := length_entry found
      have trimmed := length_trim_start_le tag
      rw [List.length_cons]
      omega

theorem lookup_from_step (key tag : List Char) : lookupFrom key tag =
    match entry? tag with
    | none => none
    | some (name, value, after) =>
        if name = key then some value else lookupFrom key (trimStart after) := by
  rw [lookupFrom]
  split
  · rename_i none
    rw [none]
  · rename_i found
    rw [found]

theorem Reads.lookup_from_eq (reads : Reads tag rows) (key : List Char) :
    lookupFrom key (trimStart tag) = (rows.find? (·.1 = key)).map Prod.snd := by
  induction reads with
  | stops none =>
      rw [lookup_from_step, none]
      rfl
  | next entry _ ih =>
      rw [lookup_from_step, entry, List.find?_cons]
      dsimp only
      split
      · rename_i same
        rw [decide_eq_true same]
        rfl
      · rename_i other
        rw [decide_eq_false other, ih]

theorem Reads.blank_append (reads : Reads tag rows) (blanks : Blanks) :
    Reads (blanks.text ++ tag) rows := by
  have same : trimStart (blanks.text ++ tag) = trimStart tag :=
    List.dropWhile_append_of_pos blanks.blank
  cases reads with
  | stops none => exact .stops (same ▸ none)
  | next found rest => exact .next (same ▸ found) rest

theorem Reads.lookup_eq {tag : String} (reads : Reads tag.toList rows) (key : String) :
    lookup tag key = (rows.find? (·.1 = key.toList)).map (String.ofList ·.2) := by
  rw [lookup, reads.lookup_from_eq, Option.map_map]
  rfl

end

/-- A quote that is escaped does not end a value. -/
theorem close_quote_value (parts : List ValuePart) (after : List Char) :
    closeQuote false (parts.flatMap ValuePart.text ++ '"' :: after) =
      some (parts.flatMap ValuePart.text, after) := by
  induction parts with
  | nil => simp [closeQuote]
  | cons part rest ih =>
      cases part with
      | plain c bare =>
          have noEscape : (c == '\\' && !false) = false := by simp [bare.2]
          rw [List.flatMap_cons, ValuePart.text, List.singleton_append, List.cons_append,
            closeQuote, if_neg (by simp [bare.1]), noEscape, ih]
          rfl
      | escape c => simp [ValuePart.text, closeQuote, ih]

theorem entry_text (entry : Entry) (after : List Char) :
    entry? (trimStart (entry.text ++ after)) =
      some (entry.key.toList, entry.value.toList, after) := by
  have split : entry.text ++ after = entry.gap.text ++
      (entry.key.toList ++ ':' :: '"' :: (entry.parts.flatMap ValuePart.text ++ '"' :: after)) := by
    simp [Entry.text, Entry.value]
  have start (rest : List Char) : startsBlank (entry.key.toList ++ ':' :: rest) = false := by
    cases key : entry.key.toList with
    | nil => rfl
    | cons c more => exact (entry.clean c (key ▸ List.mem_cons_self)).1
  have key : ':' ∉ entry.key.toList := fun member => (entry.clean ':' member).2.2 rfl
  rw [split, trimStart, List.dropWhile_append_of_pos entry.gap.blank]
  change entry? (trimStart _) = _
  rw [trim_start_eq_self (start _), entry?, cut_first_mark_eq_some_iff.2 ⟨rfl, key⟩]
  change (closeQuote false _).map _ = _
  rw [close_quote_value, Entry.value, String.toList_ofList]
  rfl

theorem Reads.append {after : List Char} {rows : List (List Char × List Char)}
    (reads : Reads after rows) (entries : List Entry) :
    Reads (entries.flatMap Entry.text ++ after) (entries.map Entry.row ++ rows) := by
  induction entries with
  | nil => exact reads
  | cons entry rest ih =>
      rw [List.flatMap_cons, List.append_assoc]
      exact .next (entry_text entry _) ih

/-- The value of the first of the entries with a key goes before what follows them. -/
theorem lookup_write_append (entries : List Entry) (last : Blanks) (tail key : String) :
    lookup (write entries last ++ tail) key =
      ((entries.find? (·.key = key)).map Entry.value).or (lookup tail key) := by
  obtain ⟨rows, reads⟩ := exists_reads tail.toList
  have whole : Reads (write entries last ++ tail).toList (entries.map Entry.row ++ rows) := by
    rw [write, String.toList_append, String.toList_ofList, List.append_assoc]
    exact (reads.blank_append last).append entries
  have named : (fun entry : Entry => decide (entry.row.1 = key.toList)) =
      fun entry => decide (entry.key = key) := by
    funext entry
    exact decide_eq_decide.2 String.toList_inj
  have valued : (fun row => String.ofList row.2) ∘ Entry.row = Entry.value := by
    funext entry
    exact String.ofList_toList
  rw [whole.lookup_eq, reads.lookup_eq, List.find?_append, Option.map_or, List.find?_map,
    Option.map_map, valued]
  exact congrArg (fun test => Option.or ((entries.find? test).map Entry.value) _) named

/-- Entries are looked up by their keys, the first one first, and what follows an entry with the key
does not matter. On every text the search ends: what rows are read is determined, and there is at
most one for every three characters. -/
theorem lookup_of_entries (key : String) :
    (∀ entries last, lookup (write entries last) key =
        (entries.find? (·.key = key)).map Entry.value) ∧
      (∀ entries last tail, key ∈ entries.map Entry.key →
        lookup (write entries last ++ tail) key = lookup (write entries last) key) ∧
      ∀ tag : String, (∃! rows, Reads tag.toList rows) ∧ ∀ rows, Reads tag.toList rows →
        3 * rows.length ≤ tag.length ∧
          lookup tag key = (rows.find? (·.1 = key.toList)).map (String.ofList ·.2) := by
  have alone (entries : List Entry) (last : Blanks) : lookup (write entries last) key =
      (entries.find? (·.key = key)).map Entry.value := by
    have empty : lookup "" key = none := by
      have reads : Reads "".toList [] := .stops rfl
      exact reads.lookup_eq key
    have law := lookup_write_append entries last "" key
    rwa [String.append_empty, empty, Option.or_none] at law
  refine ⟨alone, fun entries last tail member => ?_, fun tag => ⟨?_, fun rows reads => ?_⟩⟩
  · obtain ⟨entry, among, named⟩ := List.mem_map.1 member
    have some : (entries.find? (·.key = key)).isSome = true := by
      rw [List.find?_isSome]
      exact ⟨entry, among, decide_eq_true named⟩
    obtain ⟨first, found⟩ := Option.isSome_iff_exists.1 some
    rw [lookup_write_append, alone, found]
    rfl
  · obtain ⟨rows, reads⟩ := exists_reads tag.toList
    exact ⟨rows, reads, fun _ alike => alike.unique reads⟩
  · rw [← String.length_toList]
    exact ⟨reads.length_le, reads.lookup_eq key⟩

def escapedEntries : List Entry := [
  ⟨⟨['\t', ' '], by simp [isBlank]⟩, "json", [.plain ':' (by decide), .escape '"'],
    by simp [isBlank]⟩,
  ⟨.none, "é", [.escape '\\', .plain 'x' (by decide)], by simp [isBlank]⟩,
  ⟨⟨['\n'], by simp [isBlank]⟩, "json", [], by simp [isBlank]⟩]

theorem lookup_escaped_entries :
    write escapedEntries .none = "\t json:\":\\\"\"é:\"\\\\x\"\njson:\"\"" ∧
      "é" ∈ escapedEntries.map Entry.key ∧
        lookup (write escapedEntries .none ++ ":\"\\") "é" = some "\\\\x" := by
  have member : "é" ∈ escapedEntries.map Entry.key := by decide
  refine ⟨by decide +kernel, member, ?_⟩
  rw [(lookup_of_entries "é").2.1 escapedEntries .none ":\"\\" member,
    (lookup_of_entries "é").1 escapedEntries .none]
  decide +kernel

end EndpointAtlas.StructTag
