import EndpointAtlas.Annotations
import EndpointAtlas.Proofs.Text.Words

/-!
The fields of a text. Without a limit, or below it, they are the words of the text. Otherwise the
last of them is the text as it stands from one of its words to the end of the last word, so that no
more than white space is lost.
-/

namespace EndpointAtlas

open Text

def Text.Layout.fields (limit : Nat) (layout : Layout) : List (List Char) :=
  if limit = 0 ∨ layout.words.length < limit then layout.words.map Word.text
  else
    (layout.words.take (limit - 1)).map Word.text ++ [span (layout.words.drop (limit - 1))]

section

variable {words : List Word} {word : Word} {limit taken : Nat}

/-- One field is read from the start of a word, and what is left starts with the next word. -/
theorem fields_after_span_cons (apart : ∀ word ∈ words, word.gap.text ≠ []) :
    fieldsAfter limit taken (span (word :: words)) =
      if taken + 1 = limit then [span (word :: words)]
      else word.text :: fieldsAfter limit (taken + 1) (span words) := by
  rw [fieldsAfter, dif_neg span_ne_nil, take_while_span apart, afterField, drop_while_span apart,
    trim_start_flat_map_spaced]

theorem fields_after_span_of_room (apart : ∀ word ∈ words.tail, word.gap.text ≠ [])
    (room : limit ≤ taken ∨ taken + words.length < limit) :
    fieldsAfter limit taken (span words) = words.map Word.text := by
  induction words generalizing taken with
  | nil =>
      rw [fieldsAfter]
      rfl
  | cons word rest ih =>
      rw [List.length_cons] at room
      have others : ∀ word ∈ rest, word.gap.text ≠ [] := apart
      rw [fields_after_span_cons others, if_neg (by omega), List.map_cons,
        ih (fun word member => others word (List.mem_of_mem_tail member)) (by omega)]

theorem fields_after_span_of_full (apart : ∀ word ∈ words.tail, word.gap.text ≠ [])
    (below : taken < limit) (full : limit ≤ taken + words.length) :
    fieldsAfter limit taken (span words) =
      (words.take (limit - taken - 1)).map Word.text ++
        [span (words.drop (limit - taken - 1))] := by
  induction words generalizing taken with
  | nil =>
      rw [List.length_nil] at full
      omega
  | cons word rest ih =>
      rw [List.length_cons] at full
      have others : ∀ word ∈ rest, word.gap.text ≠ [] := apart
      rw [fields_after_span_cons others]
      split
      · have none : limit - taken - 1 = 0 := by omega
        rw [none]
        rfl
      · have later : limit - taken - 1 = limit - (taken + 1) - 1 + 1 := by omega
        rw [ih (fun word member => others word (List.mem_of_mem_tail member)) (by omega)
          (by omega), later]
        rfl

end

section

variable (layout : Layout) (limit : Nat)

/-- The fields are read off from the layout of a text. -/
theorem fields_layout : fields limit layout.text = layout.fields limit := by
  rw [fields, trim_layout, Layout.fields]
  split
  · rename_i room
    exact fields_after_span_of_room layout.apart (by omega)
  · rename_i full
    exact fields_after_span_of_full layout.apart (by omega) (by omega)

theorem Text.Layout.length_fields_le (limited : 1 ≤ limit) :
    (layout.fields limit).length ≤ limit := by
  unfold fields
  split
  · rw [List.length_map]
    omega
  · rw [List.length_append, List.length_map, List.length_take, List.length_singleton]
    omega

theorem Text.Layout.trimmed_of_mem_fields {field : List Char}
    (member : field ∈ layout.fields limit) : field ≠ [] ∧ trim field = field := by
  unfold fields at member
  split at member
  · obtain ⟨word, -, rfl⟩ := List.mem_map.1 member
    exact ⟨word.nonempty, word.trim_text⟩
  · rename_i full
    rcases List.mem_append.1 member with early | isLast
    · obtain ⟨word, -, rfl⟩ := List.mem_map.1 early
      exact ⟨word.nonempty, word.trim_text⟩
    · obtain rfl := List.mem_singleton.1 isLast
      have below : limit - 1 < layout.words.length := by omega
      refine ⟨?_, trim_span⟩
      rw [List.drop_eq_getElem_cons below]
      exact span_ne_nil

/-- The fields show all that the text shows. -/
theorem Text.Layout.filter_fields : (layout.fields limit).flatten.filter (!isBlank ·) =
    layout.text.filter (!isBlank ·) := by
  have own (words : List Word) : (words.map Word.text).flatten.filter (!isBlank ·) =
      words.flatMap Word.text := by
    rw [← List.flatMap_def, List.filter_flatMap]
    refine List.flatMap_congr fun word _ => ?_
    exact List.filter_eq_self.2 fun c member => by simp [word.visible c member]
  rw [filter_layout, fields]
  split
  · exact own layout.words
  · rw [List.flatten_append, List.filter_append, own, List.flatten_singleton, filter_span,
      ← List.flatMap_append, List.take_append_drop]

end

/-- A text has one layout, and its fields are those of the layout: the words if the limit is zero or
above their number, and otherwise as many of them as stand before the last field, which is the text
as it stands from the next word to the end of the last. -/
theorem fields_of_layout (text : List Char) (limit : Nat) :
    (∃! layout : Layout, layout.text = text) ∧
      (∀ layout : Layout, layout.text = text → words text = layout.words.map Word.text ∧
        fields limit text = layout.fields limit ∧
          ∀ n (below : n < layout.words.length), text =
            (layout.words.take n).flatMap Word.spaced ++ layout.words[n].gap.text ++
              span (layout.words.drop n) ++ layout.last.text) ∧
      (1 ≤ limit → (fields limit text).length ≤ limit) ∧
      (∀ field ∈ fields limit text, field ≠ [] ∧ trim field = field) ∧
      (fields limit text).flatten.filter (!isBlank ·) = text.filter (!isBlank ·) := by
  obtain ⟨layout, rfl⟩ := exists_layout text
  refine ⟨exists_unique_layout _, fun other laid => ?_, ?_⟩
  · rw [← laid]
    exact ⟨words_layout other, fields_layout other limit, fun _ => text_eq_append_span other⟩
  · rw [fields_layout]
    exact ⟨layout.length_fields_le limit, fun _ => layout.trimmed_of_mem_fields limit,
      layout.filter_fields limit⟩

def noteLayout : Layout where
  words := [
    ⟨⟨['\u00A0'], by simp [isBlank]⟩, ['i', 'd'], by decide, by simp [isBlank]⟩,
    ⟨⟨[' ', ' '], by simp [isBlank]⟩, ['H'], by decide, by simp [isBlank]⟩,
    ⟨⟨['\t'], by simp [isBlank]⟩, ['X'], by decide, by simp [isBlank]⟩,
    ⟨⟨['\u3000', '\n'], by simp [isBlank]⟩, ['é', '-'], by decide, by simp [isBlank]⟩]
  last := ⟨[' '], by simp [isBlank]⟩
  apart := by decide

/-- The last of three fields has white space of the text in it. -/
theorem fields_note_layout : noteLayout.text = "\u00A0id  H\tX\u3000\né- ".toList ∧ 1 ≤ 3 ∧
    (fields 3 noteLayout.text).map String.ofList = ["id", "H", "X\u3000\né-"] ∧
      (fields 3 noteLayout.text).length ≤ 3 := by
  have general := fields_of_layout noteLayout.text 3
  refine ⟨by decide +kernel, by decide, ?_, general.2.2.1 (by decide)⟩
  rw [(general.2.1 noteLayout rfl).2.1]
  decide +kernel

end EndpointAtlas
