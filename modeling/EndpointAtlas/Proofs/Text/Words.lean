import Mathlib.Data.List.Basic
import Mathlib.Data.List.TakeWhile
import EndpointAtlas.Proofs.Text.Trimming

/-!
The layout of a text. A text is its words, which are the maximal runs without white space, with the
white space before each of them and after the last. Every text has exactly one layout.
-/

namespace EndpointAtlas.Text

/-- A run without white space, and the white space before it. -/
@[ext] structure Word where
  gap : Blanks
  text : List Char
  nonempty : text ≠ []
  visible : ∀ c ∈ text, isBlank c = false

def Word.spaced (word : Word) : List Char := word.gap.text ++ word.text

def Word.single (c : Char) (visible : isBlank c = false) : Word :=
  ⟨.none, [c], List.cons_ne_nil _ _, List.forall_mem_singleton.2 visible⟩

/-- Words and the white space after them. There is white space between any two words, so that no run
is cut. -/
@[ext] structure Layout where
  words : List Word
  last : Blanks
  apart : ∀ word ∈ words.tail, word.gap.text ≠ []

def Layout.text (layout : Layout) : List Char :=
  layout.words.flatMap Word.spaced ++ layout.last.text

/-- The text from the start of the first of some words to the end of the last. -/
def span : List Word → List Char
  | [] => []
  | word :: rest => word.text ++ rest.flatMap Word.spaced

theorem exists_layout (text : List Char) : ∃ layout : Layout, layout.text = text := by
  induction text with
  | nil => exact ⟨⟨[], .none, by simp⟩, rfl⟩
  | cons c rest ih =>
      obtain ⟨⟨words, last, apart⟩, rfl⟩ := ih
      cases kind : isBlank c with
      | true =>
          cases words with
          | nil => exact ⟨⟨[], last.cons c kind, apart⟩, rfl⟩
          | cons word more =>
              exact ⟨⟨{ word with gap := word.gap.cons c kind } :: more, last, apart⟩, rfl⟩
      | false =>
          cases words with
          | nil => exact ⟨⟨[.single c kind], last, by simp⟩, rfl⟩
          | cons word more =>
              by_cases joined : word.gap.text = []
              · -- The character stands directly before the first word and belongs to it.
                refine ⟨⟨⟨.none, c :: word.text, List.cons_ne_nil _ _,
                  List.forall_mem_cons.2 ⟨kind, word.visible⟩⟩ :: more, last, apart⟩, ?_⟩
                simp [Layout.text, Word.spaced, joined, Blanks.none]
              · exact ⟨⟨.single c kind :: word :: more, last,
                  List.forall_mem_cons.2 ⟨joined, apart⟩⟩, rfl⟩

section

variable {α : Type} {p : α → Bool} {front back : List α}

/-- A list is cut in one way where the elements that satisfy a test end. -/
theorem append_inj_of_head {first second rest more : List α} (all : ∀ x ∈ first, p x = true)
    (allToo : ∀ x ∈ second, p x = true) (stops : ∀ x, rest.head? = some x → p x = false)
    (stopsToo : ∀ x, more.head? = some x → p x = false)
    (same : first ++ rest = second ++ more) : first = second ∧ rest = more := by
  constructor
  · rw [← take_while_append_of_head all stops, same, take_while_append_of_head allToo stopsToo]
  · rw [← drop_while_append_of_head all stops, same, drop_while_append_of_head allToo stopsToo]

end

section

variable {words others : List Word} {last ending : Blanks}

theorem is_blank_of_head (apart : ∀ word ∈ words, word.gap.text ≠ []) {c : Char}
    (head : (words.flatMap Word.spaced ++ last.text).head? = some c) : isBlank c = true := by
  cases words with
  | nil => exact last.blank c (List.mem_of_head? head)
  | cons word rest =>
      obtain ⟨first, more, gap⟩ := List.exists_cons_of_ne_nil (apart word List.mem_cons_self)
      have blank := word.gap.blank first (gap ▸ List.mem_cons_self)
      simp only [List.flatMap_cons, Word.spaced, gap, List.cons_append, List.head?_cons,
        Option.some.injEq] at head
      exact head ▸ blank

theorem Word.is_blank_of_head (word : Word) {rest : List Char} {c : Char}
    (head : (word.text ++ rest).head? = some c) : isBlank c = false := by
  obtain ⟨first, more, split⟩ := List.exists_cons_of_ne_nil word.nonempty
  have visible := word.visible first (split ▸ List.mem_cons_self)
  simp only [split, List.cons_append, List.head?_cons, Option.some.injEq] at head
  exact head ▸ visible

theorem blanks_ne_spaced (word : Word) (rest : List Char) :
    last.text ≠ word.spaced ++ rest := by
  intro same
  obtain ⟨c, more, split⟩ := List.exists_cons_of_ne_nil word.nonempty
  have visible := word.visible c (split ▸ List.mem_cons_self)
  have blank := last.blank c (by simp [same, Word.spaced, split])
  rw [visible] at blank
  cases blank

theorem eq_of_flat_map_spaced_eq (apart : ∀ word ∈ words.tail, word.gap.text ≠ [])
    (apartToo : ∀ word ∈ others.tail, word.gap.text ≠ [])
    (same : words.flatMap Word.spaced ++ last.text = others.flatMap Word.spaced ++ ending.text) :
    words = others ∧ last = ending := by
  induction words generalizing others with
  | nil =>
      cases others with
      | nil => exact ⟨rfl, Blanks.ext same⟩
      | cons other more =>
          rw [List.flatMap_cons, List.append_assoc] at same
          exact absurd same (blanks_ne_spaced other _)
  | cons word rest ih =>
      cases others with
      | nil =>
          rw [List.flatMap_cons, List.append_assoc] at same
          exact absurd same.symm (blanks_ne_spaced word _)
      | cons other more =>
          simp only [List.flatMap_cons, Word.spaced, List.append_assoc] at same
          obtain ⟨gaps, same⟩ := append_inj_of_head word.gap.blank other.gap.blank
            (fun _ => word.is_blank_of_head) (fun _ => other.is_blank_of_head) same
          obtain ⟨texts, same⟩ := @append_inj_of_head _ (!isBlank ·) _ _ _ _
            (fun c member => by simp [word.visible c member])
            (fun c member => by simp [other.visible c member])
            (fun _ head => by simp [is_blank_of_head apart head])
            (fun _ head => by simp [is_blank_of_head apartToo head]) same
          obtain ⟨rfl, rfl⟩ := ih (fun w member => apart w (List.mem_of_mem_tail member))
            (fun w member => apartToo w (List.mem_of_mem_tail member)) same
          exact ⟨congrArg (· :: rest) (Word.ext (Blanks.ext gaps) texts), rfl⟩

end

section

variable {words : List Word} {word : Word}

theorem span_ne_nil : span (word :: words) ≠ [] :=
  List.append_ne_nil_of_left_ne_nil word.nonempty _

theorem take_while_span (apart : ∀ word ∈ words, word.gap.text ≠ []) :
    (span (word :: words)).takeWhile (!isBlank ·) = word.text := by
  apply take_while_append_of_head
  · intro c member
    simp [word.visible c member]
  · intro c head
    have blank := @is_blank_of_head words .none apart c (by simpa [Blanks.none] using head)
    simp [blank]

theorem drop_while_span (apart : ∀ word ∈ words, word.gap.text ≠ []) :
    (span (word :: words)).dropWhile (!isBlank ·) = words.flatMap Word.spaced := by
  apply drop_while_append_of_head
  · intro c member
    simp [word.visible c member]
  · intro c head
    have blank := @is_blank_of_head words .none apart c (by simpa [Blanks.none] using head)
    simp [blank]

theorem trim_start_flat_map_spaced : trimStart (words.flatMap Word.spaced) = span words := by
  cases words with
  | nil => rfl
  | cons word rest =>
      rw [List.flatMap_cons, Word.spaced, List.append_assoc]
      exact drop_while_append_of_head word.gap.blank fun _ => word.is_blank_of_head

theorem exists_append_text (word : Word) (rest : List Word) :
    ∃ (before : List Char) (ending : Word), span (word :: rest) = before ++ ending.text := by
  induction rest generalizing word with
  | nil => exact ⟨[], word, List.append_nil _⟩
  | cons next more ih =>
      obtain ⟨before, ending, split⟩ := ih next
      refine ⟨word.text ++ (next.gap.text ++ before), ending, ?_⟩
      have step : span (word :: next :: more) =
          word.text ++ (next.gap.text ++ span (next :: more)) := by
        simp [span, Word.spaced]
      rw [step, split]
      simp

theorem trim_end_span : trimEnd (span words) = span words := by
  cases words with
  | nil => rfl
  | cons word rest =>
      obtain ⟨before, ending, split⟩ := exists_append_text word rest
      rw [split, trim_end_append ending.nonempty ending.visible]

theorem trim_flat_map_spaced : trim (words.flatMap Word.spaced) = span words := by
  rw [trim, trim_start_flat_map_spaced, trim_end_span]

theorem trim_span : trim (span words) = span words := by
  rw [← trim_flat_map_spaced, trim_trim]

theorem Word.trim_text (word : Word) : trim word.text = word.text :=
  trim_eq_self (starts_blank_of_visible word.visible) (ends_blank_of_visible word.visible)

theorem filter_flat_map_spaced :
    (words.flatMap Word.spaced).filter (!isBlank ·) = words.flatMap Word.text := by
  rw [List.filter_flatMap]
  refine List.flatMap_congr fun word _ => ?_
  have text : word.text.filter (!isBlank ·) = word.text :=
    List.filter_eq_self.2 fun c member => by simp [word.visible c member]
  rw [Word.spaced, List.filter_append, filter_blank word.gap.blank, text, List.nil_append]

theorem filter_span : (span words).filter (!isBlank ·) = words.flatMap Word.text := by
  rw [← trim_flat_map_spaced, filter_trim, filter_flat_map_spaced]

end

theorem words_append_cons {c : Char} (blank : isBlank c = true) (before after : List Char) :
    Text.words (before ++ c :: after) = Text.words before ++ Text.words after := by
  unfold Text.words
  rw [List.splitOnP_append_cons _ _ blank, List.filter_append]

theorem words_blank_append {blanks : List Char} (blank : ∀ c ∈ blanks, isBlank c = true)
    (text : List Char) : Text.words (blanks ++ text) = Text.words text := by
  induction blanks with
  | nil => rfl
  | cons c rest ih =>
      obtain ⟨first, others⟩ := List.forall_mem_cons.1 blank
      have start := words_append_cons first [] (rest ++ text)
      rw [ih others] at start
      exact start

theorem Word.words_text (word : Word) : Text.words word.text = [word.text] := by
  unfold Text.words
  rw [List.splitOnP_eq_singleton word.visible]
  simp [word.nonempty]

theorem words_flat_map_spaced {words : List Word} {last : Blanks}
    (apart : ∀ word ∈ words.tail, word.gap.text ≠ []) :
    Text.words (words.flatMap Word.spaced ++ last.text) = words.map Word.text := by
  induction words with
  | nil =>
      have empty := words_blank_append last.blank []
      rw [List.append_nil] at empty
      exact empty
  | cons word rest ih =>
      have others : ∀ word ∈ rest, word.gap.text ≠ [] := apart
      have later := ih fun word member => others word (List.mem_of_mem_tail member)
      rw [List.flatMap_cons, Word.spaced, List.append_assoc, List.append_assoc,
        words_blank_append word.gap.blank, List.map_cons, ← later]
      cases behind : rest.flatMap Word.spaced ++ last.text with
      | nil => rw [List.append_nil, word.words_text]; rfl
      | cons c more =>
          have blank := is_blank_of_head others (show _ = some c by rw [behind]; rfl)
          have parted := words_append_cons blank [] more
          rw [words_append_cons blank, word.words_text]
          exact congrArg (word.text :: ·) parted.symm

theorem exists_unique_layout (text : List Char) : ∃! layout : Layout, layout.text = text := by
  obtain ⟨layout, laid⟩ := exists_layout text
  refine ⟨layout, laid, fun other laidToo => ?_⟩
  obtain ⟨words, last⟩ := eq_of_flat_map_spaced_eq other.apart layout.apart
    (laidToo.trans laid.symm)
  exact Layout.ext words last

theorem trim_layout (layout : Layout) : trim layout.text = span layout.words := by
  rw [Layout.text, trim_append_blank _ layout.last.blank, trim_flat_map_spaced]

/-- What some of the last words of a text span is a part of the text as it stands. -/
theorem text_eq_append_span (layout : Layout) {n : Nat} (below : n < layout.words.length) :
    layout.text = (layout.words.take n).flatMap Word.spaced ++ layout.words[n].gap.text ++
      span (layout.words.drop n) ++ layout.last.text := by
  have cut := List.drop_eq_getElem_cons below
  have words : layout.words.flatMap Word.spaced =
      (layout.words.take n).flatMap Word.spaced ++ (layout.words.drop n).flatMap Word.spaced := by
    rw [← List.flatMap_append, List.take_append_drop]
  rw [Layout.text, words, cut, List.flatMap_cons, span, Word.spaced]
  simp only [List.append_assoc]

theorem words_layout (layout : Layout) : Text.words layout.text = layout.words.map Word.text :=
  words_flat_map_spaced layout.apart

theorem filter_layout (layout : Layout) :
    layout.text.filter (!isBlank ·) = layout.words.flatMap Word.text := by
  rw [← filter_trim, trim_layout, filter_span]

end EndpointAtlas.Text
