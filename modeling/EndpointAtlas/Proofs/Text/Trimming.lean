import Mathlib.Data.List.Basic
import Mathlib.Data.List.TakeWhile
import EndpointAtlas.Text.Split

/-!
White space at the ends of a text does not matter once it is trimmed, and neither does the way in
which the lines of a text end. So the trimmed lines of a text are what stands between its line
feeds, up to an empty line at the end.
-/

namespace EndpointAtlas

open Text

def startsBlank (text : List Char) : Bool := text.head?.any isBlank

def endsBlank (text : List Char) : Bool := text.getLast?.any isBlank

namespace Text

@[ext] structure Blanks where
  text : List Char
  blank : ∀ c ∈ text, isBlank c = true

namespace Blanks

def none : Blanks := ⟨[], List.forall_mem_nil _⟩

def cons (c : Char) (blank : isBlank c = true) (blanks : Blanks) : Blanks :=
  ⟨c :: blanks.text, List.forall_mem_cons.2 ⟨blank, blanks.blank⟩⟩

end Blanks

section

variable {text blanks : List Char}

theorem starts_blank_reverse (text : List Char) : startsBlank text.reverse = endsBlank text := by
  rw [startsBlank, endsBlank, List.head?_reverse]

theorem head_trim_start {text rest : List Char} {c : Char} (starts : trimStart text = c :: rest) :
    isBlank c = false := by
  have head := List.head?_dropWhile_not isBlank text
  rw [show text.dropWhile isBlank = c :: rest from starts] at head
  simpa using head

theorem starts_blank_trim_start (text : List Char) : startsBlank (trimStart text) = false := by
  unfold startsBlank
  cases split : trimStart text with
  | nil => rfl
  | cons c rest => simpa using head_trim_start split

theorem trim_start_eq_self {text : List Char} (clean : startsBlank text = false) :
    trimStart text = text := by
  cases text with
  | nil => rfl
  | cons c rest =>
      have visible : isBlank c = false := by simpa [startsBlank] using clean
      simp [trimStart, visible]

theorem trim_end_append_blank (text : List Char) (blank : ∀ c ∈ blanks, isBlank c = true) :
    trimEnd (text ++ blanks) = trimEnd text := by
  unfold trimEnd dropEndWhile
  rw [List.reverse_append, List.dropWhile_append_of_pos]
  exact fun c member => blank c (List.mem_reverse.1 member)

theorem exists_trim_end (text : List Char) :
    ∃ blanks, (∀ c ∈ blanks, isBlank c = true) ∧ text = trimEnd text ++ blanks := by
  refine ⟨(text.reverse.takeWhile isBlank).reverse, fun c member => ?_, ?_⟩
  · exact List.mem_takeWhile_imp (List.mem_reverse.1 member)
  · rw [trimEnd, dropEndWhile, ← List.reverse_append, List.takeWhile_append_dropWhile,
      List.reverse_reverse]

theorem trim_end_eq_self {text : List Char} (clean : endsBlank text = false) :
    trimEnd text = text := by
  show (trimStart text.reverse).reverse = text
  rw [trim_start_eq_self ((starts_blank_reverse text).trans clean), List.reverse_reverse]

theorem ends_blank_trim_end (text : List Char) : endsBlank (trimEnd text) = false := by
  rw [← starts_blank_reverse]
  show startsBlank (trimStart text.reverse).reverse.reverse = false
  rw [List.reverse_reverse, starts_blank_trim_start]

theorem starts_blank_trim_end {text : List Char} (clean : startsBlank text = false) :
    startsBlank (trimEnd text) = false := by
  obtain ⟨blanks, -, split⟩ := exists_trim_end text
  cases shorter : trimEnd text with
  | nil => rfl
  | cons c rest =>
      rw [split, shorter] at clean
      exact clean

theorem starts_blank_trim (text : List Char) : startsBlank (trim text) = false :=
  starts_blank_trim_end (starts_blank_trim_start text)

theorem ends_blank_trim (text : List Char) : endsBlank (trim text) = false := ends_blank_trim_end _

theorem trim_eq_self {text : List Char} (start : startsBlank text = false)
    (ending : endsBlank text = false) : trim text = text := by
  rw [trim, trim_start_eq_self start, trim_end_eq_self ending]

@[simp] theorem trim_trim (text : List Char) : trim (trim text) = trim text :=
  trim_eq_self (starts_blank_trim text) (ends_blank_trim text)

theorem starts_blank_of_visible (visible : ∀ c ∈ text, isBlank c = false) :
    startsBlank text = false := by
  cases text with
  | nil => rfl
  | cons c rest => simpa [startsBlank] using visible c List.mem_cons_self

theorem ends_blank_of_visible (visible : ∀ c ∈ text, isBlank c = false) :
    endsBlank text = false := by
  rw [← starts_blank_reverse]
  exact starts_blank_of_visible fun c member => visible c (List.mem_reverse.1 member)

theorem starts_blank_append (nonempty : text ≠ []) (rest : List Char) :
    startsBlank (text ++ rest) = startsBlank text := by
  rw [startsBlank, startsBlank, List.head?_append_of_ne_nil _ nonempty]

theorem ends_blank_append (before : List Char) (nonempty : text ≠ []) :
    endsBlank (before ++ text) = endsBlank text := by
  rw [endsBlank, endsBlank, List.getLast?_append_of_ne_nil _ nonempty]

theorem trim_end_append {text name : List Char} (named : name ≠ [])
    (clean : ∀ c ∈ name, isBlank c = false) : trimEnd (text ++ name) = text ++ name :=
  trim_end_eq_self ((ends_blank_append text named).trans (ends_blank_of_visible clean))

theorem trim_end_cons {c : Char} (visible : isBlank c = false) (rest : List Char) :
    trimEnd (c :: rest) = c :: trimEnd rest := by
  unfold trimEnd dropEndWhile
  rw [List.reverse_cons, List.dropWhile_append]
  split
  · rename_i nothing
    rw [List.isEmpty_iff.1 nothing, List.dropWhile_cons_of_neg (by simp [visible])]
    rfl
  · rw [List.reverse_append]
    rfl

theorem exists_append_trim (text : List Char) : ∃ before after,
    text = before ++ trim text ++ after ∧ ∀ c ∈ before ++ after, isBlank c = true := by
  obtain ⟨after, blank, split⟩ := exists_trim_end (trimStart text)
  refine ⟨text.takeWhile isBlank, after, ?_, fun c member => ?_⟩
  · rw [trim, List.append_assoc, ← split, trimStart, List.takeWhile_append_dropWhile]
  · rcases List.mem_append.1 member with start | rest
    · exact List.mem_takeWhile_imp start
    · exact blank c rest

theorem trim_eq_nil_iff : trim text = [] ↔ ∀ c ∈ text, isBlank c = true := by
  constructor
  · intro empty c member
    obtain ⟨before, after, split, blank⟩ := exists_append_trim text
    rw [empty, List.append_nil] at split
    exact blank c (split ▸ member)
  · intro blank
    rw [trim, trimStart, List.dropWhile_eq_nil_iff.2 blank]
    rfl

theorem filter_blank (blank : ∀ c ∈ blanks, isBlank c = true) :
    blanks.filter (!isBlank ·) = [] :=
  List.filter_eq_nil_iff.2 fun c member => by simp [blank c member]

theorem filter_trim (text : List Char) :
    (trim text).filter (!isBlank ·) = text.filter (!isBlank ·) := by
  obtain ⟨before, after, split, blank⟩ := exists_append_trim text
  have front := filter_blank fun c member => blank c (List.mem_append_left _ member)
  have back := filter_blank fun c member => blank c (List.mem_append_right _ member)
  calc (trim text).filter (!isBlank ·)
      = (before ++ trim text ++ after).filter (!isBlank ·) := by
        rw [List.filter_append, List.filter_append, front, back, List.nil_append, List.append_nil]
    _ = text.filter (!isBlank ·) := by rw [← split]

theorem trim_blank_append (blank : ∀ c ∈ blanks, isBlank c = true) (text : List Char) :
    trim (blanks ++ text) = trim text := by
  rw [trim, trimStart, List.dropWhile_append_of_pos blank]
  rfl

theorem trim_append_blank (text : List Char) (blank : ∀ c ∈ blanks, isBlank c = true) :
    trim (text ++ blanks) = trim text := by
  unfold trim trimStart
  rw [List.dropWhile_append]
  split
  · rename_i nothing
    rw [List.isEmpty_iff.1 nothing, List.dropWhile_eq_nil_iff.2 blank]
  · exact trim_end_append_blank _ blank

theorem trim_between {before after : List Char} (visible : ∀ c ∈ text, isBlank c = false)
    (blank : ∀ c ∈ before ++ after, isBlank c = true) : trim (before ++ text ++ after) = text := by
  rw [trim_append_blank _ fun c member => blank c (List.mem_append_right _ member),
    trim_blank_append fun c member => blank c (List.mem_append_left _ member),
    trim_eq_self (starts_blank_of_visible visible) (ends_blank_of_visible visible)]

@[simp] theorem trim_trim_end (text : List Char) : trim (trimEnd text) = trim text := by
  obtain ⟨blanks, blank, split⟩ := exists_trim_end text
  have whole := trim_append_blank (trimEnd text) blank
  rw [← split] at whole
  exact whole.symm

theorem trim_space (text : List Char) : trim (' ' :: text) = trim text :=
  @trim_blank_append [' '] (List.forall_mem_singleton.2 (by decide)) text

theorem trim_drop_return (line : List Char) :
    trim ((beforeEnd? ['\r'] line).getD line) = trim line := by
  cases found : beforeEnd? ['\r'] line with
  | none => rfl
  | some shorter =>
      obtain rfl := List.append_eq_of_isSuffixOf?_eq_some found
      exact (trim_append_blank shorter (List.forall_mem_singleton.2 (by decide))).symm

end

section

variable {α : Type} {p : α → Bool} {front back : List α}

theorem take_while_append_of_head (all : ∀ x ∈ front, p x = true)
    (stops : ∀ x, back.head? = some x → p x = false) : (front ++ back).takeWhile p = front := by
  rw [List.takeWhile_append_of_pos all]
  cases back with
  | nil => exact List.append_nil _
  | cons x rest =>
      rw [List.takeWhile_cons_of_neg (by simp [stops x rfl])]
      exact List.append_nil _

theorem drop_while_append_of_head (all : ∀ x ∈ front, p x = true)
    (stops : ∀ x, back.head? = some x → p x = false) : (front ++ back).dropWhile p = back := by
  rw [List.dropWhile_append_of_pos all]
  cases back with
  | nil => rfl
  | cons x rest => exact List.dropWhile_cons_of_neg (by simp [stops x rfl])

end

theorem cut_last_eq_some {p : α → Bool} {items before after : List α}
    (found : cutLast p items = some (before, after)) :
    ∃ mark, p mark = true ∧ items = before ++ mark :: after ∧ ∀ x ∈ after, p x = false := by
  obtain ⟨⟨last, first⟩, cut, equal⟩ := Option.map_eq_some_iff.1 found
  obtain ⟨rfl, rfl⟩ := Prod.mk.inj equal
  obtain ⟨mark, marked, split, clean⟩ := cut_first_eq_some cut
  refine ⟨mark, marked, ?_, fun x member => clean x (List.mem_reverse.1 member)⟩
  rw [← List.reverse_reverse items, split]
  simp

theorem cut_last_eq_none_iff {p : α → Bool} {items : List α} :
    cutLast p items = none ↔ ∀ x ∈ items, p x = false := by
  simp [cutLast, cut_first_eq_none_iff]

theorem split_on_eq_singleton [BEq α] [LawfulBEq α] {mark : α} {items : List α}
    (clean : mark ∉ items) : items.splitOn mark = [items] := by
  rw [List.splitOn_eq_splitOnP]
  refine List.splitOnP_eq_singleton fun x member => beq_eq_false_iff_ne.2 ?_
  rintro rfl
  exact clean member

/-- Between the line feeds of a text stand its lines, trimmed alike, and perhaps nothing at the
end. -/
theorem map_trim_split_on (text : List Char) : ∃ nothing, (∀ row ∈ nothing, row = []) ∧
    (text.splitOn '\n').map trim = (lines text).map trim ++ nothing := by
  unfold lines
  cases cut : cutLast (· == '\n') text with
  | none =>
      rw [List.splitOn_eq_splitOnP, List.splitOnP_eq_singleton (cut_last_eq_none_iff.1 cut)]
      dsimp only
      cases text with
      | nil => exact ⟨[[]], by simp, rfl⟩
      | cons c rest => exact ⟨[], by simp, rfl⟩
  | some parts =>
      obtain ⟨before, after⟩ := parts
      obtain ⟨mark, marked, rfl, clean⟩ := cut_last_eq_some cut
      obtain rfl := beq_iff_eq.1 marked
      have last : after.splitOn '\n' = [after] := by
        rw [List.splitOn_eq_splitOnP]
        exact List.splitOnP_eq_singleton clean
      have returns : (before.splitOn '\n').map
          (trim ∘ fun line => (beforeEnd? ['\r'] line).getD line) =
            (before.splitOn '\n').map trim :=
        List.map_congr_left fun line _ => trim_drop_return line
      rw [List.splitOn_append_cons_self, last]
      dsimp only
      rw [List.map_append, List.map_append, List.map_map, returns]
      cases after with
      | nil => exact ⟨[[]], by simp, by simp; rfl⟩
      | cons c rest => exact ⟨[], by simp, by simp⟩

end Text

end EndpointAtlas
