import EndpointAtlas.Text.Blank

/-!
Cutting texts: at the first or the last separator, at every separator, and at a fixed start or end.
-/

namespace EndpointAtlas.Text

/-- The parts before and after the first element that satisfies the test. -/
def cutFirst (p : α → Bool) : List α → Option (List α × List α)
  | [] => none
  | head :: rest =>
      if p head then some ([], rest)
      else (cutFirst p rest).map fun (before, after) => (head :: before, after)

/-- The parts before and after the last element that satisfies the test. -/
def cutLast (p : α → Bool) (items : List α) : Option (List α × List α) :=
  (cutFirst p items.reverse).map fun (after, before) => (before.reverse, after.reverse)

def afterStart? (start text : List Char) : Option (List Char) := start.isPrefixOf? text

def beforeEnd? (ending text : List Char) : Option (List Char) := ending.isSuffixOf? text

/-- The lines of a text. A line feed ends a line, a carriage return before it is dropped, and the
end of the text ends a line unless a line feed stands there. -/
def lines (text : List Char) : List (List Char) :=
  match cutLast (· == '\n') text with
  | none => if text.isEmpty then [] else [text]
  | some (before, after) =>
      let ended := before.splitOn '\n'
      ended.map (fun line => (beforeEnd? ['\r'] line).getD line) ++
        if after.isEmpty then [] else [after]

theorem cut_first_eq_some {p : α → Bool} {items before after : List α}
    (found : cutFirst p items = some (before, after)) :
    ∃ mark, p mark = true ∧ items = before ++ mark :: after ∧ ∀ x ∈ before, p x = false := by
  induction items generalizing before with
  | nil => simp [cutFirst] at found
  | cons head rest ih =>
      by_cases holds : p head = true
      · simp only [cutFirst, holds, if_true, Option.some.injEq, Prod.mk.injEq] at found
        obtain ⟨rfl, rfl⟩ := found
        exact ⟨head, holds, rfl, by simp⟩
      · simp only [cutFirst, holds, Bool.false_eq_true, if_false, Option.map_eq_some_iff] at found
        obtain ⟨⟨inner, tail⟩, cut, equal⟩ := found
        obtain ⟨rfl, rfl⟩ := Prod.mk.inj equal
        obtain ⟨mark, marked, rfl, clean⟩ := ih cut
        refine ⟨mark, marked, rfl, fun x member => ?_⟩
        rcases List.mem_cons.1 member with rfl | member
        · simpa using holds
        · exact clean x member

theorem cut_first_append {α : Type} {p : α → Bool} {before after : List α} {mark : α}
    (marked : p mark = true) (clean : ∀ x ∈ before, p x = false) :
    cutFirst p (before ++ mark :: after) = some (before, after) := by
  induction before with
  | nil => simp [cutFirst, marked]
  | cons head rest ih =>
      have own := clean head List.mem_cons_self
      have others := ih fun x member => clean x (List.mem_cons_of_mem _ member)
      simp [cutFirst, own, others]

theorem cut_first_eq_none_iff {p : α → Bool} {items : List α} :
    cutFirst p items = none ↔ ∀ x ∈ items, p x = false := by
  induction items with
  | nil => simp [cutFirst]
  | cons head rest ih => by_cases holds : p head = true <;> simp_all [cutFirst]

section

variable {mark : Char} {text before after : List Char}

theorem cut_first_mark_eq_none_iff : cutFirst (· == mark) text = none ↔ mark ∉ text := by
  rw [cut_first_eq_none_iff]
  constructor
  · intro clean member
    have apart := clean mark member
    rw [beq_self_eq_true] at apart
    cases apart
  · intro clean c member
    exact beq_eq_false_iff_ne.2 fun same => clean (same ▸ member)

/-- A text is cut at a mark where the mark stands first. -/
theorem cut_first_mark_eq_some_iff : cutFirst (· == mark) text = some (before, after) ↔
    text = before ++ mark :: after ∧ mark ∉ before := by
  constructor
  · intro found
    obtain ⟨other, marked, split, clean⟩ := cut_first_eq_some found
    obtain rfl := beq_iff_eq.1 marked
    exact ⟨split, cut_first_mark_eq_none_iff.1 (cut_first_eq_none_iff.2 clean)⟩
  · rintro ⟨rfl, clean⟩
    exact cut_first_append (beq_self_eq_true mark)
      (cut_first_eq_none_iff.1 (cut_first_mark_eq_none_iff.2 clean))

/-- Two texts with a mark in each, before which it does not stand, are cut at the mark alike. -/
theorem append_mark_inj {others last : List Char} (clean : mark ∉ before) (cleanToo : mark ∉ others)
    (same : before ++ mark :: after = others ++ mark :: last) : before = others ∧ after = last := by
  have cut := cut_first_mark_eq_some_iff.2 ⟨same, cleanToo⟩
  rw [cut_first_mark_eq_some_iff.2 ⟨rfl, clean⟩] at cut
  exact Prod.mk.inj (Option.some.inj cut)

end

end EndpointAtlas.Text
