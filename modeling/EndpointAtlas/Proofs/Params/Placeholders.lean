import Mathlib.Data.List.Basic
import EndpointAtlas.Route

/-!
Placeholders of path patterns. A pattern is cut in one way into texts outside of braces and groups
between braces, perhaps with an unclosed brace at the end. The placeholders are the groups that are
names, in order, whatever stands before, between and after them.
-/

namespace EndpointAtlas

open Text

/-- A pattern cut at its braces. A group is closed by the first closing brace after the brace that
opens it, and closing braces outside of groups are text. -/
inductive Braced where
  | plain (text : List Char) (noOpening : '\x7b' ∉ text)
  | unclosed (before after : List Char) (noOpening : '\x7b' ∉ before) (noClosing : '\x7d' ∉ after)
  | group (before inside : List Char) (noOpening : '\x7b' ∉ before) (noClosing : '\x7d' ∉ inside)
      (rest : Braced)

namespace Braced

def text : Braced → List Char
  | plain text _ => text
  | unclosed before after _ _ => before ++ '\x7b' :: after
  | group before inside _ _ rest => before ++ '\x7b' :: (inside ++ '\x7d' :: rest.text)

def insides : Braced → List (List Char)
  | plain _ _ => []
  | unclosed _ _ _ _ => []
  | group _ inside _ _ rest => inside :: rest.insides

end Braced

def IsPlaceholder (inside : List Char) : Prop :=
  inside ≠ [] ∧ ∀ c ∈ inside, isAlphabetic c = true ∨ isNumeric c = true ∨ c = '_'

theorem is_placeholder_iff {inside : List Char} :
    (!inside.isEmpty && inside.all isNameChar) = true ↔ IsPlaceholder inside := by
  simp [IsPlaceholder, isNameChar, or_assoc]

instance (inside : List Char) : Decidable (IsPlaceholder inside) :=
  decidable_of_iff _ is_placeholder_iff

section

variable {pattern before after inside rest : List Char}

/-- One step of the search, from an opening brace to the end of its group. -/
theorem placeholders_eq (pattern : List Char) : placeholders pattern =
    ((cutFirst (· == '\x7b') pattern).bind fun (_, after) => cutFirst (· == '\x7d') after).elim []
      fun (inside, rest) => [inside].filter (IsPlaceholder ·) ++ placeholders rest := by
  rw [placeholders]
  split
  · rename_i plain
    rw [plain]
    rfl
  · rename_i opens
    rw [opens, Option.bind_some]
    dsimp only
    split
    · rename_i unclosed
      rw [unclosed]
      rfl
    · rename_i inside rest closes
      rw [closes, Option.elim_some]
      by_cases named : IsPlaceholder inside
      · rw [if_pos (is_placeholder_iff.2 named)]
        simp [named]
      · rw [if_neg (mt is_placeholder_iff.1 named)]
        simp [named]

theorem placeholders_of_plain (plain : cutFirst (· == '\x7b') pattern = none) :
    placeholders pattern = [] := by
  rw [placeholders_eq, plain]
  rfl

theorem placeholders_of_unclosed (opens : cutFirst (· == '\x7b') pattern = some (before, after))
    (unclosed : cutFirst (· == '\x7d') after = none) : placeholders pattern = [] := by
  rw [placeholders_eq, opens]
  simp only [Option.bind_some, unclosed, Option.elim_none]

/-- A group adds its inside if that is a name, and does not change what comes after it. -/
theorem placeholders_of_group (opens : cutFirst (· == '\x7b') pattern = some (before, after))
    (closes : cutFirst (· == '\x7d') after = some (inside, rest)) :
    placeholders pattern = [inside].filter (IsPlaceholder ·) ++ placeholders rest := by
  rw [placeholders_eq, opens]
  simp only [Option.bind_some, closes, Option.elim_some]

end

namespace Braced

theorem placeholders_text (cut : Braced) :
    placeholders cut.text = cut.insides.filter (IsPlaceholder ·) := by
  induction cut with
  | plain text noOpening => exact placeholders_of_plain (cut_first_mark_eq_none_iff.2 noOpening)
  | unclosed before after noOpening noClosing =>
      exact placeholders_of_unclosed (cut_first_mark_eq_some_iff.2 ⟨rfl, noOpening⟩)
        (cut_first_mark_eq_none_iff.2 noClosing)
  | group before inside noOpening noClosing rest ih =>
      rw [text, placeholders_of_group (cut_first_mark_eq_some_iff.2 ⟨rfl, noOpening⟩)
        (cut_first_mark_eq_some_iff.2 ⟨rfl, noClosing⟩), ih, ← List.filter_append]
      rfl

/-- Every pattern is cut where the search for placeholders goes along it. -/
theorem exists_text_eq (pattern : List Char) : ∃ cut : Braced, cut.text = pattern := by
  fun_induction placeholders pattern with
  | case1 pattern plain => exact ⟨.plain pattern (cut_first_mark_eq_none_iff.1 plain), rfl⟩
  | case2 pattern before after opens unclosed =>
      obtain ⟨rfl, noOpening⟩ := cut_first_mark_eq_some_iff.1 opens
      exact ⟨.unclosed before after noOpening (cut_first_mark_eq_none_iff.1 unclosed), rfl⟩
  | case3 pattern before after opens inside rest closes _ ih
  | case4 pattern before after opens inside rest closes _ ih =>
      obtain ⟨rfl, noOpening⟩ := cut_first_mark_eq_some_iff.1 opens
      obtain ⟨rfl, noClosing⟩ := cut_first_mark_eq_some_iff.1 closes
      obtain ⟨cut, rfl⟩ := ih
      exact ⟨.group before inside noOpening noClosing cut, rfl⟩

theorem eq_of_text_eq {first second : Braced} (same : first.text = second.text) :
    first = second := by
  induction first generalizing second with
  | plain text noOpening =>
      have clean : '\x7b' ∉ second.text := same ▸ noOpening
      cases second with
      | plain other _ =>
          obtain rfl : text = other := same
          rfl
      | unclosed before after => exact absurd (by simp [Braced.text]) clean
      | group before inside _ _ rest => exact absurd (by simp [Braced.text]) clean
  | unclosed before after noOpening noClosing =>
      cases second with
      | plain other clean => exact absurd (by simp [← show _ = other from same, text]) clean
      | unclosed before _ noOpeningToo =>
          obtain ⟨rfl, rfl⟩ := append_mark_inj noOpening noOpeningToo same
          rfl
      | group _ inside noOpeningToo _ rest =>
          obtain ⟨-, rfl⟩ := append_mark_inj noOpening noOpeningToo same
          exact absurd (by simp) noClosing
  | group before inside noOpening noClosing rest ih =>
      cases second with
      | plain other clean => exact absurd (by simp [← show _ = other from same, text]) clean
      | unclosed _ after noOpeningToo clean =>
          obtain ⟨-, rfl⟩ := append_mark_inj noOpening noOpeningToo same
          exact absurd (by simp) clean
      | group _ other noOpeningToo noClosingToo more =>
          obtain ⟨rfl, inner⟩ := append_mark_inj noOpening noOpeningToo same
          obtain ⟨rfl, later⟩ := append_mark_inj noClosing noClosingToo inner
          rw [ih later]

end Braced

/-- A pattern is cut at its braces in one way, and its placeholders are the groups that are names,
in order and with repetitions. -/
theorem placeholders_of_braced (pattern : List Char) : (∃! cut : Braced, cut.text = pattern) ∧
    ∀ cut : Braced, cut.text = pattern →
      placeholders pattern = cut.insides.filter (IsPlaceholder ·) := by
  constructor
  · obtain ⟨cut, cuts⟩ := Braced.exists_text_eq pattern
    exact ⟨cut, cuts, fun other alike => Braced.eq_of_text_eq (alike.trans cuts.symm)⟩
  · rintro cut rfl
    exact cut.placeholders_text

def strayBraces : Braced :=
  .group ['\x7d', '/'] ['i', 'd'] (by decide) (by decide)
    (.group [] [] (by decide) (by decide)
      (.group ['-'] ['a', '\x7b', 'b'] (by decide) (by decide)
        (.group [] ['é', '_', '1'] (by decide) (by decide)
          (.group ['\x7d'] ['i', 'd'] (by decide) (by decide)
            (.unclosed ['/'] ['x', '\x7b', 'y'] (by decide) (by decide))))))

theorem placeholders_stray_braces : strayBraces.text =
      "\x7d/\x7bid\x7d\x7b\x7d-\x7ba\x7bb\x7d\x7bé_1\x7d\x7d\x7bid\x7d/\x7bx\x7by".toList ∧
    (placeholders strayBraces.text).map String.ofList = ["id", "é_1", "id"] := by
  refine ⟨by decide +kernel, ?_⟩
  rw [(placeholders_of_braced strayBraces.text).2 strayBraces rfl]
  decide +kernel

end EndpointAtlas
