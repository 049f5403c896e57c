import EndpointAtlas.Text.DecimalDigit
import EndpointAtlas.Text.Letter
import EndpointAtlas.Text.Lowercase

/-!
The lower case of a character is one character of the same kind, a letter for a letter and a digit
for a digit, unless the character is the dotted capital I, whose lower case carries a combining dot.
-/

namespace EndpointAtlas.Text

def dottedI : Char := Char.ofNat 304

def combiningDot : Char := Char.ofNat 775

/-- What a character has in common with its lower case. -/
structure SameKind (c d : Char) : Prop where
  letter : isLetter d = isLetter c
  digit : isDecimalDigit d = isDecimalDigit c
  underscore : d = '_' ↔ c = '_'
  dot : d = combiningDot → c = combiningDot

def covers (ranges : List (Nat × Nat)) (low high : Nat) : Bool :=
  ranges.any fun range => range.1.ble low && high.ble range.2

def avoids (ranges : List (Nat × Nat)) (low high : Nat) : Bool :=
  ranges.all fun range => high.blt range.1 || range.2.blt low

variable {ranges : List (Nat × Nat)} {low high code : Nat}

theorem in_ranges_of_covers (all : covers ranges low high = true) (above : low ≤ code)
    (below : code ≤ high) : inRanges ranges code = true := by
  obtain ⟨range, member, within⟩ := List.any_eq_true.1 all
  simp only [Bool.and_eq_true, Nat.ble_eq] at within
  refine List.any_eq_true.2 ⟨range, member, ?_⟩
  simp only [Bool.and_eq_true, decide_eq_true_eq]
  omega

theorem in_ranges_of_avoids (none : avoids ranges low high = true) (above : low ≤ code)
    (below : code ≤ high) : inRanges ranges code = false := by
  rw [inRanges, List.any_eq_false]
  intro range member
  have apart := List.all_eq_true.1 none range member
  simp only [Bool.or_eq_true, Nat.blt_eq] at apart
  simp only [Bool.and_eq_true, decide_eq_true_eq]
  omega

namespace CaseRun

def first (run : CaseRun) : Nat := (run.low + run.shift).toNat

def last (run : CaseRun) : Nat := (run.high + run.shift).toNat

/-- Whether all characters of a run and their lower cases are letters. A run whose members do not
lie in one range is looked through. -/
def isLetters (run : CaseRun) : Bool :=
  covers letterRanges run.low run.high && covers letterRanges run.first run.last ||
    (List.range (run.high - run.low + 1)).all fun distance =>
      distance % run.step != 0 || inRanges letterRanges (run.low + distance) &&
        inRanges letterRanges (run.first + distance)

def noLetters (run : CaseRun) : Bool :=
  avoids letterRanges run.low run.high && avoids letterRanges run.first run.last

/-- Whether the lower cases of a run are characters outside of ASCII and of the same kind as the
members of the run. -/
def keepsKind (run : CaseRun) : Bool :=
  128 ≤ run.first && (run.last < 0xD800 || 0xDFFF < run.first && run.last < 0x110000) &&
    (run.last < 775 || 775 < run.first) && avoids decimalDigitRanges run.low run.high &&
    avoids decimalDigitRanges run.first run.last && (run.isLetters || run.noLetters)

end CaseRun

/-- The sign for kelvins is the one character outside of ASCII with a lower case in it. -/
theorem keeps_kind_of_mem {run : CaseRun} (member : run ∈ lowercaseRuns) :
    run.low = 8490 ∧ run.high = 8490 ∧ run.shift = -8383 ∨ run.keepsKind = true := by
  have checked : ∀ run ∈ lowercaseRuns,
      run.low = 8490 ∧ run.high = 8490 ∧ run.shift = -8383 ∨ run.keepsKind = true := by
    decide +kernel
  exact checked run member

theorem to_nat_of_nat_of_is_valid_char {code : Nat} (valid : code.isValidChar) :
    (Char.ofNat code).toNat = code := by
  rw [Char.ofNat, dif_pos valid]
  rfl

theorem eq_of_to_nat_eq {c d : Char} (same : c.toNat = d.toNat) : c = d := by
  rw [← Char.ofNat_toNat c, same, Char.ofNat_toNat]

theorem is_letter_eq_in_ranges {c : Char} (large : 128 ≤ c.toNat) :
    isLetter c = inRanges letterRanges c.toNat := if_neg (by omega)

theorem is_decimal_digit_eq_in_ranges {c : Char} (large : 128 ≤ c.toNat) :
    isDecimalDigit c = inRanges decimalDigitRanges c.toNat := if_neg (by omega)

/-- Characters outside of ASCII are of the same kind if the tables say so. -/
theorem SameKind.of_ranges {c d : Char} (large : 128 ≤ c.toNat) (largeToo : 128 ≤ d.toNat)
    (letter : inRanges letterRanges d.toNat = inRanges letterRanges c.toNat)
    (digit : inRanges decimalDigitRanges d.toNat = inRanges decimalDigitRanges c.toNat)
    (dot : d.toNat ≠ 775) : SameKind c d where
  letter := by rw [is_letter_eq_in_ranges large, is_letter_eq_in_ranges largeToo, letter]
  digit := by rw [is_decimal_digit_eq_in_ranges large,
    is_decimal_digit_eq_in_ranges largeToo, digit]
  underscore := by
    have below : ('_' : Char).toNat = 95 := rfl
    constructor
    · rintro rfl
      omega
    · rintro rfl
      omega
  dot := fun same => absurd (congrArg Char.toNat same) dot

namespace CaseRun

variable {run : CaseRun}

/-- The lower cases of the members of a run that the check accepts are of their kind. -/
theorem same_kind_of_keeps_kind (keeps : run.keepsKind = true) {c : Char}
    (above : run.low ≤ c.toNat)
    (below : c.toNat ≤ run.high) (stepped : (c.toNat - run.low) % run.step = 0)
    (large : 128 ≤ c.toNat) : SameKind c (Char.ofNat (c.toNat + run.shift).toNat) := by
  simp only [keepsKind, Bool.and_eq_true, Bool.or_eq_true, decide_eq_true_eq] at keeps
  obtain ⟨⟨⟨⟨⟨outside, valid⟩, noDot⟩, sourceDigits⟩, digits⟩, letters⟩ := keeps
  have lower : run.first ≤ (c.toNat + run.shift).toNat := by
    unfold first
    omega
  have upper : (c.toNat + run.shift).toNat ≤ run.last := by
    unfold last
    omega
  have code : (Char.ofNat (c.toNat + run.shift).toNat).toNat = (c.toNat + run.shift).toNat := by
    apply to_nat_of_nat_of_is_valid_char
    unfold Nat.isValidChar
    omega
  have digit : inRanges decimalDigitRanges (c.toNat + run.shift).toNat =
      inRanges decimalDigitRanges c.toNat := by
    rw [in_ranges_of_avoids sourceDigits above below, in_ranges_of_avoids digits lower upper]
  have letter : inRanges letterRanges (c.toNat + run.shift).toNat =
      inRanges letterRanges c.toNat := by
    rcases letters with isLetters | noLetters
    · simp only [CaseRun.isLetters, Bool.or_eq_true, Bool.and_eq_true] at isLetters
      rcases isLetters with ⟨source, target⟩ | each
      · rw [in_ranges_of_covers source above below, in_ranges_of_covers target lower upper]
      · have own := List.all_eq_true.1 each (c.toNat - run.low) (List.mem_range.2 (by omega))
        have sourceCode : run.low + (c.toNat - run.low) = c.toNat := by omega
        have targetCode : run.first + (c.toNat - run.low) = (c.toNat + run.shift).toNat := by
          unfold first at *
          omega
        rw [sourceCode, targetCode] at own
        simp only [stepped, bne_self_eq_false, Bool.false_or, Bool.and_eq_true] at own
        rw [own.1, own.2]
    · simp only [CaseRun.noLetters, Bool.and_eq_true] at noLetters
      rw [in_ranges_of_avoids noLetters.1 above below, in_ranges_of_avoids noLetters.2 lower upper]
  apply SameKind.of_ranges large
  · omega
  · rw [code, letter]
  · rw [code, digit]
  · omega

end CaseRun

theorem SameKind.refl (c : Char) : SameKind c c := ⟨rfl, rfl, .rfl, id⟩

theorem same_kind_to_lower {c : Char} (small : c.toNat < 128) : SameKind c c.toLower := by
  have checked : ∀ code < 128, isLetter (Char.ofNat code).toLower = isLetter (Char.ofNat code) ∧
      isDecimalDigit (Char.ofNat code).toLower = isDecimalDigit (Char.ofNat code) ∧
      ((Char.ofNat code).toLower = '_' ↔ Char.ofNat code = '_') ∧
      (Char.ofNat code).toLower ≠ combiningDot := by decide +kernel
  have own := checked c.toNat small
  rw [Char.ofNat_toNat] at own
  exact ⟨own.1, own.2.1, own.2.2.1, fun same => absurd same own.2.2.2⟩

/-- Every character but the dotted capital I has a lower case of one character, of its own kind. -/
theorem exists_lowercase_eq {c : Char} (plain : c ≠ dottedI) :
    ∃ d, lowercase c = [d] ∧ SameKind c d := by
  have code : c.toNat ≠ 304 := fun same => plain (eq_of_to_nat_eq same)
  unfold lowercase
  dsimp only
  split
  · rename_i small
    exact ⟨_, rfl, same_kind_to_lower small⟩
  · rename_i large
    split
    · rename_i run found
      have within := List.find?_some found
      simp only [Bool.and_eq_true, decide_eq_true_eq, beq_iff_eq] at within
      obtain ⟨⟨above, below⟩, stepped⟩ := within
      refine ⟨_, rfl, ?_⟩
      rcases keeps_kind_of_mem (List.mem_of_find?_eq_some found) with ⟨low, high, shift⟩ | keeps
      · have kelvin : c = Char.ofNat 8490 := eq_of_to_nat_eq (by
          show c.toNat = 8490
          omega)
        subst kelvin
        rw [shift]
        exact ⟨by decide +kernel, by decide +kernel, by decide +kernel, by decide +kernel⟩
      · exact CaseRun.same_kind_of_keeps_kind keeps above below stepped (by omega)
    · exact ⟨c, rfl, .refl c⟩

theorem lowercase_dotted_i : lowercase dottedI = ['i', combiningDot] := by decide +kernel

theorem lowercase_ne_nil (c : Char) : lowercase c ≠ [] := by
  by_cases dotted : c = dottedI
  · rw [dotted, lowercase_dotted_i]
    exact List.cons_ne_nil _ _
  · obtain ⟨d, lower, -⟩ := exists_lowercase_eq dotted
    rw [lower]
    exact List.cons_ne_nil _ _

end EndpointAtlas.Text
