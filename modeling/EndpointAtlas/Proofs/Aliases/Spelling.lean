import EndpointAtlas.Go.Lexeme
import EndpointAtlas.Proofs.Text.LetterCase
import EndpointAtlas.Route

/-!
What the alias of a package path keeps of it. Two paths have the same alias exactly if they are
alike: the same but for the case of characters and for what stands between names, where a run of
characters that are in no name counts as one underscore. And an alias is an identifier exactly if
the path is spelled with letters, digits and what stands between names, and no digit is first.
-/

namespace EndpointAtlas

open Text

structure Go.IsIdentifier (text : List Char) : Prop where
  nonempty : text ≠ []
  start : ∀ c ∈ text.head?, Lexeme.isNameStart c = true
  parts : ∀ c ∈ text, Lexeme.isNamePart c = true

/-- Whether what a path has of names can stand in an identifier, and what it starts with can start
one. The lower case of a dotted capital I has a dot that cannot stand there. -/
structure SpellsIdentifier (path : List Char) : Prop where
  nonempty : path ≠ []
  start : ∀ c ∈ path.head?, isNameChar c = true → c = '_' ∨ isLetter c = true
  parts : ∀ c ∈ path, isNameChar c = true →
    c = '_' ∨ isLetter c = true ∧ c ≠ dottedI ∨ isDecimalDigit c = true

/-- Whether the characters before the rest of a path are a whole run of characters of no name, or a
single underscore. -/
def IsGap (gap rest : List Char) : Prop :=
  gap = ['_'] ∨
    gap ≠ [] ∧ (∀ c ∈ gap, isNameChar c = false) ∧ ∀ c ∈ rest.head?, isNameChar c = true

/-- Paths that differ in nothing but the case of their characters and what stands in their gaps. -/
inductive Alike : List Char → List Char → Prop where
  | nil : Alike [] []
  | name {c d : Char} {rest others : List Char} (first : isNameChar c = true)
      (second : isNameChar d = true) (same : lowercase c = lowercase d)
      (alike : Alike rest others) : Alike (c :: rest) (d :: others)
  | gap {gap other rest others : List Char} (first : IsGap gap rest) (second : IsGap other others)
      (alike : Alike rest others) : Alike (gap ++ rest) (other ++ others)

section

variable {c : Char} {rest : List Char}

theorem alias_from_of_is_name_char (separated : Bool) (named : isNameChar c = true) :
    aliasFrom separated (c :: rest) = lowercase c ++ aliasFrom false rest := if_pos named

theorem alias_from_true_eq (starts : ∀ c ∈ rest.head?, isNameChar c = true) :
    aliasFrom true rest = aliasFrom false rest := by
  cases rest with
  | nil => rfl
  | cons c others =>
      have named := starts c rfl
      rw [alias_from_of_is_name_char true named, alias_from_of_is_name_char false named]

theorem alias_from_true_append {run : List Char} (apart : ∀ c ∈ run, isNameChar c = false) :
    aliasFrom true (run ++ rest) = aliasFrom true rest := by
  induction run with
  | nil => rfl
  | cons c others ih =>
      have own := apart c List.mem_cons_self
      rw [List.cons_append, aliasFrom, own]
      exact ih fun c member => apart c (List.mem_cons_of_mem _ member)

theorem IsGap.alias_from_append {gap : List Char} (isGap : IsGap gap rest) :
    aliasFrom false (gap ++ rest) = '_' :: aliasFrom false rest := by
  rcases isGap with rfl | ⟨nonempty, apart, starts⟩
  · rw [List.cons_append, alias_from_of_is_name_char false (by decide)]
    rfl
  · obtain ⟨c, others, rfl⟩ := List.exists_cons_of_ne_nil nonempty
    have own := apart c List.mem_cons_self
    have more : aliasFrom true (others ++ rest) = aliasFrom true rest :=
      alias_from_true_append fun c member => apart c (List.mem_cons_of_mem _ member)
    rw [List.cons_append, aliasFrom, own, more, alias_from_true_eq starts]
    rfl

theorem alias_from_cons_ne_nil : aliasFrom false (c :: rest) ≠ [] := by
  unfold aliasFrom
  split
  · exact List.append_ne_nil_of_left_ne_nil (lowercase_ne_nil c) _
  · exact List.cons_ne_nil _ _

theorem ne_combining_dot_of_is_name_char (named : isNameChar c = true) : c ≠ combiningDot := by
  rintro rfl
  revert named
  decide +kernel

/-- The dot of a dotted capital I is the only one in an alias, so no alias starts with it. -/
theorem head_alias_from_ne (path : List Char) :
    (aliasFrom false path).head? ≠ some combiningDot := by
  cases path with
  | nil => exact nofun
  | cons c rest =>
      unfold aliasFrom
      split
      · rename_i named
        by_cases dotted : c = dottedI
        · rw [dotted, lowercase_dotted_i]
          show some 'i' ≠ some combiningDot
          decide
        · obtain ⟨d, lower, kind⟩ := exists_lowercase_eq dotted
          rw [lower]
          intro starts
          exact ne_combining_dot_of_is_name_char named (kind.dot (Option.some.inj starts))
      · show some '_' ≠ some combiningDot
        decide

/-- A path that goes on starts with a character of a name or with a gap. -/
theorem exists_gap (rest : List Char) (separate : isNameChar c = false) :
    ∃ run others, c :: rest = run ++ others ∧ IsGap run others ∧
      others.length ≤ rest.length := by
  refine ⟨(c :: rest).takeWhile (!isNameChar ·), (c :: rest).dropWhile (!isNameChar ·),
    List.takeWhile_append_dropWhile.symm, .inr ⟨?_, ?_, ?_⟩, ?_⟩
  · simp [separate]
  · intro d member
    have passed : ((c :: rest).takeWhile (!isNameChar ·)).all (!isNameChar ·) = true :=
      List.all_takeWhile
    simpa using List.all_eq_true.1 passed d member
  · intro d starts
    have head := List.head?_dropWhile_not (!isNameChar ·) (c :: rest)
    rw [Option.mem_def.1 starts] at head
    simpa using head
  · simpa [separate] using (rest.dropWhile_suffix (!isNameChar ·)).length_le

end

theorem Alike.alias_from_eq {path other : List Char} (alike : Alike path other) :
    aliasFrom false path = aliasFrom false other := by
  induction alike with
  | nil => rfl
  | name first second same _ ih =>
      rw [alias_from_of_is_name_char false first, alias_from_of_is_name_char false second, same, ih]
  | gap first second _ ih => rw [first.alias_from_append, second.alias_from_append, ih]

theorem lowercase_dotted_i_append_ne {d : Char} {rest others : List Char} :
    lowercase dottedI ++ aliasFrom false rest ≠ [d] ++ aliasFrom false others := by
  rw [lowercase_dotted_i]
  intro same
  have later : combiningDot :: aliasFrom false rest = aliasFrom false others :=
    (List.cons.inj same).2
  exact head_alias_from_ne others (later ▸ rfl)

/-- Characters of names at the front of two paths with one alias are alike, as is what follows. -/
theorem lowercase_append_inj {c d : Char} {rest others : List Char}
    (same : lowercase c ++ aliasFrom false rest = lowercase d ++ aliasFrom false others) :
    lowercase c = lowercase d ∧ aliasFrom false rest = aliasFrom false others := by
  by_cases dotted : c = dottedI
  · by_cases dottedToo : d = dottedI
    · subst dotted
      subst dottedToo
      exact ⟨rfl, List.append_cancel_left same⟩
    · obtain ⟨lower, lowers, -⟩ := exists_lowercase_eq dottedToo
      rw [dotted, lowers] at same
      exact absurd same lowercase_dotted_i_append_ne
  · obtain ⟨lower, lowers, -⟩ := exists_lowercase_eq dotted
    by_cases dottedToo : d = dottedI
    · rw [dottedToo, lowers] at same
      exact absurd same.symm lowercase_dotted_i_append_ne
    · obtain ⟨lowerToo, lowersToo, -⟩ := exists_lowercase_eq dottedToo
      rw [lowers, lowersToo] at same
      rw [lowers, lowersToo]
      exact ⟨congrArg (fun c => [c]) (List.cons.inj same).1, (List.cons.inj same).2⟩

/-- A character of a name that the alias shows as an underscore is one. -/
theorem is_gap_of_lowercase_append {c : Char} {rest others : List Char}
    (same : lowercase c ++ aliasFrom false rest = '_' :: aliasFrom false others) :
    c = '_' ∧ aliasFrom false rest = aliasFrom false others := by
  by_cases dotted : c = dottedI
  · rw [dotted, lowercase_dotted_i] at same
    exact absurd (List.cons.inj same).1 (by decide)
  · obtain ⟨lower, lowers, kind⟩ := exists_lowercase_eq dotted
    rw [lowers] at same
    exact ⟨kind.underscore.1 (List.cons.inj same).1, (List.cons.inj same).2⟩

theorem alike_of_alias_from_eq (path other : List Char)
    (same : aliasFrom false path = aliasFrom false other) : Alike path other := by
  match path, other with
  | [], [] => exact .nil
  | [], d :: others => exact absurd same.symm alias_from_cons_ne_nil
  | c :: rest, [] => exact absurd same alias_from_cons_ne_nil
  | c :: rest, d :: others =>
      cases named : isNameChar c with
      | true =>
          rw [alias_from_of_is_name_char false named] at same
          cases namedToo : isNameChar d with
          | true =>
              rw [alias_from_of_is_name_char false namedToo] at same
              obtain ⟨first, later⟩ := lowercase_append_inj same
              exact .name named namedToo first (alike_of_alias_from_eq rest others later)
          | false =>
              obtain ⟨run, after, split, isGap, shorter⟩ := exists_gap others namedToo
              rw [split, isGap.alias_from_append] at same
              obtain ⟨rfl, later⟩ := is_gap_of_lowercase_append same
              rw [split]
              exact @Alike.gap ['_'] _ _ _ (.inl rfl) isGap
                (alike_of_alias_from_eq rest after later)
      | false =>
          obtain ⟨run, after, split, isGap, shorter⟩ := exists_gap rest named
          rw [split, isGap.alias_from_append] at same
          cases namedToo : isNameChar d with
          | true =>
              rw [alias_from_of_is_name_char false namedToo] at same
              obtain ⟨rfl, later⟩ := is_gap_of_lowercase_append same.symm
              rw [split]
              exact @Alike.gap _ ['_'] _ _ isGap (.inl rfl)
                (alike_of_alias_from_eq after others later.symm)
          | false =>
              obtain ⟨runToo, afterToo, splitToo, isGapToo, -⟩ := exists_gap others namedToo
              rw [splitToo, isGapToo.alias_from_append] at same
              rw [split, splitToo]
              exact .gap isGap isGapToo
                (alike_of_alias_from_eq after afterToo (List.cons.inj same).2)
termination_by path.length

/-- Two package paths have the same alias exactly if they are alike. -/
theorem package_alias_eq_iff {package other : String} :
    packageAlias package = packageAlias other ↔ Alike package.toList other.toList := by
  unfold packageAlias
  rw [String.ofList_inj]
  exact ⟨alike_of_alias_from_eq _ _, Alike.alias_from_eq⟩

section

variable {c : Char}

theorem is_name_part_lowercase_iff :
    (∀ d ∈ lowercase c, Go.Lexeme.isNamePart d = true) ↔
      c = '_' ∨ isLetter c = true ∧ c ≠ dottedI ∨ isDecimalDigit c = true := by
  by_cases dotted : c = dottedI
  · have noPart : Go.Lexeme.isNamePart combiningDot = false := by decide +kernel
    have noDigit : isDecimalDigit dottedI = false := by decide +kernel
    have apart : dottedI ≠ '_' := by decide
    simp [dotted, lowercase_dotted_i, noPart, noDigit, apart]
  · obtain ⟨d, lower, kind⟩ := exists_lowercase_eq dotted
    rw [lower]
    simp only [List.mem_singleton, forall_eq, Go.Lexeme.isNamePart, Bool.or_eq_true, beq_iff_eq,
      kind.letter, kind.digit, kind.underscore, dotted, ne_eq, not_false_eq_true, and_true]
    exact or_assoc.trans or_left_comm

theorem is_name_part_alias_from_iff (separated : Bool) (path : List Char) :
    (∀ d ∈ aliasFrom separated path, Go.Lexeme.isNamePart d = true) ↔
      ∀ c ∈ path, isNameChar c = true →
        c = '_' ∨ isLetter c = true ∧ c ≠ dottedI ∨ isDecimalDigit c = true := by
  induction path generalizing separated with
  | nil => simp [aliasFrom]
  | cons c rest ih =>
      unfold aliasFrom
      have underscore : Go.Lexeme.isNamePart '_' = true := by decide
      split
      · rename_i named
        simp [or_imp, forall_and, is_name_part_lowercase_iff, ih, named]
      · rename_i separate
        split
        · simp [ih, separate]
        · simp [ih, separate, underscore]

end

theorem is_name_start_head_alias_from_iff {c : Char} (rest : List Char) (plain : c ≠ dottedI) :
    (∀ d ∈ (aliasFrom false (c :: rest)).head?, Go.Lexeme.isNameStart d = true) ↔
      (isNameChar c = true → c = '_' ∨ isLetter c = true) := by
  unfold aliasFrom
  split
  · rename_i named
    obtain ⟨d, lower, kind⟩ := exists_lowercase_eq plain
    rw [lower]
    simp only [List.cons_append, List.head?_cons, Option.mem_some_iff, forall_eq', named,
      Go.Lexeme.isNameStart, Bool.or_eq_true, beq_iff_eq, kind.letter, kind.underscore]
    rw [or_comm]
    exact ⟨fun starts _ => starts, fun starts => starts trivial⟩
  · rename_i separate
    have underscore : Go.Lexeme.isNameStart '_' = true := by decide
    simp [separate, underscore]

/-- The alias of a path is an identifier exactly if the path spells one. -/
theorem is_identifier_alias_from_iff {path : List Char} :
    Go.IsIdentifier (aliasFrom false path) ↔ SpellsIdentifier path := by
  cases path with
  | nil => exact ⟨fun is => absurd rfl is.nonempty, fun spells => absurd rfl spells.nonempty⟩
  | cons c rest =>
      have plain (parts : ∀ d ∈ c :: rest, isNameChar d = true →
          d = '_' ∨ isLetter d = true ∧ d ≠ dottedI ∨ isDecimalDigit d = true) : c ≠ dottedI := by
        rintro rfl
        have own := parts dottedI List.mem_cons_self (by decide +kernel)
        revert own
        decide +kernel
      constructor
      · intro is
        have parts := (is_name_part_alias_from_iff false _).1 is.parts
        have start := (is_name_start_head_alias_from_iff rest (plain parts)).1 is.start
        exact ⟨List.cons_ne_nil _ _, fun d first => Option.some.inj first ▸ start, parts⟩
      · intro spells
        have start := is_name_start_head_alias_from_iff rest (plain spells.parts)
        exact ⟨alias_from_cons_ne_nil, start.2 (spells.start c rfl),
          (is_name_part_alias_from_iff false _).2 spells.parts⟩

end EndpointAtlas
