import EndpointAtlas.Proofs.Scan.Names

/-!
Components of paths that are written in bytes. A name that is joined to a path is one more component
of it. What is shown of a name is a name, and it is the name itself exactly if that is a text.
-/

namespace EndpointAtlas

open Text

namespace Text.Glyph

theorem mem_of_mem_lossy_after {glyphs : List Glyph} {tests : List (UInt8 → Bool)} {c : Char}
    (member : c ∈ lossyAfter tests glyphs) : c = replacement ∨ .char c ∈ glyphs := by
  induction glyphs generalizing tests with
  | nil => cases tests <;> cases member
  | cons first rest ih =>
      have later {tests : List (UInt8 → Bool)} (inner : c ∈ lossyAfter tests rest) :
          c = replacement ∨ .char c ∈ first :: rest :=
        (ih inner).imp_right (List.mem_cons_of_mem _)
      have replaced {tests : List (UInt8 → Bool)}
          (inner : c ∈ replacement :: lossyAfter tests rest) :
          c = replacement ∨ .char c ∈ first :: rest :=
        (List.mem_cons.1 inner).elim .inl later
      cases first with
      | char value =>
          have own : c ∈ value :: lossyAfter [] rest := by
            cases tests <;> exact member
          rcases List.mem_cons.1 own with rfl | inner
          · exact .inr List.mem_cons_self
          · exact later inner
      | stray byte =>
          cases tests with
          | nil => exact replaced member
          | cons test others =>
              rw [lossyAfter] at member
              split at member
              · exact later member
              · exact replaced member

theorem eq_chars_of_lossy_after {glyphs : List Glyph} {chars : List Char}
    (shown : lossyAfter [] glyphs = chars) (whole : replacement ∉ chars) :
    glyphs = chars.map char := by
  induction glyphs generalizing chars with
  | nil =>
      subst shown
      rfl
  | cons first rest ih =>
      subst shown
      cases first with
      | char value =>
          rw [lossyAfter, List.map_cons]
          exact congrArg _ (ih rfl fun later => whole (List.mem_cons_of_mem _ later))
      | stray byte => exact absurd List.mem_cons_self whole

theorem lossy_after_ne_nil {glyphs : List Glyph} (nonempty : glyphs ≠ []) :
    lossyAfter [] glyphs ≠ [] := by
  cases glyphs with
  | nil => exact absurd rfl nonempty
  | cons first rest => cases first <;> exact List.cons_ne_nil _ _

end Text.Glyph

namespace RawPath

def leading (path : RawPath) : List (List Glyph) :=
  if path.isAbsolute then [[slash]]
  else if path.parts.head? = some (Glyph.ofString ".") then [Glyph.ofString "."]
  else []

def isTurn (part : List Glyph) : Bool := !part.isEmpty && part != Glyph.ofString "."

/-- The components of a path, each as it is written; the root is written as a slash. -/
def components (path : RawPath) : List (List Glyph) := path.leading ++ path.parts.filter isTurn

theorem is_entry_name_lossy {part : List Glyph} (normal : isNormalPart part = true)
    (clean : slash ∉ part) : IsEntryName (Glyph.lossy part) := by
  simp only [isNormalPart, Bool.and_eq_true, Bool.not_eq_true', List.isEmpty_eq_false_iff,
    bne_iff_ne, ne_eq] at normal
  obtain ⟨⟨nonempty, point⟩, points⟩ := normal
  have kept {chars : List Char} (whole : Glyph.replacement ∉ chars)
      (other : part ≠ chars.map Glyph.char) : Glyph.lossyAfter [] part ≠ chars :=
    fun shown => other (Glyph.eq_chars_of_lossy_after shown whole)
  rw [IsEntryName, Glyph.lossy, String.toList_ofList]
  constructor
  · have first := kept (by decide : Glyph.replacement ∉ ['.']) point
    have second := kept (by decide : Glyph.replacement ∉ ['.', '.']) points
    simp [Path.isNormalPart, Glyph.lossy_after_ne_nil nonempty, first, second]
  · intro inner
    rcases Glyph.mem_of_mem_lossy_after inner with same | within
    · cases same
    · exact clean within

theorem is_entry_name_of_mem_normal_parts {path : RawPath} {part : List Glyph}
    (member : part ∈ path.normalParts) : IsEntryName (Glyph.lossy part) :=
  have ⟨within, normal⟩ := List.mem_filter.1 member
  is_entry_name_lossy normal (not_mem_of_mem_split_on within)

section

variable {base : RawPath} {part : List Glyph}

theorem normal_of_entry_name {name : String} (named : IsEntryName name) :
    isNormalPart (Glyph.ofString name) = true ∧ slash ∉ Glyph.ofString name := by
  refine ⟨(is_normal_part_of_chars _).trans named.1, fun inner => named.2 ?_⟩
  obtain ⟨c, member, same⟩ := List.mem_map.1 inner
  exact Glyph.char.inj same ▸ member

section

variable (clean : slash ∉ part)

include clean

theorem is_absolute_of_slash_not_mem : isAbsolute ⟨part⟩ = false := by
  unfold isAbsolute
  cases part with
  | nil => rfl
  | cons first rest => simpa using Ne.symm (List.ne_of_not_mem_cons clean)

theorem join_eq : base.join ⟨part⟩ = ⟨base.glyphs ++
    (if base.glyphs.isEmpty || base.glyphs.getLast? == some slash then [] else [slash]) ++
      part⟩ := by
  rw [join, is_absolute_of_slash_not_mem clean, if_neg Bool.false_ne_true]

theorem join_empty : (RawPath.mk []).join ⟨part⟩ = ⟨part⟩ := join_eq clean

theorem is_absolute_join (nonempty : base.glyphs ≠ []) :
    (base.join ⟨part⟩).isAbsolute = base.isAbsolute := by
  rw [join_eq clean, isAbsolute, isAbsolute, List.append_assoc,
    List.head?_append_of_ne_nil _ nonempty]

theorem exists_parts_join (nonempty : base.glyphs ≠ []) : ∃ before, before ≠ [] ∧
    (base.parts = before ∨ base.parts = before ++ [[]]) ∧
      (base.join ⟨part⟩).parts = before ++ [part] := by
  obtain ⟨before, split, joined⟩ := exists_split_on_joined clean nonempty
  refine ⟨before, ?_, split, by rw [join_eq clean, parts, joined]⟩
  rintro rfl
  have whole := @List.intercalate_splitOn _ base.glyphs _ _ slash
  rcases split with none | empty
  · exact List.splitOn_ne_nil _ _ none
  · rw [empty] at whole
    exact nonempty (by simpa using whole.symm)

end

theorem is_turn_of_normal (normal : isNormalPart part = true) : isTurn part = true :=
  (Bool.and_eq_true_iff.1 normal).1

theorem components_join (normal : isNormalPart part = true) (clean : slash ∉ part) :
    (base.join ⟨part⟩).components = base.components ++ [part] := by
  have turn := is_turn_of_normal normal
  have notPoint : part ≠ Glyph.ofString "." := (bne_iff_ne.1 (Bool.and_eq_true_iff.1 turn).2)
  by_cases empty : base.glyphs = []
  · obtain ⟨glyphs⟩ := base
    obtain rfl : glyphs = [] := empty
    have alone : (RawPath.mk part).parts = [part] := split_on_of_not_mem clean
    have nothing : (RawPath.mk []).components = [] := by decide
    rw [join_empty clean, nothing, components, leading, is_absolute_of_slash_not_mem clean, alone]
    simp [notPoint, turn]
  · obtain ⟨before, started, split, joined⟩ := exists_parts_join clean empty
    have start : (base.join ⟨part⟩).leading = base.leading := by
      rw [leading, leading, is_absolute_join clean empty, joined,
        List.head?_append_of_ne_nil _ started]
      rcases split with split | split
      · rw [split]
      · rw [split, List.head?_append_of_ne_nil _ started]
    have turns : base.parts.filter isTurn = before.filter isTurn := by
      rcases split with split | split
      · rw [split]
      · rw [split, List.filter_append]
        exact List.append_nil _
    rw [components, start, joined, List.filter_append, List.filter_singleton, turn, components,
      turns, List.append_assoc]
    rfl

end

theorem components_foldl_join {names : List String} (base : RawPath)
    (named : ∀ name ∈ names, IsEntryName name) :
    (names.foldl (fun dir name => dir.join (.ofPath ⟨name⟩)) base).components =
      base.components ++ names.map Glyph.ofString := by
  induction names generalizing base with
  | nil => simp
  | cons name rest ih =>
      have ⟨normal, clean⟩ := normal_of_entry_name (named name List.mem_cons_self)
      rw [List.foldl_cons, ih _ fun other member => named other (List.mem_cons_of_mem _ member),
        ofPath, components_join normal clean]
      simp

def isName (component : List Glyph) : Bool := isNormalPart component && component != [slash]

theorem filter_is_name_components (path : RawPath) :
    path.components.filter isName = path.normalParts := by
  have start : path.leading.filter isName = [] := by
    unfold leading
    split
    · rfl
    · split <;> rfl
  rw [components, List.filter_append, start, List.nil_append, List.filter_filter, normalParts]
  apply List.filter_congr
  intro part within
  have clean : part ≠ [slash] := by
    rintro rfl
    exact not_mem_of_mem_split_on within List.mem_cons_self
  cases normal : isNormalPart part with
  | false => simp [isName, normal]
  | true => simp [isName, normal, clean, is_turn_of_normal normal]

theorem normal_parts_of_components {path : RawPath} {names : List String}
    (named : ∀ name ∈ names, IsEntryName name)
    (same : path.components = names.map Glyph.ofString) :
    path.normalParts = names.map Glyph.ofString := by
  rw [← filter_is_name_components, same, List.filter_eq_self]
  intro component member
  obtain ⟨name, listed, rfl⟩ := List.mem_map.1 member
  have ⟨normal, clean⟩ := normal_of_entry_name (named name listed)
  have other : Glyph.ofString name ≠ [slash] := fun whole => clean (whole ▸ List.mem_cons_self)
  simp [isName, normal, other]

end RawPath

end EndpointAtlas
