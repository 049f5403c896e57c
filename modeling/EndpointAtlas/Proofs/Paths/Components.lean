import EndpointAtlas.Proofs.Scan.Names

/-!
Components of paths, and the place that a path names once its points have been resolved. Joining a
part to a path adds its component, and leads on from the place of the path.
-/

namespace EndpointAtlas

namespace Path

/-- A component of a path. A single point is one only where a path starts with it. -/
inductive Component where
  | root
  | here
  | above
  | name (text : String)
  deriving DecidableEq, Repr

def Component.name? : Component → Option String
  | .name text => some text
  | _ => none

def component? (part : List Char) : Option Component :=
  if part.isEmpty || part == ['.'] then none
  else if part == ['.', '.'] then some .above
  else some (.name (String.ofList part))

def turns (path : Path) : List Component := path.parts.filterMap component?

/-- Where a path leads when its points are resolved without a look at any file: the names that are
left, and for a relative path how far above its start they begin. -/
structure Place where
  absolute : Bool
  climbs : Nat
  names : List String
  deriving DecidableEq, Repr

namespace Place

def enter (place : Place) : Component → Place
  | .name text => { place with names := place.names ++ [text] }
  | .above =>
      if place.names ≠ [] then { place with names := place.names.dropLast }
      else if place.absolute then place
      else { place with climbs := place.climbs + 1 }
  | _ => place

def Within (outer inner : Place) : Prop :=
  inner.absolute = outer.absolute ∧ inner.climbs = outer.climbs ∧ outer.names <+: inner.names

instance (outer inner : Place) : Decidable (Within outer inner) :=
  inferInstanceAs (Decidable (_ ∧ _ ∧ _))

end Place

def place (path : Path) : Place := path.turns.foldl Place.enter ⟨path.isAbsolute, 0, []⟩

theorem component_of_is_normal_part {part : List Char} (normal : isNormalPart part = true) :
    component? part = some (.name (String.ofList part)) := by
  simp only [isNormalPart, Bool.and_eq_true, Bool.not_eq_true', bne_iff_ne, ne_eq] at normal
  simp [component?, normal]

section

variable {base : Path} {part : String}

theorem join_empty (clean : '/' ∉ part.toList) : (Path.mk "").join ⟨part⟩ = ⟨part⟩ := by
  simp [join, is_absolute_of_slash_not_mem clean]

theorem is_absolute_join (clean : '/' ∉ part.toList) :
    (base.join ⟨part⟩).isAbsolute = base.isAbsolute := by
  by_cases empty : base.text = ""
  · obtain ⟨text⟩ := base
    obtain rfl : text = "" := empty
    rw [join_empty clean, is_absolute_of_slash_not_mem clean]
    rfl
  · have chars : base.text.toList ≠ [] := by simpa using empty
    obtain ⟨first, rest, split⟩ := List.exists_cons_of_ne_nil chars
    rw [join, is_absolute_of_slash_not_mem clean]
    simp [isAbsolute, split]

theorem filter_map_component_singleton (part : List Char) :
    [part].filterMap component? = (component? part).toList := by
  rw [List.filterMap_cons]
  cases component? part <;> rfl

theorem turns_of_slash_not_mem (clean : '/' ∉ part.toList) :
    (Path.mk part).turns = (component? part.toList).toList := by
  rw [turns, parts_of_slash_not_mem clean, filter_map_component_singleton]

theorem turns_join (clean : '/' ∉ part.toList) :
    (base.join ⟨part⟩).turns = base.turns ++ (component? part.toList).toList := by
  by_cases empty : base.text = ""
  · obtain ⟨text⟩ := base
    obtain rfl : text = "" := empty
    rw [join_empty clean, turns_of_slash_not_mem clean]
    rfl
  · obtain ⟨before, split, joined⟩ := exists_parts_join clean empty
    unfold turns
    rw [joined, List.filterMap_append, filter_map_component_singleton]
    rcases split with split | split
    · rw [split]
    · rw [split, List.filterMap_append]
      simp [component?]

end

/-- A path that is joined with several parts turns as they say; it starts where it did before. -/
theorem foldl_join {segments : List (List Char)} (base : Path)
    (clean : ∀ part ∈ segments, '/' ∉ part) :
    let path := segments.foldl (fun dir part => dir.join ⟨String.ofList part⟩) base
    path.turns = base.turns ++ segments.filterMap component? ∧
      path.isAbsolute = base.isAbsolute := by
  induction segments generalizing base with
  | nil => simp
  | cons part rest ih =>
      have first : '/' ∉ (String.ofList part).toList := by
        simpa using clean part List.mem_cons_self
      obtain ⟨turned, starts⟩ := ih (base.join ⟨String.ofList part⟩) fun other member =>
        clean other (List.mem_cons_of_mem _ member)
      rw [turns_join first, String.toList_ofList] at turned
      rw [is_absolute_join first] at starts
      refine ⟨?_, starts⟩
      rw [List.foldl_cons, turned, List.append_assoc, List.filterMap_cons]
      cases component? part <;> rfl

end Path

end EndpointAtlas
