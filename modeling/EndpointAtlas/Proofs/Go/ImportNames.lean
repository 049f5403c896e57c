import Mathlib.Data.List.DropRight
import EndpointAtlas.Go.Imports
import EndpointAtlas.Proofs.Text.Trimming

/-!
Names of imported packages. A package that is imported without a name is known by the last element
of its path, and a version that follows the path after a slash or a point does not change that. A
name that several imports of a file share stands for the last of them.
-/

namespace EndpointAtlas

open Text

namespace Text

variable {mark : Char} {text before after : List Char}

theorem cut_last_mark_append (clean : mark ∉ after) :
    cutLast (· == mark) (before ++ mark :: after) = some (before, after) := by
  have mirrored : (before ++ mark :: after).reverse = after.reverse ++ mark :: before.reverse := by
    simp
  rw [cutLast, mirrored, cut_first_mark_eq_some_iff.2 ⟨rfl, by simpa using clean⟩]
  simp

theorem cut_last_mark_eq_none (clean : mark ∉ text) : cutLast (· == mark) text = none :=
  cut_last_eq_none_iff.2 fun _ member => beq_eq_false_iff_ne.2 fun same => clean (same ▸ member)

/-- A text has no mark, or a last one. -/
theorem cut_last_mark_cases (mark : Char) (text : List Char) : mark ∉ text ∨
    ∃ before after, text = before ++ mark :: after ∧ mark ∉ after := by
  cases cut : cutLast (· == mark) text with
  | none =>
      refine .inl fun member => ?_
      have apart := cut_last_eq_none_iff.1 cut mark member
      rw [beq_self_eq_true] at apart
      cases apart
  | some parts =>
      obtain ⟨other, marked, split, clean⟩ := cut_last_eq_some cut
      obtain rfl := beq_iff_eq.1 marked
      exact .inr ⟨parts.1, parts.2, split, fun member => by simpa using clean _ member⟩

end Text

namespace Go

def IsVersion (element : List Char) : Prop :=
  ∃ digits, digits ≠ [] ∧ (∀ c ∈ digits, c.isDigit = true) ∧ element = 'v' :: digits

def lastElement (path : List Char) : List Char := path.rtakeWhile (· != '/')

section

variable {path before element version : List Char}

theorem is_major_version_iff : isMajorVersion element = true ↔ IsVersion element := by
  unfold isMajorVersion
  split
  · rename_i digits
    simp [IsVersion]
  · rename_i other
    refine ⟨nofun, ?_⟩
    rintro ⟨digits, -, -, rfl⟩
    exact absurd rfl (other digits)

theorem IsVersion.not_mem (isVersion : IsVersion version) (mark : Char) (other : mark ≠ 'v')
    (noDigit : mark.isDigit = false) : mark ∉ version := by
  obtain ⟨digits, -, digit, rfl⟩ := isVersion
  intro member
  rcases List.mem_cons.1 member with same | later
  · exact other same
  · rw [digit mark later] at noDigit
    cases noDigit

theorem slash_not_mem_last_element (path : List Char) : '/' ∉ lastElement path := fun member => by
  simpa using List.mem_rtakeWhile_imp member

theorem last_element_eq_self (whole : '/' ∉ path) : lastElement path = path := by
  refine List.rtakeWhile_eq_self_iff.2 fun c member => bne_iff_ne.2 ?_
  rintro rfl
  exact whole member

theorem last_element_append (whole : '/' ∉ element) :
    lastElement (before ++ '/' :: element) = element := by
  unfold lastElement List.rtakeWhile
  rw [List.reverse_append, List.reverse_cons, List.append_assoc, List.takeWhile_append_of_pos]
  · simp
  · intro c member
    refine bne_iff_ne.2 ?_
    rintro rfl
    exact whole (List.mem_reverse.1 member)

theorem name_element_of_not_is_version (plain : ¬ IsVersion (lastElement path)) :
    nameElement path = lastElement path := by
  unfold nameElement
  rcases cut_last_mark_cases '/' path with whole | ⟨before, element, rfl, whole⟩
  · rw [cut_last_mark_eq_none whole, last_element_eq_self whole]
  · rw [last_element_append whole] at plain ⊢
    rw [cut_last_mark_append whole]
    exact if_neg (mt is_major_version_iff.1 plain)

theorem name_element_append_version (isVersion : IsVersion version) :
    nameElement (path ++ '/' :: version) = lastElement path := by
  unfold nameElement
  rw [cut_last_mark_append (isVersion.not_mem '/' (by decide) (by decide))]
  dsimp only
  rw [if_pos (is_major_version_iff.2 isVersion)]
  rcases cut_last_mark_cases '/' path with whole | ⟨before, element, rfl, whole⟩
  · rw [cut_last_mark_eq_none whole, last_element_eq_self whole]
  · rw [cut_last_mark_append whole, last_element_append whole]

theorem slash_not_mem_name_element (path : List Char) : '/' ∉ nameElement path := by
  by_cases versioned : IsVersion (lastElement path)
  · rcases cut_last_mark_cases '/' path with whole | ⟨before, element, rfl, whole⟩
    · unfold nameElement
      rwa [cut_last_mark_eq_none whole]
    · rw [last_element_append whole] at versioned
      rw [name_element_append_version versioned]
      exact slash_not_mem_last_element before
  · rw [name_element_of_not_is_version versioned]
    exact slash_not_mem_last_element path

theorem slash_not_mem_default_name (path : List Char) : '/' ∉ defaultName path := by
  have whole := slash_not_mem_name_element path
  unfold defaultName
  dsimp only
  rcases cut_last_mark_cases '.' (nameElement path) with plain | ⟨base, ending, split, clean⟩
  · rwa [cut_last_mark_eq_none plain]
  · rw [split, cut_last_mark_append clean]
    dsimp only
    split
    · exact fun member => whole (split ▸ List.mem_append_left _ member)
    · rwa [← split]

theorem default_name_append_slash (plain : ¬ IsVersion (lastElement path))
    (isVersion : IsVersion version) :
    defaultName (path ++ '/' :: version) = defaultName path := by
  rw [defaultName, name_element_append_version isVersion, defaultName,
    name_element_of_not_is_version plain]

theorem last_element_append_point (isVersion : IsVersion version) :
    lastElement (path ++ '.' :: version) = lastElement path ++ '.' :: version := by
  have whole {element : List Char} (clean : '/' ∉ element) : '/' ∉ element ++ '.' :: version := by
    have ending := isVersion.not_mem '/' (by decide) (by decide)
    simp [clean, ending]
  rcases cut_last_mark_cases '/' path with clean | ⟨before, element, rfl, clean⟩
  · rw [last_element_eq_self (whole clean), last_element_eq_self clean]
  · rw [last_element_append clean, List.append_assoc, List.cons_append,
      last_element_append (whole clean)]

theorem default_name_append_point (isVersion : IsVersion version) (known : lastElement path ≠ []) :
    defaultName (path ++ '.' :: version) = lastElement path := by
  have plain : ¬ IsVersion (lastElement (path ++ '.' :: version)) := by
    rw [last_element_append_point isVersion]
    exact fun other => other.not_mem '.' (by decide) (by decide) (by simp)
  have point := isVersion.not_mem '.' (by decide) (by decide)
  rw [defaultName, name_element_of_not_is_version plain, last_element_append_point isVersion,
    cut_last_mark_append point]
  simp [known, is_major_version_iff.2 isVersion]

end

/-- Whether a name is the one that an import states or, if it states none, that of its path. -/
def ImportSpec.Names (spec : ImportSpec) (name : String) : Prop :=
  spec.name = some name ∨ spec.name = none ∧ defaultName spec.path.toList = name.toList

/-- Whether a path is that of the last import with a name. -/
def LastNamed (specs : List ImportSpec) (name path : String) : Prop :=
  ∃ earlier spec later, specs = earlier ++ spec :: later ∧ spec.Names name ∧ spec.path = path ∧
    ∀ other ∈ later, ¬ other.Names name

section

variable {specs : List ImportSpec} {name path : String}

theorem ImportSpec.names_iff {spec : ImportSpec} : spec.Names name ↔ spec.aliasName = name := by
  unfold Names aliasName
  cases spec.name with
  | none => simp [← String.toList_inj]
  | some own => simp

theorem get_of_specs_concat (specs : List ImportSpec) (spec : ImportSpec) (name : String) :
    (Imports.ofSpecs (specs ++ [spec])).get? name =
      if name = spec.aliasName then some spec.path else (Imports.ofSpecs specs).get? name := by
  rw [Imports.ofSpecs, List.map_append, Table.ofList, List.foldl_append]
  exact Table.get_insert _ _ _ _

theorem get_of_specs (specs : List ImportSpec) (name : String) :
    (Imports.ofSpecs specs).get? name =
      (specs.reverse.find? (·.aliasName == name)).map (·.path) := by
  induction specs using List.reverseRecOn with
  | nil => rfl
  | append_singleton specs spec ih =>
      rw [get_of_specs_concat, List.reverse_concat, List.find?_cons, ih]
      by_cases same : name = spec.aliasName
      · simp [same]
      · have other : (spec.aliasName == name) = false := beq_eq_false_iff_ne.2 (Ne.symm same)
        rw [if_neg same, other]

theorem get_of_specs_eq_some_iff :
    (Imports.ofSpecs specs).get? name = some path ↔ LastNamed specs name path := by
  rw [get_of_specs, Option.map_eq_some_iff]
  simp only [List.find?_eq_some_iff_append, LastNamed, ImportSpec.names_iff]
  constructor
  · rintro ⟨spec, ⟨named, later, earlier, split, apart⟩, rfl⟩
    refine ⟨earlier.reverse, spec, later.reverse, ?_, by simpa using named, rfl, ?_⟩
    · simpa using congrArg List.reverse split
    · simpa using apart
  · rintro ⟨earlier, spec, later, rfl, named, rfl, apart⟩
    exact ⟨spec, ⟨by simpa using named, later.reverse, earlier.reverse, by simp,
      by simpa using apart⟩, rfl⟩

theorem get_of_specs_eq_none_iff :
    (Imports.ofSpecs specs).get? name = none ↔ ∀ spec ∈ specs, ¬ spec.Names name := by
  rw [get_of_specs, Option.map_eq_none_iff]
  simp [ImportSpec.names_iff]

end

/-- A version after a slash does not change the name of a path that does not end in one, a version
after a point leaves the last element of the path, and no such name has a slash. What a name stands
for among imports is the path of the last import that has it. -/
theorem default_name_of_versions {path version : List Char} (isVersion : IsVersion version) :
    (¬ IsVersion (lastElement path) →
      defaultName (path ++ '/' :: version) = defaultName path) ∧
    (lastElement path ≠ [] → defaultName (path ++ '.' :: version) = lastElement path) ∧
    '/' ∉ defaultName path ∧
    ∀ (specs : List ImportSpec) (name : String),
      (∀ target, (Imports.ofSpecs specs).get? name = some target ↔ LastNamed specs name target) ∧
      ((Imports.ofSpecs specs).get? name = none ↔ ∀ spec ∈ specs, ¬ spec.Names name) :=
  ⟨fun plain => default_name_append_slash plain isVersion, default_name_append_point isVersion,
    slash_not_mem_default_name path,
    fun _ _ => ⟨fun _ => get_of_specs_eq_some_iff, get_of_specs_eq_none_iff⟩⟩

def echoSpecs : List ImportSpec :=
  [⟨none, "x.org/echo/v4"⟩, ⟨some "echo", "y.org/server"⟩, ⟨some "other", "x.org/echo"⟩]

theorem default_name_echo : defaultName "x.org/echo/v4".toList = defaultName "x.org/echo".toList ∧
    defaultName "x.org/echo.v4".toList = "echo".toList ∧
    LastNamed echoSpecs "echo" "y.org/server" ∧ ∀ spec ∈ echoSpecs, ¬ spec.Names "server" := by
  have isVersion : IsVersion ['v', '4'] := is_major_version_iff.1 rfl
  have last : lastElement "x.org/echo".toList = "echo".toList := by decide +kernel
  obtain ⟨slash, point, -, known⟩ := @default_name_of_versions "x.org/echo".toList _ isVersion
  rw [last] at slash point
  exact ⟨slash (mt is_major_version_iff.2 (by decide +kernel)), point (by decide +kernel),
    ((known echoSpecs "echo").1 _).1 (by decide +kernel),
    (known echoSpecs "server").2.1 (by decide +kernel)⟩

end Go

end EndpointAtlas
