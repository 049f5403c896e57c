import Mathlib.Data.List.Basic
import EndpointAtlas.Assembly.Schemas

/-!
The fields of a struct as JSON shows them: which of them, under which keys, and which it may leave
out. A later field of a key takes the place of the earlier ones.
-/

namespace EndpointAtlas

open Go

def jsonTag? (field : Field) : Option String :=
  field.tag.bind fun tag => StructTag.lookup tag "json"

/-- Whether a field is called so: it is declared with the name, or it is embedded and its type has
the name, under any pointers. -/
inductive Called (field : Field) : String → Prop where
  | declared {name : String} : field.name = some name → Called field name
  | embedded {name : String} :
      field.name = none → field.type.deref = .ident name → Called field name
  | imported {package name : String} :
      field.name = none → field.type.deref = .qualified package name → Called field name

/-- Whether JSON shows a field under a key: the part of its tag before the first comma or, if that
is empty or there is no tag, its name. -/
inductive ShownAs (field : Field) : String → Prop where
  | untagged {name : String} : Called field name → isExported name = true →
      jsonTag? field = none → ShownAs field name
  | unnamed {name value : String} : Called field name → isExported name = true →
      jsonTag? field = some value → value.toList.takeWhile (· != ',') = [] → ShownAs field name
  | named {name value key : String} : Called field name → isExported name = true →
      jsonTag? field = some value → value ≠ "-" → value.toList.takeWhile (· != ',') = key.toList →
        key ≠ "" → ShownAs field key

def OmitsEmpty (field : Field) : Prop :=
  ∃ value, jsonTag? field = some value ∧ "omitempty".toList ∈ (value.toList.splitOn ',').tail

def Needed (field : Field) : Prop := ¬ OmitsEmpty field ∧ isPointer field.type = false

/-- The keys of the fields that are shown, in the order of the fields. -/
inductive KeysOf : List Field → List String → Prop where
  | nil : KeysOf [] []
  | shown {field : Field} {key : String} {rest : List Field} {keys : List String} :
      ShownAs field key → KeysOf rest keys → KeysOf (field :: rest) (key :: keys)
  | hidden {field : Field} {rest : List Field} {keys : List String} :
      (∀ key, ¬ ShownAs field key) → KeysOf rest keys → KeysOf (field :: rest) keys

/-- Whether a field is the last one that is shown under a key. -/
inductive LastShown : List Field → String → Field → Prop where
  | here {field : Field} {key : String} {rest : List Field} : ShownAs field key →
      (∀ other ∈ rest, ¬ ShownAs other key) → LastShown (field :: rest) key field
  | later {field other : Field} {key : String} {rest : List Field} :
      LastShown rest key field → LastShown (other :: rest) key field

theorem called_iff {field : Field} {name : String} :
    Called field name ↔ fieldName? field.name field.type = some name := by
  constructor
  · intro called
    cases called with
    | declared same => simp [fieldName?, same]
    | embedded unnamed same => simp [fieldName?, unnamed, same]
    | imported unnamed same => simp [fieldName?, unnamed, same]
  · intro found
    unfold fieldName? at found
    split at found
    · rename_i same
      exact .declared (found ▸ same)
    · rename_i unnamed
      split at found
      · rename_i same
        exact .embedded unnamed (Option.some.inj found ▸ same)
      · rename_i same
        exact .imported unnamed (Option.some.inj found ▸ same)
      · cases found

theorem head_split_on (text : List Char) :
    (text.splitOn ',').head? = some (text.takeWhile (· != ',')) := by
  unfold List.splitOn
  induction text with
  | nil => rfl
  | cons first rest ih =>
      rw [List.splitOnP_cons_eq_if_modifyHead]
      by_cases comma : first = ','
      · simp [comma]
      · simp [comma, ih, List.head?_modifyHead]

section

variable {field : Field} {label : FieldLabel} {key : String}

theorem field_label_eq_some_iff : fieldLabel? field.name field.type field.tag = some label ↔
    ∃ name, Called field name ∧ isExported name = true ∧
      FieldLabel.ofTag? name field.tag = some label := by
  simp only [called_iff]
  unfold fieldLabel?
  split
  · rename_i unnamed
    simp [unnamed]
  · rename_i name named
    by_cases exported : isExported name = true <;> simp [named, exported]

def labelOf (name value : String) : FieldLabel :=
  let key := value.toList.takeWhile (· != ',')
  ⟨if key = [] then name else .ofList key,
    decide ("omitempty".toList ∈ (value.toList.splitOn ',').tail)⟩

theorem of_tag_eq_some_iff {name : String} : FieldLabel.ofTag? name field.tag = some label ↔
    jsonTag? field = none ∧ label = ⟨name, false⟩ ∨
      ∃ value, jsonTag? field = some value ∧ value ≠ "-" ∧ label = labelOf name value := by
  unfold FieldLabel.ofTag? jsonTag?
  split
  · rename_i untagged
    rw [untagged]
    simpa using eq_comm
  · rename_i value tagged
    rw [tagged]
    by_cases hidden : value = "-"
    · simp [hidden]
    · have same : (⟨if (String.ofList ((value.toList.splitOn ',').head?.getD [])).isEmpty then name
            else .ofList ((value.toList.splitOn ',').head?.getD []),
          (value.toList.splitOn ',').tail.contains "omitempty".toList⟩ : FieldLabel) =
            labelOf name value := by
        simp only [labelOf, head_split_on, Option.getD_some, List.contains_eq_mem]
        simp
      simp only [beq_iff_eq, if_neg hidden, same]
      simp [hidden, eq_comm]

theorem shown_as_iff : ShownAs field key ↔
    ∃ label, fieldLabel? field.name field.type field.tag = some label ∧ label.key = key := by
  simp only [field_label_eq_some_iff, of_tag_eq_some_iff]
  constructor
  · intro shown
    cases shown with
    | untagged called exported untagged =>
        exact ⟨_, ⟨key, called, exported, .inl ⟨untagged, rfl⟩⟩, rfl⟩
    | @unnamed _ value called exported tagged empty =>
        have shown : value ≠ "-" := fun same => by simp [same] at empty
        exact ⟨_, ⟨key, called, exported, .inr ⟨value, tagged, shown, rfl⟩⟩, if_pos empty⟩
    | @named name value _ called exported tagged shown same nonempty =>
        refine ⟨_, ⟨name, called, exported, .inr ⟨value, tagged, shown, rfl⟩⟩, ?_⟩
        simp [labelOf, same, nonempty]
  · rintro ⟨_, ⟨name, called, exported, ⟨untagged, rfl⟩ | ⟨value, tagged, shown, rfl⟩⟩, rfl⟩
    · exact .untagged called exported untagged
    · by_cases empty : value.toList.takeWhile (· != ',') = []
      · simp only [labelOf, if_pos empty]
        exact .unnamed called exported tagged empty
      · simp only [labelOf, if_neg empty]
        exact .named called exported tagged shown (by simp) (by simpa using empty)

theorem omits_empty_iff (labelled : fieldLabel? field.name field.type field.tag = some label) :
    label.omitempty = true ↔ OmitsEmpty field := by
  simp only [field_label_eq_some_iff, of_tag_eq_some_iff] at labelled
  obtain ⟨name, -, -, ⟨untagged, rfl⟩ | ⟨value, tagged, -, rfl⟩⟩ := labelled
  · simp [OmitsEmpty, untagged]
  · simp only [OmitsEmpty, tagged, labelOf, decide_eq_true_eq, Option.some.injEq, exists_eq_left']

instance : Decidable (ShownAs field key) :=
  decidable_of_iff ((fieldLabel? field.name field.type field.tag).map (·.key) = some key)
    (Option.map_eq_some_iff.trans shown_as_iff.symm)

instance : Decidable (OmitsEmpty field) :=
  decidable_of_iff (∃ value ∈ jsonTag? field, "omitempty".toList ∈ (value.toList.splitOn ',').tail)
    Iff.rfl

instance : Decidable (Needed field) := inferInstanceAs (Decidable (_ ∧ _))

theorem ShownAs.unique {other : String} (first : ShownAs field key)
    (second : ShownAs field other) : key = other := by
  obtain ⟨label, labelled, rfl⟩ := shown_as_iff.1 first
  obtain ⟨again, same, rfl⟩ := shown_as_iff.1 second
  rw [Option.some.inj (labelled.symm.trans same)]

end

section

variable {fields : List Field} {field : Field} {key : String}

theorem LastShown.mem (last : LastShown fields key field) : field ∈ fields := by
  induction last with
  | here => exact List.mem_cons_self
  | later _ ih => exact List.mem_cons_of_mem _ ih

theorem LastShown.shown_as (last : LastShown fields key field) : ShownAs field key := by
  induction last with
  | here shown => exact shown
  | later _ ih => exact ih

theorem exists_last_shown (shown : ∃ field ∈ fields, ShownAs field key) :
    ∃ field, LastShown fields key field := by
  induction fields with
  | nil => simp at shown
  | cons first rest ih =>
      by_cases later : ∃ field ∈ rest, ShownAs field key
      · obtain ⟨field, last⟩ := ih later
        exact ⟨field, .later last⟩
      · obtain ⟨field, member, shows⟩ := shown
        rcases List.mem_cons.1 member with rfl | within
        · exact ⟨field, .here shows fun other member shows => later ⟨other, member, shows⟩⟩
        · exact absurd ⟨field, within, shows⟩ later

theorem KeysOf.mem_iff {keys : List String} (listed : KeysOf fields keys) :
    key ∈ keys ↔ ∃ field ∈ fields, ShownAs field key := by
  induction listed with
  | nil => simp
  | @shown first other rest keys shown _ ih =>
      have only : key = other ↔ ShownAs first key :=
        ⟨fun same => same ▸ shown, fun again => again.unique shown⟩
      simp [ih, only]
  | hidden hidden _ ih => simp [ih, hidden]

end

end EndpointAtlas
