import EndpointAtlas.Proofs.Schemas.Places

/-!
The shape in which JSON writes the values of a type. The schema of a type has this shape at every
place, except where it shows an array of bare bytes: a slice of bytes is written as a text, and the
schema takes an array of bytes for one.
-/

namespace EndpointAtlas

open Go

def numberNames : List String := ["float32", "float64"]

def integerNames : List String :=
  ["int", "int8", "int16", "int32", "int64", "uint", "uint8", "uint16", "uint32", "uint64",
    "uintptr", "byte", "rune"]

inductive TableKind : String → Schema → Prop where
  | string : TableKind "string" (.ofKind "string")
  | boolean : TableKind "bool" (.ofKind "boolean")
  | number {name : String} : name ∈ numberNames → TableKind name (.ofKind "number")
  | integer {name : String} : name ∈ integerNames → TableKind name (.ofKind "integer")
  | unspecified {name : String} : name ∉ "string" :: "bool" :: numberNames ++ integerNames →
      TableKind name .unspecified

/-- Whether a schema has the shape in which JSON writes the values of a type where it stands. -/
inductive WireShape (context : Context) : TypeExpr → Schema → Prop where
  | primitive {named : TypeExpr} {ident : Ident} {schema : Schema} :
      context.identify named = .ok ident → ident.isPredeclared = true →
        TableKind ident.name schema → WireShape context named schema
  | reference {named : TypeExpr} {ident : Ident} : context.identify named = .ok ident →
      ident.isPredeclared = false → WireShape context named (.ofReference ident.display)
  | pointer {target : TypeExpr} {schema : Schema} : WireShape context target schema →
      WireShape context (.pointer target) schema
  | bytes : WireShape context (.slice (.ident "byte")) (.ofKind "string")
  | slice {element : TypeExpr} {schema : Schema} : element ≠ .ident "byte" →
      WireShape context element schema → WireShape context (.slice element) (.arrayOf schema)
  | array {element : TypeExpr} {schema : Schema} : WireShape context element schema →
      WireShape context (.array element) (.arrayOf schema)
  | map {key value : TypeExpr} : WireShape context (.map key value) (.ofKind "object")
  | struct {fields : List Field} {required : List String} {entries : List (String × Schema)} :
      (∀ key, key ∈ entries.map Prod.fst ↔ ∃ field ∈ fields, ShownAs field key) →
        (∀ key field value, LastShown fields key field → entries.lookup key = some value →
          WireShape context field.type value) →
          WireShape context (.struct fields)
            { Schema.ofKind "object" with required := required, properties := some entries }
  | interface {elements : List Element} :
      WireShape context (.interface elements) (.ofKind "object")
  | other {text : String} : WireShape context (.other text) .unspecified

theorem table_kind_primitive_schema (name : String) : TableKind name (primitiveSchema name) := by
  unfold primitiveSchema
  split
  · rename_i same
    exact beq_iff_eq.1 same ▸ .string
  · rename_i noString
    split
    · rename_i same
      exact beq_iff_eq.1 same ▸ .boolean
    · rename_i noBoolean
      split
      · rename_i listed
        exact .number (List.contains_iff_mem.1 listed)
      · rename_i noNumber
        split
        · rename_i listed
          exact .integer (List.contains_iff_mem.1 listed)
        · rename_i noInteger
          apply TableKind.unspecified
          rw [beq_iff_eq] at noString noBoolean
          rw [List.contains_iff_mem] at noNumber noInteger
          simp only [List.cons_append, List.mem_cons, List.mem_append, not_or]
          exact ⟨noString, noBoolean, noNumber, noInteger⟩

section

variable {context : Context}

/-- A schema of the right shape has it at every place that is shown. -/
theorem WireShape.at {place : List Schema.Step} {type inner : TypeExpr} {schema value : Schema}
    (wire : WireShape context type schema) (shown : ShownAt place type inner)
    (stands : schema.at? place = some value) : WireShape context inner value := by
  induction shown generalizing schema with
  | here => exact Option.some.inj stands ▸ wire
  | pointer _ ih =>
      cases wire with
      | pointer target => exact ih target stands
      | primitive identified => cases identified
      | reference identified => cases identified
  | slice entered _ ih =>
      cases wire with
      | bytes => cases entered
      | slice _ element => exact ih element stands
      | primitive identified => cases identified
      | reference identified => cases identified
  | array _ _ ih =>
      cases wire with
      | array element => exact ih element stands
      | primitive identified => cases identified
      | reference identified => cases identified
  | field last _ ih =>
      cases wire with
      | struct _ shapes =>
          obtain ⟨part, held, stands⟩ := Option.bind_eq_some_iff.1 stands
          exact ih (shapes _ _ part last held) stands
      | primitive identified => cases identified
      | reference identified => cases identified

theorem WireShape.kind_of_array {element : TypeExpr} {schema : Schema}
    (wire : WireShape context (.array element) schema) : schema.kind = some "array" := by
  cases wire with
  | array => rfl
  | primitive identified => cases identified
  | reference identified => cases identified

end

namespace Assembly

variable {project : Project} {register : Declaration → Assemble Unit} {context : Context}

theorem wire_shape_of_named {named : TypeExpr} {before after : Assembly} {schema : Schema}
    (ran : namedSchema project register context named before = .ok schema after) :
    WireShape context named schema := by
  obtain ⟨rfl, ident, identified⟩ := (named_schema_yields named before).of_ok ran
  simp only [Context.namedSchemaOf, identified]
  split
  · rename_i predeclared
    exact .primitive identified predeclared (table_kind_primitive_schema ident.name)
  · rename_i declared
    exact .reference identified (by simpa using declared)

theorem wire_shape_of_not_shown {type : TypeExpr} {before after : Assembly} {schema : Schema}
    (ran : schemaFor project register context type before = .ok schema after)
    (absent : ∀ place, ¬ ShownAt place type (.array (.ident "byte"))) :
    WireShape context type schema := by
  induction type using TypeExpr.by_fields generalizing before after schema with
  | ident name =>
      unfold schemaFor at ran
      exact wire_shape_of_named ran
  | qualified package name =>
      unfold schemaFor at ran
      exact wire_shape_of_named ran
  | pointer target ih =>
      unfold schemaFor at ran
      exact .pointer (ih ran fun place shown => absent place (.pointer shown))
  | slice element ih =>
      unfold schemaFor at ran
      split at ran
      · rename_i bytes
        cases ran
        exact is_byte_iff.1 bytes ▸ .bytes
      · rename_i entered
        obtain ⟨items, inner, rfl⟩ := exists_ok_of_map ran
        refine .slice (fun same => entered (is_byte_iff.2 same)) (ih inner fun place shown => ?_)
        exact absent (.items :: place) (.slice (by simpa using entered) shown)
  | array element ih =>
      unfold schemaFor at ran
      split at ran
      · rename_i bytes
        exact absurd .here (is_byte_iff.1 bytes ▸ absent [])
      · rename_i entered
        obtain ⟨items, inner, rfl⟩ := exists_ok_of_map ran
        refine .array (ih inner fun place shown => ?_)
        exact absent (.items :: place) (.array (by simpa using entered) shown)
  | map key value =>
      unfold schemaFor at ran
      cases ran
      exact .map
  | struct fields ih =>
      obtain ⟨rfl, gives⟩ := struct_of_ran ran
      refine .struct (fun _ => mem_keys_set_all_iff context) fun key field value last held => ?_
      obtain ⟨start, stop, inner⟩ := (gives field last.mem key last.shown_as).given
      obtain rfl := Option.some.inj (held.symm.trans (lookup_of_last_shown context last []))
      exact ih field last.mem inner fun place shown =>
        absent (.property key :: place) (.field last shown)
  | interface elements =>
      unfold schemaFor at ran
      cases ran
      exact .interface
  | other text =>
      unfold schemaFor at ran
      cases ran
      exact .other

/-- The schema that a run gives for a type has the shape in which JSON writes its values exactly if
it shows no array of bare bytes at any place. -/
theorem wire_shape_of_schema_for {type : TypeExpr} {before after : Assembly} {schema : Schema}
    (ran : schemaFor project register context type before = .ok schema after) :
    WireShape context type schema ↔ ∀ place, ¬ ShownAt place type (.array (.ident "byte")) := by
  constructor
  · intro wire place shown
    obtain rfl := (schema_for_yields type before).of_ok ran
    have bytes := (wire.at shown (at_schema_of shown)).kind_of_array
    simp [Context.schemaOf, isByte, Schema.ofKind] at bytes
  · exact wire_shape_of_not_shown ran

def chunkType : TypeExpr :=
  .struct [⟨some "Raw", .pointer (.slice (.ident "byte")), none⟩,
    ⟨some "Parts", .array (.slice (.ident "byte")), none⟩]

/-- Its schema shows slices of bytes as texts and an array of them as an array. -/
theorem wire_shape_chunk_type : ∃ schema after,
    schemaFor bareProject (registerType bareProject 0) bareContext chunkType .initial =
      .ok schema after ∧
      ((schema.at? [.property "Raw"]).bind (·.kind) = some "string" ∧
        (schema.at? [.property "Parts"]).bind (·.kind) = some "array") ∧
      WireShape bareContext chunkType schema := by
  have shown : ((schemaFor bareProject (registerType bareProject 0) bareContext
      chunkType).run' .initial).map (fun schema => ((schema.at? [.property "Raw"]).bind (·.kind),
        (schema.at? [.property "Parts"]).bind (·.kind))) =
      some (some "string", some "array") := by decide +kernel
  obtain ⟨schema, after, ran, shown⟩ := exists_ok_of_run' shown
  refine ⟨schema, after, ran, Prod.mk.inj shown, (wire_shape_of_schema_for ran).2 ?_⟩
  intro place shown
  cases shown with
  | field last inner =>
      rcases List.mem_cons.1 last.mem with rfl | later
      · cases inner with
        | pointer inner =>
            cases inner with
            | slice entered => cases entered
      · obtain rfl := List.mem_singleton.1 later
        cases inner with
        | array _ inner =>
            cases inner with
            | slice entered => cases entered

/-- An array of bytes has the shape of a text. -/
theorem not_wire_shape_byte_array : ∃ schema after,
    schemaFor bareProject (registerType bareProject 0) bareContext (.array (.ident "byte"))
      .initial = .ok schema after ∧
      schema.kind = some "string" ∧
        ¬ WireShape bareContext (.array (.ident "byte")) schema := by
  have shown : ((schemaFor bareProject (registerType bareProject 0) bareContext
      (.array (.ident "byte"))).run' .initial).map (·.kind) = some (some "string") := by
    decide +kernel
  obtain ⟨schema, after, ran, kind⟩ := exists_ok_of_run' shown
  refine ⟨schema, after, ran, kind, fun wire => ?_⟩
  have array := kind.symm.trans wire.kind_of_array
  exact absurd array (by decide)

end Assembly

end EndpointAtlas
