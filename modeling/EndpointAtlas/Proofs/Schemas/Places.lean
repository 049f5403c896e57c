import EndpointAtlas.Proofs.Schemas.Properties

/-!
The places of a schema: what stands under its items and properties, at any depth, and the types that
a schema shows there.
-/

namespace EndpointAtlas

open Go

inductive Schema.Step where
  | items
  | property (key : String)
  deriving DecidableEq, Repr

namespace Schema

def step? (schema : Schema) : Step → Option Schema
  | .items => schema.items
  | .property key => schema.properties.bind (·.lookup key)

def at? (schema : Schema) : List Step → Option Schema
  | [] => some schema
  | step :: place => (schema.step? step).bind (·.at? place)

end Schema

/-- Whether the schema of a type shows another type at a place. Pointers take no place, the elements
of bytes have none, and under the key of a struct stands the last field with the key. -/
inductive ShownAt : List Schema.Step → TypeExpr → TypeExpr → Prop where
  | here {type : TypeExpr} : ShownAt [] type type
  | pointer {place : List Schema.Step} {target inner : TypeExpr} :
      ShownAt place target inner → ShownAt place (.pointer target) inner
  | slice {place : List Schema.Step} {element inner : TypeExpr} : isByte element = false →
      ShownAt place element inner → ShownAt (.items :: place) (.slice element) inner
  | array {place : List Schema.Step} {element inner : TypeExpr} : isByte element = false →
      ShownAt place element inner → ShownAt (.items :: place) (.array element) inner
  | field {place : List Schema.Step} {fields : List Field} {field : Field} {key : String}
      {inner : TypeExpr} : LastShown fields key field → ShownAt place field.type inner →
        ShownAt (.property key :: place) (.struct fields) inner

theorem is_byte_iff {type : TypeExpr} : isByte type = true ↔ type = .ident "byte" := by
  cases type <;> simp [isByte]

section

variable {context : Context}

theorem step_schema_of_struct {fields : List Field} {field : Field} {key : String}
    (last : LastShown fields key field) :
    (context.schemaOf (.struct fields)).step? (.property key) =
      some (context.schemaOf field.type) := by
  rw [Context.schemaOf]
  exact lookup_of_last_shown context last []

/-- At a place stands the schema of the type that is shown there. -/
theorem at_schema_of {place : List Schema.Step} {type inner : TypeExpr}
    (shown : ShownAt place type inner) :
    (context.schemaOf type).at? place = some (context.schemaOf inner) := by
  induction shown with
  | here => rfl
  | pointer _ ih =>
      rw [Context.schemaOf]
      exact ih
  | slice entered _ ih =>
      rw [Context.schemaOf, if_neg (by simp [entered])]
      exact ih
  | array entered _ ih =>
      rw [Context.schemaOf, if_neg (by simp [entered])]
      exact ih
  | field last _ ih =>
      rw [Schema.at?, step_schema_of_struct last]
      exact ih

end

end EndpointAtlas
