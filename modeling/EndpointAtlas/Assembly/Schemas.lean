import EndpointAtlas.Assembly.State
import EndpointAtlas.StructTag
import EndpointAtlas.Text.Uppercase

/-!
Schemas of types, and the registration of every type of the project that a schema refers to. A type
in progress is not entered again, so that types may refer to each other.
-/

namespace EndpointAtlas

open Go

def primitiveSchema (name : String) : Schema :=
  if name == "string" then .ofKind "string"
  else if name == "bool" then .ofKind "boolean"
  else if ["float32", "float64"].contains name then .ofKind "number"
  else if ["int", "int8", "int16", "int32", "int64", "uint", "uint8", "uint16", "uint32", "uint64",
      "uintptr", "byte", "rune"].contains name then .ofKind "integer"
  else .unspecified

def fieldName? (name : Option String) (type : TypeExpr) : Option String :=
  match name with
  | some name => some name
  | none =>
      match type.deref with
      | .ident name | .qualified _ name => some name
      | _ => none

def isExported (name : String) : Bool := (name.toList.head?.map Text.isUppercase).getD false

/-- How a field is written in JSON: under which key, and whether it may be left out. -/
structure FieldLabel where
  key : String
  omitempty : Bool
  deriving DecidableEq, Repr

/-- The label that a JSON tag gives to a field; the tag `-` keeps the field out. -/
def FieldLabel.ofTag? (name : String) (tag : Option String) : Option FieldLabel :=
  match tag.bind fun tag => StructTag.lookup tag "json" with
  | none => some ⟨name, false⟩
  | some value =>
      if value == "-" then none
      else
        let parts := value.toList.splitOn ','
        let key := String.ofList (parts.head?.getD [])
        some ⟨if key.isEmpty then name else key,
          parts.tail.contains "omitempty".toList⟩

def fieldLabel? (name : Option String) (type : TypeExpr) (tag : Option String) :
    Option FieldLabel :=
  match fieldName? name type with
  | none => none
  | some name => if isExported name then FieldLabel.ofTag? name tag else none

structure Property where
  key : String
  required : Bool
  schema : Schema

def structSchema (properties : List Property) : Schema :=
  { Schema.ofKind "object" with
    required := (properties.filter (·.required)).map (·.key)
    properties := some (properties.foldl (fun entries property =>
      setProperty property.key property.schema entries) []) }

/-- The properties that a struct shows are those of its fields, each under a key of its own. -/
theorem properties_struct_schema {properties : List Property} {entries : List (String × Schema)}
    (shown : (structSchema properties).properties = some entries) :
    (entries.map Prod.fst).Nodup ∧
      ∀ entry ∈ entries, ∃ property ∈ properties, entry.2 = property.schema := by
  have within : ∀ (properties : List Property) (before : List (String × Schema)),
      (before.map Prod.fst).Nodup →
        let after := properties.foldl (fun entries property =>
          setProperty property.key property.schema entries) before
        (after.map Prod.fst).Nodup ∧ ∀ entry ∈ after,
          entry ∈ before ∨ ∃ property ∈ properties, entry.2 = property.schema := by
    intro properties
    induction properties with
    | nil => exact fun before distinct => ⟨distinct, fun entry member => .inl member⟩
    | cons head rest ih =>
        intro before distinct
        obtain ⟨apart, listed⟩ := ih (setProperty head.key head.schema before)
          (nodup_set_property distinct)
        refine ⟨apart, fun entry member => ?_⟩
        rcases listed entry member with earlier | ⟨property, later, same⟩
        · rcases mem_set_property earlier with rfl | old
          · exact .inr ⟨head, List.mem_cons_self, rfl⟩
          · exact .inl old
        · exact .inr ⟨property, List.mem_cons_of_mem _ later, same⟩
  obtain rfl := Option.some.inj shown
  obtain ⟨distinct, listed⟩ := within properties [] List.nodup_nil
  exact ⟨distinct, fun entry member => (listed entry member).resolve_left (List.not_mem_nil)⟩

def isPointer : TypeExpr → Bool
  | .pointer _ => true
  | _ => false

/-- Slices and arrays of bare bytes are written as texts. -/
def isByte : TypeExpr → Bool
  | .ident name => name == "byte"
  | _ => false

namespace Assembly

/-- The schema of a named type, which is registered on the way unless it is a contract. -/
def namedSchema (project : Project) (register : Declaration → Assemble Unit) (context : Context)
    (expr : TypeExpr) : Assemble Schema := do
  let ident ← ofExcept (context.identify expr)
  if ident.isPredeclared then return primitiveSchema ident.name
  match ← resolving (Resolver.lookup project ident) with
  | .found declaration =>
      unless declaration.shape = .contract do register declaration
      return .ofReference ident.display
  | .missing => throw (.typeNotFound ident)
  | .external =>
      warn (.opaqueField ident)
      return .ofReference ident.display

mutual

/-- The schema of a type; `register` sees to the named types in it. -/
def schemaFor (project : Project) (register : Declaration → Assemble Unit) (context : Context) :
    TypeExpr → Assemble Schema
  | .struct fields => structSchema <$> propertiesFor project register context fields
  | .pointer target => schemaFor project register context target
  | .slice element | .array element =>
      if isByte element then return .ofKind "string"
      else Schema.arrayOf <$> schemaFor project register context element
  | .map _ _ | .interface _ => return .ofKind "object"
  | .ident name => namedSchema project register context (.ident name)
  | .qualified package name => namedSchema project register context (.qualified package name)
  | .other _ => return .unspecified

def propertiesFor (project : Project) (register : Declaration → Assemble Unit)
    (context : Context) : List Field → Assemble (List Property)
  | [] => return []
  | ⟨name, type, tag⟩ :: rest =>
      match fieldLabel? name type tag with
      | none => propertiesFor project register context rest
      | some label => do
          let schema ← schemaFor project register context type
          let others ← propertiesFor project register context rest
          return ⟨label.key, !label.omitempty && !isPointer type, schema⟩ :: others

end

/-- Registers a type and the types of the project that it refers to. The bound is larger than the
number of types that are found and not yet in progress. -/
def registerType (project : Project) : Nat → Declaration → Assemble Unit
  | 0, _ => cutOff
  | bound + 1, declaration => do
      let ident := declaration.ident
      if (← get).document.types.contains ident.display then return
      unless ← enter ident do return
      let schema ←
        schemaFor project (registerType project bound) declaration.context declaration.spec.type
      revise fun document =>
        { document with
          types := document.types.insert ident.display
            ⟨declaration.spec.name, "", some schema⟩ }
      leave ident

end Assembly

end EndpointAtlas
