import EndpointAtlas.Document.Model
import EndpointAtlas.Json

/-!
Reading an API document from a JSON value. A structure may also be given as the list of its fields.
Members are read in the order in which they stand; then the first missing field is reported.
-/

namespace EndpointAtlas

inductive DecodeFault where
  | missingField (name : String)
  | duplicateField (name : String)
  | invalidType (found : Json) (expected : String)
  | invalidLength (length : Nat) (expected : String)
  | unknownVariant (name : String)
  | notSingleMember

namespace DecodeFault

/-- How a value is called where another one is expected. -/
def describe : Json → String
  | .null => "null"
  | .bool value => "boolean `" ++ String.ofList (Json.writeBool value) ++ "`"
  | .number value => "integer `" ++ String.ofList (Json.writeNumber value) ++ "`"
  | .text value => "string " ++ Text.quoted value
  | .list _ => "sequence"
  | .object _ => "map"

def message : DecodeFault → String
  | missingField name => "missing field `" ++ name ++ "`"
  | duplicateField name => "duplicate field `" ++ name ++ "`"
  | invalidType found expected => "invalid type: " ++ describe found ++ ", expected " ++ expected
  | invalidLength length expected =>
      "invalid length " ++ toString length ++ ", expected " ++ expected
  | unknownVariant name =>
      "unknown variant `" ++ name ++ "`, expected one of " ++
        String.intercalate ", " (ParamSource.all.map fun source => "`" ++ source.name ++ "`")
  | notSingleMember => "invalid value: map, expected map with a single key"

end DecodeFault

abbrev Decoded := Except DecodeFault

def decodeText : Json → Decoded String
  | .text value => .ok value
  | json => .error (.invalidType json "a string")

def decodeList (decode : Json → Decoded α) : Json → Decoded (List α)
  | .list items => items.mapM decode
  | json => .error (.invalidType json "a sequence")

def decodeTable (decode : Json → Decoded α) : Json → Decoded (Table α)
  | .object members => do
      let entries ← members.mapM fun (key, value) => return (key, ← decode value)
      return .ofList entries
  | json => .error (.invalidType json "a map")

def decodeOptional (decode : Json → Decoded α) : Json → Decoded (Option α)
  | .null => .ok none
  | json => some <$> decode json

/-- A field of a structure: its name, a test of its value, and whether it may be missing. -/
structure FieldRule where
  name : String
  check : Json → Decoded Unit
  optional : Bool

def requiredField (name : String) (decode : Json → Decoded α) : FieldRule :=
  ⟨name, fun json => discard (decode json), false⟩

def optionalField (name : String) (decode : Json → Decoded α) : FieldRule :=
  ⟨name, fun json => discard (decode json), true⟩

def elementCount (count : Nat) : String :=
  toString count ++ (if count = 1 then " element" else " elements")

def unrepeated (given : List String) (name : String) : Decoded Unit :=
  if given.contains name then .error (.duplicateField name) else .ok ()

def checkMembers (rules : List FieldRule) (given : List String) :
    List (String × Json) → Decoded Unit
  | [] => .ok ()
  | (key, value) :: rest =>
      match rules.find? (·.name == key) with
      | none => checkMembers rules given rest
      | some rule => do
          unrepeated given key
          rule.check value
          checkMembers rules (key :: given) rest

/-- The members of a structure, each known one tested and no required one missing. -/
def decodeMembers (type : String) (rules : List FieldRule) :
    Json → Decoded (List (String × Json))
  | .object members => do
      checkMembers rules [] members
      match rules.find? fun rule => !rule.optional && (members.lookup rule.name).isNone with
      | some rule => .error (.missingField rule.name)
      | none => .ok members
  | .list items => do
      (rules.zip items).forM fun (rule, item) => rule.check item
      match (rules.drop items.length).findIdx? (!·.optional) with
      | some index =>
          .error (.invalidLength (items.length + index)
            ("struct " ++ type ++ " with " ++ elementCount rules.length))
      | none =>
          if rules.length < items.length then
            .error (.invalidLength items.length "fewer elements in array")
          else .ok ((rules.map (·.name)).zip items)
  | json => .error (.invalidType json ("struct " ++ type))

def member (members : List (String × Json)) (name : String) (decode : Json → Decoded α) :
    Decoded α :=
  match members.lookup name with
  | some json => decode json
  | none => .error (.missingField name)

def memberOr (members : List (String × Json)) (name : String) (absent : α)
    (decode : Json → Decoded α) : Decoded α :=
  match members.lookup name with
  | some json => decode json
  | none => .ok absent

mutual

def Schema.ofJson : Json → Decoded Schema
  | .object members => schemaOfMembers [] members
  | .list items => schemaOfItems items
  | json => .error (.invalidType json "struct Schema")

def schemaOfMembers (given : List String) : List (String × Json) → Decoded Schema
  | [] => .ok .unspecified
  | ("ref", value) :: rest => do
      unrepeated given "ref"
      let reference ← decodeOptional decodeText value
      return { ← schemaOfMembers ("ref" :: given) rest with reference }
  | ("type", value) :: rest => do
      unrepeated given "type"
      let kind ← decodeOptional decodeText value
      return { ← schemaOfMembers ("type" :: given) rest with kind }
  | ("items", .null) :: rest => do
      unrepeated given "items"
      return { ← schemaOfMembers ("items" :: given) rest with items := none }
  | ("items", value) :: rest => do
      unrepeated given "items"
      let items ← Schema.ofJson value
      return { ← schemaOfMembers ("items" :: given) rest with items := some items }
  | ("required", value) :: rest => do
      unrepeated given "required"
      let required ← decodeList decodeText value
      return { ← schemaOfMembers ("required" :: given) rest with required }
  | ("properties", value) :: rest => do
      unrepeated given "properties"
      let properties ← propertiesOfJson value
      return { ← schemaOfMembers ("properties" :: given) rest with properties }
  | _ :: rest => schemaOfMembers given rest

def schemaOfItems : List Json → Decoded Schema
  | [] => .ok .unspecified
  | [reference] => do
      return { Schema.unspecified with reference := ← decodeOptional decodeText reference }
  | [reference, kind] => do
      return { Schema.unspecified with
        reference := ← decodeOptional decodeText reference
        kind := ← decodeOptional decodeText kind }
  | reference :: kind :: items :: rest => do
      let reference ← decodeOptional decodeText reference
      let kind ← decodeOptional decodeText kind
      let items ← match items with
        | .null => pure none
        | json => some <$> Schema.ofJson json
      match rest with
      | [] => return ⟨reference, kind, items, [], none⟩
      | [required] => return ⟨reference, kind, items, ← decodeList decodeText required, none⟩
      | required :: properties :: extra => do
          let required ← decodeList decodeText required
          let properties ← propertiesOfJson properties
          if extra.isEmpty then return ⟨reference, kind, items, required, properties⟩
          else .error (.invalidLength (5 + extra.length) "fewer elements in array")

def propertiesOfJson : Json → Decoded (Option (List (String × Schema)))
  | .null => .ok none
  | .object members => some <$> propertiesOfMembers [] members
  | json => .error (.invalidType json "a map")

/-- The properties after the given ones; a key that is there already takes the later schema. -/
def propertiesOfMembers (entries : List (String × Schema)) :
    List (String × Json) → Decoded (List (String × Schema))
  | [] => .ok entries
  | (key, value) :: rest => do
      let schema ← Schema.ofJson value
      propertiesOfMembers (setProperty key schema entries) rest

end

def TypeSchema.ofJson (json : Json) : Decoded TypeSchema := do
  let members ← decodeMembers "TypeSchema"
    [requiredField "name" decodeText, requiredField "alias" decodeText,
      optionalField "schema" (decodeOptional Schema.ofJson)] json
  return ⟨← member members "name" decodeText, ← member members "alias" decodeText,
    ← memberOr members "schema" none (decodeOptional Schema.ofJson)⟩

def ParamSource.ofJson : Json → Decoded ParamSource
  | .text name => ofVariant name
  | .object [(name, value)] => do
      let source ← ofVariant name
      match value with
      | .null => .ok source
      | json => .error (.invalidType json "unit")
  | .object _ => .error .notSingleMember
  | json => .error (.invalidType json "string or map")
where
  ofVariant (name : String) : Decoded ParamSource :=
    match ParamSource.ofName? name with
    | some source => .ok source
    | none => .error (.unknownVariant name)

def Parameter.ofJson (json : Json) : Decoded Parameter := do
  let members ← decodeMembers "Parameter"
    [requiredField "source" ParamSource.ofJson, requiredField "type" decodeText,
      requiredField "name" decodeText, optionalField "metadata" (decodeOptional decodeText)] json
  return ⟨← member members "source" ParamSource.ofJson, ← member members "type" decodeText,
    ← member members "name" decodeText,
    ← memberOr members "metadata" none (decodeOptional decodeText)⟩

def Annotations.ofJson (json : Json) : Decoded Annotations :=
  Annotations.mk <$> decodeTable (decodeList decodeText) json

def Response.ofJson (json : Json) : Decoded Response := do
  let members ← decodeMembers "Response"
    [requiredField "name" decodeText, requiredField "annotations" Annotations.ofJson,
      requiredField "status" decodeText, requiredField "params" (decodeList Parameter.ofJson)] json
  return ⟨← member members "name" decodeText, ← member members "annotations" Annotations.ofJson,
    ← member members "status" decodeText, ← member members "params" (decodeList Parameter.ofJson)⟩

def Responder.ofJson (json : Json) : Decoded Responder := do
  let members ← decodeMembers "Responder"
    [requiredField "name" decodeText, optionalField "responses" (decodeList Response.ofJson)] json
  return ⟨← member members "name" decodeText,
    ← memberOr members "responses" [] (decodeList Response.ofJson)⟩

def Resource.ofJson (json : Json) : Decoded Resource := do
  let members ← decodeMembers "Resource"
    [requiredField "package" decodeText, requiredField "file" decodeText,
      requiredField "name" decodeText, requiredField "method" decodeText,
      requiredField "path" decodeText, requiredField "params" (decodeList Parameter.ofJson),
      optionalField "summary" (decodeOptional decodeText),
      optionalField "details" (decodeOptional decodeText),
      optionalField "tags" (decodeList decodeText)] json
  return ⟨← member members "package" decodeText, ← member members "file" decodeText,
    ← member members "name" decodeText, ← member members "method" decodeText,
    ← member members "path" decodeText, ← member members "params" (decodeList Parameter.ofJson),
    ← memberOr members "summary" none (decodeOptional decodeText),
    ← memberOr members "details" none (decodeOptional decodeText),
    ← memberOr members "tags" [] (decodeList decodeText)⟩

def Controller.ofJson (json : Json) : Decoded Controller := do
  let members ← decodeMembers "Controller"
    [requiredField "package" decodeText, requiredField "file" decodeText,
      requiredField "name" decodeText, requiredField "alias" decodeText,
      requiredField "base" decodeText, requiredField "resources" (decodeTable Resource.ofJson)] json
  return ⟨← member members "package" decodeText, ← member members "file" decodeText,
    ← member members "name" decodeText, ← member members "alias" decodeText,
    ← member members "base" decodeText,
    ← member members "resources" (decodeTable Resource.ofJson)⟩

def Document.ofJson (json : Json) : Decoded Document := do
  let members ← decodeMembers "Definitions"
    [requiredField "imports" (decodeList decodeText),
      requiredField "types" (decodeTable TypeSchema.ofJson),
      requiredField "responders" (decodeTable Responder.ofJson),
      requiredField "controllers" (decodeTable Controller.ofJson)] json
  return ⟨← member members "imports" (decodeList decodeText),
    ← member members "types" (decodeTable TypeSchema.ofJson),
    ← member members "responders" (decodeTable Responder.ofJson),
    ← member members "controllers" (decodeTable Controller.ofJson)⟩

end EndpointAtlas
