import EndpointAtlas.Annotations

/-!
The API document: the controllers of a project with their endpoints, the responders and types that
these refer to, and the packages of them all.
-/

namespace EndpointAtlas

/-- The shape of a type. Properties stand in the order of their declaration. -/
structure Schema where
  reference : Option String
  kind : Option String
  items : Option Schema
  required : List String
  properties : Option (List (String × Schema))
  deriving Repr, Inhabited

namespace Schema

def unspecified : Schema := ⟨none, none, none, [], none⟩

def ofKind (kind : String) : Schema := { unspecified with kind := some kind }

def ofReference (ident : String) : Schema := { unspecified with reference := some ident }

def arrayOf (items : Schema) : Schema :=
  { unspecified with kind := some "array", items := some items }

end Schema

/-- The entries with the given one in the place of the first entry with its key, or at the end. -/
def setProperty (key : String) (schema : Schema) : List (String × Schema) → List (String × Schema)
  | [] => [(key, schema)]
  | (other, kept) :: rest =>
      if other = key then (key, schema) :: rest else (other, kept) :: setProperty key schema rest

theorem mem_set_property {key : String} {schema : Schema} {entries : List (String × Schema)}
    {entry : String × Schema} (member : entry ∈ setProperty key schema entries) :
    entry = (key, schema) ∨ entry ∈ entries := by
  induction entries with
  | nil => exact .inl (List.mem_singleton.1 member)
  | cons head rest ih =>
      obtain ⟨other, kept⟩ := head
      unfold setProperty at member
      split at member
      · exact (List.mem_cons.1 member).imp id (List.mem_cons_of_mem _)
      · rcases List.mem_cons.1 member with rfl | later
        · exact .inr List.mem_cons_self
        · exact (ih later).imp id (List.mem_cons_of_mem _)

theorem set_property_of_not_mem {key : String} {schema : Schema} {entries : List (String × Schema)}
    (fresh : key ∉ entries.map Prod.fst) :
    setProperty key schema entries = entries ++ [(key, schema)] := by
  induction entries with
  | nil => rfl
  | cons head rest ih =>
      obtain ⟨other, kept⟩ := head
      rw [List.map_cons, List.mem_cons, not_or] at fresh
      rw [setProperty, if_neg (Ne.symm fresh.1), ih fresh.2]
      rfl

theorem keys_set_property_of_mem {key : String} {schema : Schema}
    {entries : List (String × Schema)} (present : key ∈ entries.map Prod.fst) :
    (setProperty key schema entries).map Prod.fst = entries.map Prod.fst := by
  induction entries with
  | nil => cases present
  | cons head rest ih =>
      obtain ⟨other, kept⟩ := head
      unfold setProperty
      split
      · rename_i same
        rw [List.map_cons, List.map_cons, same]
      · rename_i distinct
        have later := (List.mem_cons.1 present).resolve_left (Ne.symm distinct)
        rw [List.map_cons, List.map_cons, ih later]

theorem nodup_set_property {key : String} {schema : Schema} {entries : List (String × Schema)}
    (distinct : (entries.map Prod.fst).Nodup) :
    ((setProperty key schema entries).map Prod.fst).Nodup := by
  by_cases present : key ∈ entries.map Prod.fst
  · rwa [keys_set_property_of_mem present]
  · rw [set_property_of_not_mem present, List.map_append, List.nodup_append]
    refine ⟨distinct, by simp, fun other member last single same => present ?_⟩
    have equal : other = key := same.trans (List.mem_singleton.1 single)
    exact equal ▸ member

structure TypeSchema where
  name : String
  aliasName : String
  schema : Option Schema
  deriving Repr, Inhabited

/-- Where the value of a parameter comes from. -/
inductive ParamSource where
  | context
  | responder
  | header
  | path
  | query
  | body
  deriving DecidableEq, Repr, Inhabited

namespace ParamSource

def all : List ParamSource := [context, responder, header, path, query, body]

def name : ParamSource → String
  | context => "Context"
  | responder => "Responder"
  | header => "Header"
  | path => "Path"
  | query => "Query"
  | body => "Body"

def ofName? (name : String) : Option ParamSource := all.find? (·.name == name)

def unknownMessage (text : String) : String := "unknown parameter source: " ++ text

end ParamSource

structure Parameter where
  source : ParamSource
  type : String
  name : String
  metadata : Option String
  deriving DecidableEq, Repr, Inhabited

structure Response where
  name : String
  annotations : Annotations
  status : String
  params : List Parameter
  deriving Inhabited

structure Responder where
  name : String
  responses : List Response
  deriving Inhabited

/-- An endpoint. The file is a bare name; the package says where it lies. -/
structure Resource where
  package : String
  file : String
  name : String
  method : String
  path : String
  params : List Parameter
  summary : Option String
  details : Option String
  tags : List String
  deriving DecidableEq, Repr, Inhabited

structure Controller where
  package : String
  file : String
  name : String
  aliasName : String
  base : String
  resources : Table Resource
  deriving Inhabited

structure Document where
  imports : List String
  types : Table TypeSchema
  responders : Table Responder
  controllers : Table Controller
  deriving Inhabited

def Document.empty : Document := ⟨[], .empty, .empty, .empty⟩

end EndpointAtlas
