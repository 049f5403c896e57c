/-!
Type expressions of Go, as far as the analysis tells them apart, and the declarations made of them.
The parts of a struct or an interface are given over the type of their type expressions, so that
type expressions can contain them.
-/

namespace EndpointAtlas.Go

structure ParamOf (τ : Type) where
  name : Option String
  type : τ
  deriving DecidableEq, Repr, Inhabited

/-- A field of a struct. An embedded field has no name; the tag is given without its quotes. -/
structure FieldOf (τ : Type) where
  name : Option String
  type : τ
  tag : Option String
  deriving DecidableEq, Repr, Inhabited

structure MethodOf (τ : Type) where
  name : String
  doc : Option (List String)
  params : List (ParamOf τ)
  deriving DecidableEq, Repr, Inhabited

inductive ElementOf (τ : Type) where
  | method (method : MethodOf τ)
  | embedded (type : τ)
  deriving DecidableEq, Repr, Inhabited

inductive TypeExpr where
  | ident (name : String)
  /-- A name in another package, which is given by its name in the file. -/
  | qualified (package name : String)
  | pointer (target : TypeExpr)
  | slice (element : TypeExpr)
  /-- An array of any length. -/
  | array (element : TypeExpr)
  | map (key value : TypeExpr)
  | struct (fields : List (FieldOf TypeExpr))
  | interface (elements : List (ElementOf TypeExpr))
  /-- Any other type, as its source text. -/
  | other (text : String)
  deriving Repr, Inhabited

abbrev Param := ParamOf TypeExpr
abbrev Field := FieldOf TypeExpr
abbrev Method := MethodOf TypeExpr
abbrev Element := ElementOf TypeExpr

/-- What a declared type describes: a record of fields, a contract of methods, or anything else. -/
inductive Shape where
  | record
  | contract
  | other
  deriving DecidableEq, Repr

namespace TypeExpr

def shape : TypeExpr → Shape
  | struct _ => .record
  | interface _ => .contract
  | _ => .other

def deref : TypeExpr → TypeExpr
  | pointer target => target.deref
  | expr => expr

def display : TypeExpr → String
  | ident name => name
  | qualified package name => package ++ "." ++ name
  | pointer target => "*" ++ target.display
  | slice element => "[]" ++ element.display
  | array element => "[...]" ++ element.display
  | map key value => "map[" ++ key.display ++ "]" ++ value.display
  | struct _ => "struct\x7b...\x7d"
  | interface _ => "interface\x7b...\x7d"
  | other text => text

theorem deref_deref (expr : TypeExpr) : expr.deref.deref = expr.deref := by
  fun_induction deref expr with
  | case1 target ih => exact ih
  | case2 expr outer =>
      unfold deref
      split
      · exact absurd rfl (outer _)
      · rfl

end TypeExpr

/-- A top-level type declaration; `doc` are the comments that document it. -/
structure TypeSpec where
  name : String
  doc : Option (List String)
  type : TypeExpr
  deriving Repr, Inhabited

/-- A top-level function; a method has the type of its receiver. -/
structure FuncDecl where
  name : String
  doc : Option (List String)
  receiver : Option TypeExpr
  params : List Param
  deriving Repr, Inhabited

end EndpointAtlas.Go
