import EndpointAtlas.Text.Split
import EndpointAtlas.Text.Quoted

/-!
Canonical identifiers of types. A predeclared type has no package and is shown by its name alone;
every other type is shown as its package path, a space and its name.
-/

namespace EndpointAtlas

structure Ident where
  package : String
  name : String
  deriving DecidableEq, Repr, Inhabited

namespace Ident

def predeclared (name : String) : Ident := ⟨"", name⟩

def isPredeclared (ident : Ident) : Bool := ident.package.isEmpty

def display (ident : Ident) : String :=
  if ident.package.isEmpty then ident.name else ident.package ++ " " ++ ident.name

/-- Reads an identifier as it is shown; the package ends at the first space. -/
def parse? (text : String) : Option Ident :=
  let trimmed := Text.trim text.toList
  match Text.cutFirst (· == ' ') trimmed with
  | some (package, name) =>
      if package.isEmpty || name.isEmpty then none
      else some ⟨String.ofList package, String.ofList name⟩
  | none => if trimmed.isEmpty then none else some (predeclared (String.ofList trimmed))

def parseFailure (text : String) : String := "invalid type identifier: " ++ Text.quoted text

end Ident

end EndpointAtlas
