import EndpointAtlas.Table
import EndpointAtlas.Text.Split

/-!
Imports of a Go file: the names under which packages are known in it.
-/

namespace EndpointAtlas.Go

open Text

/-- An import as written. The name, if there is one, is an identifier, a point or a blank. -/
structure ImportSpec where
  name : Option String
  path : String
  deriving DecidableEq, Repr, Inhabited

/-- Whether a path element has the form of a major version, a small v and ASCII digits. -/
def isMajorVersion : List Char → Bool
  | 'v' :: digits => !digits.isEmpty && digits.all Char.isDigit
  | _ => false

/-- The last element of an import path, or the one before it if the last is a major version. -/
def nameElement (path : List Char) : List Char :=
  match cutLast (· == '/') path with
  | none => path
  | some (before, last) =>
      if isMajorVersion last then
        match cutLast (· == '/') before with
        | none => before
        | some (_, previous) => previous
      else last

/-- The name of a package that is imported without one: the last element of its path, without a
major version that follows it after a slash or a point. -/
def defaultName (path : List Char) : List Char :=
  let element := nameElement path
  match cutLast (· == '.') element with
  | some (base, version) =>
      if !base.isEmpty && isMajorVersion version then base else element
  | none => element

def ImportSpec.aliasName (spec : ImportSpec) : String :=
  spec.name.getD (String.ofList (defaultName spec.path.toList))

/-- Import paths by the names under which they are known; a later import of a name replaces an
earlier one. -/
abbrev Imports := Table String

def Imports.ofSpecs (specs : List ImportSpec) : Imports :=
  Table.ofList (specs.map fun spec => (spec.aliasName, spec.path))

end EndpointAtlas.Go
