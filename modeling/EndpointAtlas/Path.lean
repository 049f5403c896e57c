import EndpointAtlas.Text.Split

/-!
Paths of files, with slashes between their parts. A path is kept as it is written; empty parts and
single points do not count as components, but a single point that starts a relative path does.
-/

namespace EndpointAtlas

structure Path where
  text : String
  deriving DecidableEq, Repr, Inhabited

namespace Path

open Text

def isAbsolute (path : Path) : Bool := path.text.toList.head? == some '/'

/-- The path of `inner` seen from `base`: absolute paths stay as they are, and one slash is put
between the two unless the base is empty or ends with one. -/
def join (base inner : Path) : Path :=
  if inner.isAbsolute then inner
  else
    let chars := base.text.toList
    let separated := chars.isEmpty || chars.getLast? == some '/'
    ⟨base.text ++ (if separated then "" else "/") ++ inner.text⟩

def parts (path : Path) : List (List Char) := path.text.toList.splitOn '/'

def isNormalPart (part : List Char) : Bool :=
  !part.isEmpty && part != ['.'] && part != ['.', '.']

def normalParts (path : Path) : List String :=
  (path.parts.filter isNormalPart).map String.ofList

/-- The parts without those at the end that are no components. -/
def significantParts (path : Path) : List (List Char) :=
  match path.parts with
  | first :: rest =>
      let kept := dropEndWhile (fun part => part.isEmpty || part == ['.']) rest
      first :: kept
  | [] => []

def fileName? (path : Path) : Option String :=
  match path.significantParts.getLast? with
  | some part => if isNormalPart part then some (String.ofList part) else none
  | none => none

def extensionOf? (name : List Char) : Option (List Char) :=
  match cutLast (· == '.') name with
  | some (before, after) => if before.isEmpty then none else some after
  | none => none

def extension? (path : Path) : Option String :=
  (path.fileName?.bind fun name => extensionOf? name.toList).map String.ofList

/-- The path without its last component. The root and the empty path have no parent. -/
def parent? (path : Path) : Option Path :=
  let joined (kept : List (List Char)) : Path :=
    ⟨String.ofList (List.intercalate ['/'] kept)⟩
  match path.significantParts with
  | [] => none
  | [only] => if only.isEmpty then none else some ⟨""⟩
  | first :: rest =>
      let kept := dropEndWhile (fun part => part.isEmpty || part == ['.']) rest.dropLast
      if kept.isEmpty && first.isEmpty then some ⟨"/"⟩ else some (joined (first :: kept))

/-- A path and up to so many of the paths above it, the nearest first. -/
def climb : Nat → Path → List Path
  | 0, path => [path]
  | count + 1, path =>
      match path.parent? with
      | some parent => path :: climb count parent
      | none => [path]

def ancestors (path : Path) : List Path := path.climb path.parts.length

end Path

end EndpointAtlas
