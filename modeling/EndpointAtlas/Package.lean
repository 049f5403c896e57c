import EndpointAtlas.RawPath
import EndpointAtlas.Text.Lossy
import EndpointAtlas.Tree

/-!
Package paths and the directories and files they stand for. The package of a directory is the module
path with the components of the directory below the root; of a component that is not a text, what
can be shown of it.
-/

namespace EndpointAtlas

open Text

/-- A module path without slashes at its end. -/
def moduleBase (module : String) : String :=
  String.ofList (dropEndWhile (· == '/') module.toList)

def packageBelow (module : String) (segments : List String) : String :=
  String.join (moduleBase module :: segments.map ("/" ++ ·))

def RawPath.package (module : String) (dir : RawPath) : String :=
  packageBelow module (dir.normalParts.map Glyph.lossy)

def packagePath (module : String) (dir : Path) : String := RawPath.package module (.ofPath dir)

/-- What follows the module path and a slash in a package path. -/
def belowModule? (module package : String) : Option (List Char) :=
  match afterStart? (moduleBase module).toList package.toList with
  | some ('/' :: rest) => some rest
  | _ => none

def isProjectPackage (module package : String) : Bool :=
  package == moduleBase module || (belowModule? module package).isSome

/-- The directory of a package of the module, where directories are joined with segments. -/
def packageDirBy? (join : α → String → α) (root : α) (module package : String) : Option α :=
  if package == moduleBase module then some root
  else
    (belowModule? module package).map fun rest =>
      (rest.splitOn '/').foldl (fun dir part => join dir (String.ofList part)) root

def packageDir? (root : Path) (module package : String) : Option Path :=
  packageDirBy? (fun dir segment => dir.join ⟨segment⟩) root module package

def RawPath.packageDir? (root : RawPath) (module package : String) : Option RawPath :=
  packageDirBy? (fun dir segment => dir.join (.ofPath ⟨segment⟩)) root module package

def isGoName (name : String) : Bool := Path.extensionOf? name.toList == some ['g', 'o']

def isTestName (name : String) : Bool := (beforeEnd? "_test.go".toList name.toList).isSome

def isTestPath (path : Path) : Bool := (path.fileName?.map isTestName).getD false

/-- Names that start with a point or an underscore are passed over. -/
def isVisibleName (name : String) : Bool :=
  match name.toList with
  | '.' :: _ | '_' :: _ => false
  | _ => true

/-- Directories that are never entered when a tree is walked. -/
def isClosedDirectory (name : String) : Bool := name == "vendor" || name == "testdata"

/-- The name of an entry that stands directly in a directory. -/
def nameIn? (directory location : Location) : Option String :=
  match directory.isPrefixOf? location with
  | some [name] => some name
  | _ => none

/-- The name and the content of an entry that is a Go file directly in a directory. -/
def sourceIn? (directory : Location) (includeTests : Bool) (entry : Location × Node) :
    Option (String × List Glyph) :=
  match nameIn? directory entry.1, entry.2 with
  | some name, .file content _ =>
      if isVisibleName name && isGoName name && (includeTests || !isTestName name) then
        some (name, content)
      else none
  | _, _ => none

def packageSources (tree : Tree) (dir : Path) (includeTests : Bool) :
    List (String × List Glyph) :=
  match tree.directory? dir with
  | none => []
  | some directory => tree.entries.filterMap (sourceIn? directory includeTests)

def packageFiles (tree : Tree) (dir : Path) (includeTests : Bool) : List Path :=
  (packageSources tree dir includeTests).map fun (name, _) => dir.join ⟨name⟩

end EndpointAtlas
