import EndpointAtlas.Entries
import EndpointAtlas.Path
import EndpointAtlas.Text.Glyph

/-!
File trees. An entry is named by the components of its absolute path. The entries are listed depth
first, those of one directory by the code points of their names; this is the lexicographic order of
the component lists.
-/

namespace EndpointAtlas

open Text

inductive Node where
  | directory
  | file (content : List Glyph) (executable : Bool)
  deriving DecidableEq, Repr, Inhabited

/-- Why a path leads nowhere, or not to what is asked for. -/
inductive TreeFault where
  | notFound
  | notDirectory
  | isDirectory
  | alreadyExists
  | accessDenied
  /-- A file that is to run is neither a program nor a script. -/
  | notRunnable
  deriving DecidableEq, Repr

def TreeFault.message : TreeFault → String
  | notFound => "No such file or directory (os error 2)"
  | notDirectory => "Not a directory (os error 20)"
  | isDirectory => "Is a directory (os error 21)"
  | alreadyExists => "File exists (os error 17)"
  | accessDenied => "Permission denied (os error 13)"
  | notRunnable => "Exec format error (os error 8)"

/-- The components of an absolute path without points. -/
abbrev Location := List String

structure Tree where
  entries : List (Location × Node)
  increasing : entries.Pairwise fun a b => a.1 < b.1

namespace Tree

def empty : Tree := ⟨[], .nil⟩

instance : Inhabited Tree := ⟨empty⟩

/-- The node at a location. The root is always a directory. -/
def node? (tree : Tree) (location : Location) : Option Node :=
  if location.isEmpty then some .directory else tree.entries.lookup location

def put (tree : Tree) (location : Location) (node : Node) : Tree :=
  ⟨insertEntry location node tree.entries, pairwise_insert_entry tree.increasing⟩

def ensureDirectory (tree : Tree) (location : Location) : Tree :=
  if (tree.node? location).isSome then tree else tree.put location .directory

def ensureDirectories (tree : Tree) (location : Location) : Tree :=
  (List.range location.length).foldl
    (fun tree count => tree.ensureDirectory (location.take (count + 1))) tree

def putFile (tree : Tree) (location : Location) (content : List Glyph) (executable : Bool) : Tree :=
  (tree.ensureDirectories location.dropLast).put location (.file content executable)

/-- Follows the parts of a path from a location. Every part but the last must lead to a directory,
and so must a point or an empty part. -/
def follow (tree : Tree) (location : Location) : List (List Char) → Except TreeFault Location
  | [] => .ok location
  | part :: rest =>
      match tree.node? location with
      | none => .error .notFound
      | some (.file _ _) => .error .notDirectory
      | some .directory =>
          if part.isEmpty || part == ['.'] then follow tree location rest
          else if part == ['.', '.'] then follow tree location.dropLast rest
          else follow tree (location ++ [String.ofList part]) rest

/-- The location that a path names, seen from a working directory; nothing need be there. -/
def locate (tree : Tree) (working : Location) (path : Path) : Except TreeFault Location :=
  if path.text.isEmpty then .error .notFound
  else follow tree (if path.isAbsolute then [] else working) path.parts

def find (tree : Tree) (working : Location) (path : Path) : Except TreeFault Location := do
  let location ← tree.locate working path
  if (tree.node? location).isSome then .ok location else .error .notFound

def directory? (tree : Tree) (path : Path) : Option Location :=
  match tree.find [] path with
  | .ok location => if tree.node? location = some .directory then some location else none
  | .error _ => none

def content (tree : Tree) (working : Location) (path : Path) : Except TreeFault (List Glyph) := do
  let location ← tree.find working path
  match tree.node? location with
  | some (.file content _) => .ok content
  | _ => .error .isDirectory

/-- The text of the file that a path leads to, if it has no stray bytes. -/
def text? (tree : Tree) (path : Path) : Option String :=
  match tree.content [] path with
  | .ok content => Glyph.text? content
  | .error _ => none

/-- The tree with a file written at a path. A file that is there keeps its permission to run. -/
def write (tree : Tree) (working : Location) (path : Path) (content : List Glyph) :
    Except TreeFault Tree := do
  let location ← tree.locate working path
  let directory ← if location.isEmpty then .error .isDirectory else .ok location.dropLast
  match tree.node? location, tree.node? directory with
  | some .directory, _ => .error .isDirectory
  | some (.file _ executable), _ => .ok (tree.put location (.file content executable))
  | none, some .directory =>
      if path.parts.getLast? == some [] then .error .isDirectory
      else .ok (tree.put location (.file content false))
  | none, some (.file _ _) => .error .notDirectory
  | none, none => .error .notFound

def remove (tree : Tree) (location : Location) : Tree :=
  ⟨tree.entries.filter fun entry => !location.isPrefixOf entry.1, tree.increasing.filter _⟩

def namesIn (tree : Tree) (directory : Location) : List String :=
  tree.entries.filterMap fun (location, _) =>
    match directory.isPrefixOf? location with
    | some [name] => some name
    | _ => none

def pathOf (location : Location) : Path := ⟨"/" ++ String.intercalate "/" location⟩

end Tree

end EndpointAtlas
