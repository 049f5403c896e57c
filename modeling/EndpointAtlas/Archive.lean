import EndpointAtlas.Text.Split
import EndpointAtlas.Tree

/-!
File trees as one text: each file stands under a line with its path between two dashes on either
side. What stands before the first such line belongs to no file.
-/

namespace EndpointAtlas.Archive

open Text

def pathIn? (line : List Char) : Option Path := do
  let rest ← afterStart? "-- ".toList line
  let name ← beforeEnd? " --".toList rest
  return ⟨String.ofList (trim name)⟩

/-- The files of an archive, the last one first. -/
def addLine (files : List (Path × List Char)) (line : List Char) : List (Path × List Char) :=
  match pathIn? line with
  | some path => (path, []) :: files
  | none =>
      match files with
      | [] => []
      | (path, content) :: others => (path, content ++ line ++ ['\n']) :: others

/-- Files that name the program which runs them may be run. -/
def isRunnable (content : List Char) : Bool := ['#', '!'].isPrefixOf content

def read (text : String) : Tree :=
  ((lines text.toList).foldl addLine []).foldr (fun (path, content) tree =>
    tree.putFile path.normalParts (content.map Glyph.char) (isRunnable content)) Tree.empty

/-- The files of a tree that another tree does not hold with the same content. -/
def changes (before after : Tree) : List (Location × List Glyph) :=
  after.entries.filterMap fun (location, node) =>
    match node with
    | .file content _ =>
        match before.node? location with
        | some (.file earlier _) => if earlier = content then none else some (location, content)
        | _ => some (location, content)
    | .directory => none

def write (files : List (Location × List Glyph)) : String :=
  String.join (files.map fun (location, content) =>
    "-- " ++ (Tree.pathOf location).text ++ " --\n" ++ Glyph.text content ++ "\n")

end EndpointAtlas.Archive
