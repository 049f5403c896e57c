import EndpointAtlas.Shell.Utility

/-!
Programs: what a name leads to on the search path, and how the first line of a script names the
program that runs it.
-/

namespace EndpointAtlas.Shell

open Text

inductive Program where
  /-- A program that every system has. -/
  | utility (run : Utility)
  /-- A shell, which takes its script as an argument. -/
  | shell
  /-- An executable file at a path. -/
  | file (path : String) (content : List Glyph)

def systemDirectories : List (List String) := [["bin"], ["usr", "bin"]]

def systemProgram? (name : String) : Option Program :=
  if ["sh", "dash", "bash", "env"].contains name then some .shell
  else (programs.lookup name).map .utility

/-- The program at a path. Files that may not be run are passed over with a fault of their own. -/
def programAt (tree : Tree) (working : Location) (path : Path) : Except TreeFault Program :=
  match tree.find working path with
  | .ok location =>
      match tree.node? location with
      | some (.file content true) => .ok (.file path.text content)
      | _ => .error .accessDenied
  | .error fault =>
      match path.fileName?, path.parent? with
      | some name, some directory =>
          if path.isAbsolute && systemDirectories.contains directory.normalParts then
            match systemProgram? name with
            | some program => .ok program
            | none => .error fault
          else .error fault
      | _, _ => .error fault

/-- The first program at the paths. If there is none, a file that may not be run is complained of
before files that are missing. -/
def firstProgram (tree : Tree) (working : Location) (denied : Bool) :
    List Path → Except TreeFault Program
  | [] => .error (if denied then .accessDenied else .notFound)
  | path :: rest =>
      match programAt tree working path with
      | .ok program => .ok program
      | .error fault => firstProgram tree working (denied || fault == .accessDenied) rest

/-- Looks a program up. A name with a slash is a path, another one is looked for in the directories
of the search path. -/
def findProgram (tree : Tree) (working : Location) (searchPath name : String) :
    Except TreeFault Program :=
  if name.isEmpty then .error .notFound
  else if name.toList.contains '/' then programAt tree working ⟨name⟩
  else
    firstProgram tree working false ((searchPath.toList.splitOn ':').map fun directory =>
      Path.join ⟨if directory.isEmpty then "." else String.ofList directory⟩ ⟨name⟩)

/-- The program that the first line of a script names, with its arguments. -/
def interpreter? (content : List Glyph) : Option (List String) :=
  match content with
  | .char '#' :: .char '!' :: rest =>
      let line := (rest.takeWhile (!isLineEnd ·)).filterMap Glyph.char?
      match (words line).map String.ofList with
      | [] => none
      | "/usr/bin/env" :: arguments => some arguments
      | named => some named
  | _ => none

def isShellPath (path : String) : Bool :=
  ["sh", "dash", "bash"].contains ((Path.fileName? ⟨path⟩).getD "")

end EndpointAtlas.Shell
