import EndpointAtlas.FileFilter
import EndpointAtlas.Go.SourceFile
import EndpointAtlas.Project

/-!
Finding and reading the source files of a project. Files are visited depth first, those of one
directory in the order of their names; hidden entries and directories that hold no sources of the
project are passed over.
-/

namespace EndpointAtlas

open Go

structure ScannedFile where
  packagePath : String
  fileName : String
  source : SourceFile
  imports : Imports

def isReached (components : List String) : Bool :=
  components.all isVisibleName && !components.dropLast.any isClosedDirectory

def scanFile (project : Project) (components : List String) (content : List Text.Glyph) :
    Except Failure ScannedFile :=
  match SourceFile.ofSource? content with
  | none =>
      .error (.syntaxError (components.foldl (fun path name => path.join ⟨name⟩) project.root))
  | some source =>
      .ok ⟨packagePath project.module ⟨String.intercalate "/" components.dropLast⟩,
        components.getLast?.getD "", source, Imports.ofSpecs source.imports⟩

def fileBelow? (directory : Location) (entry : Location × Node) :
    Option (List String × List Text.Glyph) :=
  match directory.isPrefixOf? entry.1, entry.2 with
  | some components, .file content _ => some (components, content)
  | _, _ => none

/-- The accepted source files of a project in the order of the walk, each read or refused. -/
def scan (project : Project) (filter : FileFilter) : List (Except Failure ScannedFile) :=
  match project.tree.find [] project.root with
  | .error fault => [.error (.walk project.root fault)]
  | .ok root =>
      ((project.tree.entries.filterMap (fileBelow? root)).filter fun (components, _) =>
          isReached components && filter.accepts ⟨String.intercalate "/" components⟩).map
        fun (components, content) => scanFile project components content

/-- The accepted source files of a project, unless one of them is refused. -/
def scanAll (project : Project) (filter : FileFilter) : Except Failure (List ScannedFile) :=
  (scan project filter).mapM id

end EndpointAtlas
