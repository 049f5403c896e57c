import EndpointAtlas.Assembly.Endpoints
import EndpointAtlas.Document.Aliases
import EndpointAtlas.GoMod

/-!
The analysis of a project: all of its files are read before the first declaration is looked at, so
that a syntax error anywhere leaves no document behind.
-/

namespace EndpointAtlas

structure AnalysisOptions where
  root : Path
  module : String
  inclusions : List String
  exclusions : List String
  includeTests : Bool
  /-- The type of the parameters that hold the context of a request. -/
  contextType : Ident
  deriving Repr

/-- The type of request contexts unless another one is configured. -/
def defaultContextType : String := "context Context"

def readContextType (text : String) : Except Failure Ident :=
  match Ident.parse? text with
  | some ident => .ok ident
  | none => .error (.config (.invalidContextType text))

namespace AnalysisOptions

def project (options : AnalysisOptions) (tree : Tree) : Project :=
  ⟨tree, options.root, options.module, options.includeTests⟩

def scannedFiles (options : AnalysisOptions) (tree : Tree) : Except Failure (List ScannedFile) := do
  let filter ← FileFilter.ofPatterns options.inclusions options.exclusions options.includeTests
  scanAll (options.project tree) filter

def scope (options : AnalysisOptions) (tree : Tree) (files : List ScannedFile) :
    Assembly.Scope :=
  let project := options.project tree
  ⟨project, options.contextType, project.typeBound files⟩

end AnalysisOptions

def analysis (tree : Tree) (options : AnalysisOptions) : Assemble Document := do
  let files ← Assembly.ofExcept (options.scannedFiles tree)
  if files.isEmpty then Assembly.warn (.noSources options.root.text)
  Assembly.addFiles (options.scope tree files) files
  return (← get).document.withAliases

/-- The document of a project, or why there is none, and what was passed over. -/
def analyze (tree : Tree) (options : AnalysisOptions) : Except Failure Document × List Warning :=
  match analysis tree options .initial with
  | .ok document assembly => (.ok document, assembly.warnings)
  | .error failure assembly => (.error failure, assembly.warnings)

end EndpointAtlas
