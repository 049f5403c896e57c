import EndpointAtlas.Failure
import EndpointAtlas.Glob.Match
import EndpointAtlas.Package

/-!
Which files of a project are analysed: Go files that an include pattern matches and no exclude
pattern does.
-/

namespace EndpointAtlas

structure FileFilter where
  included : List (List Glob.Token)
  excluded : List (List Glob.Token)
  includeTests : Bool

namespace FileFilter

def defaultPattern : String := "**/*.go"

def readPatterns (patterns : List String) : Except Failure (List (List Glob.Token)) :=
  patterns.mapM fun pattern =>
    match Glob.read pattern with
    | .ok tokens => .ok tokens
    | .error fault => .error (.glob pattern fault)

/-- Reads the include patterns before the exclude patterns; the first bad one is reported. -/
def ofPatterns (inclusions exclusions : List String) (includeTests : Bool) :
    Except Failure FileFilter := do
  let included ← readPatterns (if inclusions.isEmpty then [defaultPattern] else inclusions)
  let excluded ← readPatterns exclusions
  return ⟨included, excluded, includeTests⟩

def accepts (filter : FileFilter) (path : Path) : Bool :=
  path.extension? == some "go" && (filter.includeTests || !isTestPath path) &&
    !filter.excluded.any (Glob.isMatch · path.text) &&
    filter.included.any (Glob.isMatch · path.text)

end FileFilter

end EndpointAtlas
