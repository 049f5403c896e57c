import EndpointAtlas.Go.Grammar

/-!
Go source files as the analysis sees them: package name, imports, top-level types and functions.
A package clause may be missing or repeated, imports may follow other declarations, and statements
may stand between declarations.
-/

namespace EndpointAtlas.Go

open Go.Parser

structure SourceFile where
  package : String
  imports : List ImportSpec
  types : List TypeSpec
  funcs : List FuncDecl
  deriving Repr, Inhabited

namespace SourceFile

def isImportQuote (c : Char) : Bool := c == '"' || c == '\x60'

def unquotePath (text : String) : String :=
  String.ofList (Text.dropEndWhile isImportQuote (text.toList.dropWhile isImportQuote))

def importSpec : Parser (Option ImportSpec) := do
  let aliasName : Option String ←
    if ← sees isName then some <$> name
    else if ← skip (isMark ".") then pure (some ".")
    else pure none
  let literal ← take (·.kind == .text)
  let path := unquotePath literal.text
  return if path.isEmpty then none else some ⟨aliasName, path⟩

def importDecl (depth : Nat) : Parser (List ImportSpec) := do
  keyword "import"
  if ← skip (isMark "(") then
    return (← siblingList depth (fun _ _ => importSpec) ")" []).filterMap id
  else return (← importSpec).toList

/-- A comment before the name takes its place. -/
def packageClause : Parser String := do
  keyword "package"
  let token ← take isName
  return (token.comments.head?.map (·.text)).getD token.text

/-- What one top-level declaration adds to a file. A statement adds nothing. -/
def declaration (depth : Nat) (file : SourceFile) (before : List Sibling) (row : Nat) :
    Parser SourceFile := do
  let some first ← next? | failure
  match first.kind, first.text with
  | .keyword, "package" => return { file with package := ← packageClause }
  | .keyword, "import" => return { file with imports := file.imports ++ (← importDecl depth) }
  | .keyword, "type" => return { file with types := file.types ++ (← typeDecl depth before row) }
  | .keyword, "func" =>
      return { file with funcs := file.funcs ++ (← funcDecl depth before row).toList }
  | .terminator, _ => failure
  | _, _ => do
      stmt depth
      return file

def declarations (depth : Nat) :
    Nat → SourceFile → List Sibling → List Token → Option SourceFile
  | _, file, _, [] => some file
  | 0, _, _, _ => none
  | remaining + 1, file, before, first :: rest => do
      let siblings := siblingsBefore first before
      let ((extended, taken), after) ←
        withTokens (declaration depth file siblings first.row) (first :: rest)
      let endRow := (taken.getLast?.map (·.endRow)).getD first.row
      match after with
      | [] => some extended
      | terminator :: tail =>
          if isTerminator terminator then
            declarations depth remaining extended (.declaration endRow :: siblings) tail
          else none

/-- A bound on how deeply the readers call each other on so many tokens. -/
def depthBound (tokens : Nat) : Nat := 40 * (tokens + 2)

def ofTokens? (tokens : List Token) : Option SourceFile :=
  declarations (depthBound tokens.length) (tokens.length + 1) ⟨"", [], [], []⟩ [] tokens

def ofSource? (source : List Text.Glyph) : Option SourceFile :=
  (Token.ofSource? source).bind ofTokens?

end SourceFile

end EndpointAtlas.Go
