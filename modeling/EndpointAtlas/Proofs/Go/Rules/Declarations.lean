import EndpointAtlas.Go.SourceFile
import EndpointAtlas.Proofs.Go.Rules.Lists

/-!
The declarations and statements of a file as rules of the grammar. What stands before a declaration
only documents what it declares.
-/

namespace EndpointAtlas.Go

open EndpointAtlas.Go.Parser

/-- What a declaration adds to a file, without the comments above it. Values and statements add
nothing. -/
inductive Declared where
  | package (name : String)
  | imports (specs : List ImportSpec)
  | types (specs : List TypeSpec)
  | func (decl : Option FuncDecl)
  | nothing

def FuncDecl.withDoc (decl : FuncDecl) (doc : Option (List String)) : FuncDecl :=
  { decl with doc := doc }

def Declared.addTo (file : SourceFile) (doc : Option (List String)) : Declared → SourceFile
  | package name => { file with package := name }
  | imports specs => { file with imports := file.imports ++ specs }
  | types specs =>
      { file with
        types := file.types ++ specs.map fun spec => { spec with doc := spec.doc <|> doc } }
  | func decl => { file with funcs := file.funcs ++ (decl.map (·.withDoc doc)).toList }
  | nothing => file

namespace Rule

def importName : Rule (Option String) := do
  let named ← Rule.seen .name
  let dotted ← Rule.skipped (.mark ".")
  if named then
    let name ← Rule.name
    return some name
  else return if dotted then some "." else none

def importSpec : Rule (Option ImportSpec) := do
  let aliasName ← importName
  let path := SourceFile.unquotePath (← Rule.taken .text)
  return if path.isEmpty then none else some ⟨aliasName, path⟩

def importDecl : Rule (List ImportSpec) := do
  Rule.keyword "import"
  if ← Rule.seen (.mark "(") then
    let specs ← Rule.siblings "(" ")" importSpec
    return specs.filterMap (·.2)
  else return (← importSpec).toList

def packageClause : Rule String := do
  Rule.keyword "package"
  let next ← Rule.next
  let name ← Rule.name
  return (next.bind (·.comment)).getD name

def namedFunc (receiver : Option TypeExpr) (name : String) : Rule (Option FuncDecl) := do
  let params ← Rule.read .signature
  if ← Rule.seen (.mark "\x7b") then Rule.read .block
  return some ⟨name, none, receiver, params⟩

def literalStmt : Rule (Option FuncDecl) := do
  Rule.read .block
  Rule.read (.suffixes true .value)
  if ← Rule.skipped (.operator binaryOperators) then Rule.read (.expr true)
  return none

def literalStmtOfName : Rule (Option FuncDecl) := do
  if ← Rule.skipped (.mark ".") then
    let _ ← Rule.name
  if ← Rule.skipped (.mark "[") then
    let arguments ← Rule.list (Rule.read .typeExpr) "]"
    Rule.failUnless !arguments.isEmpty
  literalStmt

def funcDecl : Rule (Option FuncDecl) := do
  Rule.keyword "func"
  if ← Rule.seen .name then
    let name ← Rule.name
    if ← Rule.skipped (.mark "[") then Rule.read .typeParams
    namedFunc none name
  else
    let params ← Rule.read .paramList
    if ← Rule.seen .name then
      let first ← Rule.name
      if ← Rule.seen (.mark "(") then namedFunc (params.head?.map (·.type)) first
      else literalStmtOfName
    else
      if ← Rule.seen (.mark "(") then
        let _ ← Rule.read .paramList
      else if ← Rule.seen .startsType then
        let _ ← Rule.read .typeExpr
      literalStmt

def declaration : Rule Declared := do
  let some first ← Rule.next | Rule.refuse
  match first.kind, first.text with
  | .keyword, "package" => return .package (← packageClause)
  | .keyword, "import" => return .imports (← importDecl)
  | .keyword, "type" => return .types (← Rule.read .typeDecl)
  | .keyword, "func" => return .func (← funcDecl)
  | .terminator, _ => Rule.refuse
  | _, _ => do
      Rule.read .stmt
      return .nothing

variable {depth : Nat}

theorem map_ite {α β : Type} (change : α → β) (condition : Prop) [Decidable condition]
    (one other : Parser α) :
    change <$> (if condition then one else other) =
      if condition then change <$> one else change <$> other := apply_ite _ _ _ _

theorem run_import_spec : importSpec.run depth = SourceFile.importSpec := by
  rw [SourceFile.importSpec]
  simp only [importSpec, importName, run_bind, run_seen, run_skipped, run_ite, run_name, run_taken,
    run_pure, bind_assoc, bind_map_left, Test.accepts_name, Test.accepts_mark, Test.accepts_text]
  refine bind_congr fun named => bind_congr fun dotted => ?_
  cases named <;> cases dotted <;> simp

theorem run_package_clause : packageClause.run depth = SourceFile.packageClause := by
  rw [SourceFile.packageClause]
  simp only [packageClause, run_bind, run_keyword, run_next, run_name, run_pure, bind_map_left,
    name_bind]
  refine bind_congr fun _ => ?_
  funext tokens
  cases tokens with
  | nil => rfl
  | cons token tokens =>
      rw [next_bind, List.head?_cons, bind_apply, bind_apply]
      cases named : isName token with
      | true => simp [Parser.take, named, Token.glance]
      | false => simp [Parser.take, named]

theorem run_import_decl : importDecl.run depth = SourceFile.importDecl depth := by
  have listed : (fun specs => specs.filterMap (·.2)) <$>
      bracketed "(" ")" depth SourceFile.importSpec = (do
        mark "("
        List.filterMap id <$>
          siblingList depth (fun _ _ => SourceFile.importSpec) ")" [] :
            Parser (List ImportSpec)) := by
    have mapped := congrArg (List.filterMap id <$> ·)
      (@bracketed_const _ depth "(" ")" SourceFile.importSpec)
    simpa only [Functor.map_map, map_bind, List.filterMap_map, Function.id_comp] using mapped
  rw [SourceFile.importDecl]
  simp only [importDecl, run_bind, run_keyword, run_seen, run_ite, run_siblings, run_import_spec,
    run_pure, Test.accepts_mark, bind_pure_comp, skip_mark]
  rw [← listed]

theorem run_named_func (doc : Option (List String)) (receiver : Option TypeExpr) (name : String) :
    Go.namedFunc depth doc receiver name =
      Option.map (·.withDoc doc) <$> (namedFunc receiver name).run depth := by
  rw [Go.namedFunc]
  simp [namedFunc, Reader.read, map_ite, FuncDecl.withDoc]

theorem run_literal_stmt (doc : Option (List String)) :
    Go.literalStmt depth = Option.map (·.withDoc doc) <$> literalStmt.run depth := by
  rw [Go.literalStmt]
  simp [literalStmt, Reader.read, map_ite]

theorem run_literal_stmt_of_name (doc : Option (List String)) :
    Go.literalStmtOfName depth = Option.map (·.withDoc doc) <$> literalStmtOfName.run depth := by
  rw [Go.literalStmtOfName]
  simp [literalStmtOfName, Reader.read, map_ite, run_literal_stmt doc]

theorem run_func_decl (before : List Sibling) (row : Nat) :
    Go.funcDecl depth before row =
      Option.map (·.withDoc (docOf row before)) <$> funcDecl.run depth := by
  rw [Go.funcDecl]
  simp [funcDecl, Reader.read, map_ite, run_named_func, run_literal_stmt (docOf row before),
    run_literal_stmt_of_name (docOf row before)]

theorem run_declaration (file : SourceFile) (before : List Sibling) (row : Nat) :
    SourceFile.declaration depth file before row =
      (·.addTo file (docOf row before)) <$> declaration.run depth := by
  rw [SourceFile.declaration]
  simp only [declaration, run_bind, run_next, bind_map_left, map_bind]
  refine bind_congr fun next => ?_
  cases next with
  | none => rfl
  | some first =>
      simp only [Option.map_some, Token.glance]
      generalize first.kind = kind, first.text = text
      split
      · simp [run_package_clause, Declared.addTo]
      · simp [run_import_decl, Declared.addTo]
      · simp [Reader.read, type_decl_eq before, Declared.addTo]
      · simp [run_func_decl before, Declared.addTo]
      · simp only [run_refuse]
        rfl
      · simp [Reader.read, Declared.addTo]

end Rule

end EndpointAtlas.Go
