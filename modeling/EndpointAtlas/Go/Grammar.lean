import EndpointAtlas.Go.Imports
import EndpointAtlas.Go.Parser
import EndpointAtlas.Go.TypeExpr

/-!
The grammar of Go. Types and signatures are read into type expressions; statements and expressions
are only checked. The first argument of a reader bounds how deeply readers may call each other.
-/

namespace EndpointAtlas.Go

open Go.Parser

inductive ParamItem where
  | alone (type : TypeExpr)
  | named (name : String) (type : TypeExpr)
  | variadic (name : Option String) (type : TypeExpr)

def ParamItem.unnamed (names : List String) : List Param :=
  names.map fun name => ⟨none, .ident name⟩

/-- The parameters of a list that names some: names without a type share the next type. -/
def ParamItem.grouped? (waiting : List String) : List ParamItem → Option (List Param)
  | [] => if waiting.isEmpty then some [] else none
  | .alone (.ident name) :: rest => grouped? (waiting ++ [name]) rest
  | .alone _ :: _ => none
  | .named name type :: rest =>
      (grouped? [] rest).map
        ((waiting ++ [name]).map (fun name => ⟨some name, type⟩) ++ ·)
  | .variadic name type :: rest =>
      (grouped? [] rest).map (unnamed waiting ++ ⟨name, .slice type⟩ :: ·)

def ParamItem.typesAlone : List ParamItem → List Param
  | [] => []
  | .alone type :: rest => ⟨none, type⟩ :: typesAlone rest
  | .named name type :: rest => ⟨some name, type⟩ :: typesAlone rest
  | .variadic name type :: rest => ⟨name, .slice type⟩ :: typesAlone rest

def ParamItem.isNamed : ParamItem → Bool
  | named _ _ => true
  | _ => false

def ParamItem.params? (items : List ParamItem) : Option (List Param) :=
  if items.any isNamed then grouped? [] items else some (typesAlone items)

/-- A tag without its quotes. In an interpreted text only escaped quotes are resolved. -/
def unquoteTag (text : List Char) : List Char :=
  match text with
  | '\x60' :: rest => ((Text.beforeEnd? ['\x60'] rest)).getD text
  | '"' :: rest => ((Text.beforeEnd? ['"'] rest).map unescapeQuotes).getD text
  | _ => text
where
  unescapeQuotes : List Char → List Char
    | '\\' :: '"' :: rest => '"' :: unescapeQuotes rest
    | c :: rest => c :: unescapeQuotes rest
    | [] => []

/-- A type that follows a mark. A comment between the two takes its place. -/
def afterMark (next : Option Token) (type : TypeExpr) : TypeExpr :=
  match next with
  | some token =>
      match token.comments with
      | comment :: _ => .other comment.text
      | [] => type
  | none => type

/-- What an operand is, as far as a brace after it depends on it: a name that may be the type of a
composite literal, a written type of one, or neither. -/
inductive OperandKind where
  | name
  | literalType
  | value
  deriving DecidableEq

/-- What a simple statement is, as far as the header around it depends on it. -/
inductive SimpleKind where
  | empty
  | expression
  | range
  | other
  deriving DecidableEq

def binaryOperators : List String := [
  "||", "&&", "==", "!=", "<", "<=", ">", ">=", "+", "-", "|", "^", "*", "/", "%", "<<", ">>", "&",
  "&^"]

def unaryOperators : List String := ["+", "-", "!", "^", "&", "*", "<-", "~"]

def assignOperators : List String := [
  ":=", "=", "+=", "-=", "*=", "/=", "%=", "&=", "|=", "^=", "<<=", ">>=", "&^="]

def isOperator (operators : List String) (token : Token) : Bool :=
  token.kind == .mark && operators.contains token.text

def startsType (token : Token) : Bool :=
  match token.kind with
  | .name => true
  | .keyword => ["struct", "interface", "map", "chan", "func"].contains token.text
  | .mark => ["*", "[", "(", "<-"].contains token.text
  | _ => false

def seesTypeSwitchGuard : Parser Bool := fun tokens =>
  let guarded := match tokens with
    | dot :: opening :: word :: _ =>
        isMark "." dot && isMark "(" opening && isKeyword "type" word
    | _ => false
  some (guarded, tokens)

def seesLabel : Parser Bool := fun tokens =>
  let labelled := match tokens with
    | label :: colon :: _ => isName label && isMark ":" colon
    | _ => false
  some (labelled, tokens)

def failUnless (condition : Bool) : Parser Unit := if condition then pure () else failure

mutual

def typeExpr : Nat → Parser TypeExpr
  | 0 => failure
  | depth + 1 => do
      let some first ← next? | failure
      match first.kind, first.text with
      | .name, _ => typeName depth
      | .mark, "*" => do
          mark "*"
          let next ← next?
          let target ← typeExpr depth
          return .pointer (afterMark next target)
      | .mark, "(" => do
          mark "("
          let next ← next?
          let inner ← typeExpr depth
          mark ")"
          return afterMark next inner
      | .mark, "[" => do
          mark "["
          if ← skip (isMark "]") then return .slice (← typeExpr depth)
          unless ← skip (isMark "...") do expr depth true
          mark "]"
          return .array (← typeExpr depth)
      | .keyword, "struct" => do
          keyword "struct"
          mark "\x7b"
          let fields ← siblingList depth (fun _ _ => fieldDecl depth) "\x7d" []
          return .struct fields.flatten
      | .keyword, "interface" => do
          keyword "interface"
          let some brace ← next? | failure
          mark "\x7b"
          let elements ←
            siblingList depth (interfaceElement depth) "\x7d" (siblingsBefore brace [])
          return .interface (elements.filterMap id)
      | .keyword, "map" => do
          keyword "map"
          mark "["
          let key ← typeExpr depth
          mark "]"
          return .map key (← typeExpr depth)
      | _, _ => do
          let (_, tokens) ← withTokens (uninterpretedType depth)
          return .other (Token.spanText tokens)

def uninterpretedType : Nat → Parser Unit
  | 0 => failure
  | depth + 1 => do
      if ← skip (isKeyword "chan") then
        let _ ← skip (isMark "<-")
        discard (typeExpr depth)
      else if ← skip (isMark "<-") then
        keyword "chan"
        discard (typeExpr depth)
      else
        keyword "func"
        discard (signature depth)

/-- A name, perhaps of another package. With type arguments it is kept as source text. -/
def typeName : Nat → Parser TypeExpr
  | 0 => failure
  | depth + 1 => do
      let ((type, isGeneric), tokens) ← withTokens do
        let first ← name
        let type : TypeExpr ←
          if ← skip (isMark ".") then pure (.qualified first (← name)) else pure (.ident first)
        if ← skip (isMark "[") then
          let arguments ← commaList depth (typeExpr depth) "]"
          failUnless !arguments.isEmpty
          return (type, true)
        else return (type, false)
      return if isGeneric then .other (Token.spanText tokens) else type

def signature : Nat → Parser (List Param)
  | 0 => failure
  | depth + 1 => do
      let params ← paramList depth
      if ← sees (isMark "(") then discard (paramList depth)
      else if ← sees startsType then discard (typeExpr depth)
      return params

def paramList : Nat → Parser (List Param)
  | 0 => failure
  | depth + 1 => do
      mark "("
      let items ← commaList depth (paramItem depth) ")"
      match ParamItem.params? items with
      | some params => return params
      | none => failure

def paramItem : Nat → Parser ParamItem
  | 0 => failure
  | depth + 1 => do
      let ended (item : ParamItem) : Parser ParamItem := do
        failUnless (← sees fun token => isMark "," token || isMark ")" token)
        return item
      let named : Parser ParamItem := do
        let first ← name
        if ← skip (isMark "...") then ended (.variadic (some first) (← typeExpr depth))
        else ended (.named first (← typeExpr depth))
      let alone : Parser ParamItem := do
        if ← skip (isMark "...") then ended (.variadic none (← typeExpr depth))
        else ended (.alone (← typeExpr depth))
      either named alone

def fieldDecl : Nat → Parser (List Field)
  | 0 => failure
  | depth + 1 => do
      let tag : Parser (Option String) := do
        if ← sees (·.kind == .text) then
          let token ← take (·.kind == .text)
          return some (String.ofList (unquoteTag token.text.toList))
        else return none
      let ended (fields : List Field) : Parser (List Field) := do
        failUnless (← sees fun token => isTerminator token || isMark "\x7d" token)
        return fields
      let named : Parser (List Field) := do
        let names ← commaList1 depth name
        let type ← typeExpr depth
        let tag ← tag
        ended (names.map fun name => ⟨some name, type, tag⟩)
      let embedded : Parser (List Field) := do
        let isPointer ← skip (isMark "*")
        let type ← typeName depth
        let tag ← tag
        ended [⟨none, if isPointer then .pointer type else type, tag⟩]
      either named embedded

def interfaceElement : Nat → List Sibling → Nat → Parser (Option Element)
  | 0, _, _ => failure
  | depth + 1, before, row => do
      let method : Parser (Option Element) := do
        let name ← name
        failUnless (← sees (isMark "("))
        let params ← signature depth
        return some (.method ⟨name, docOf row before, params⟩)
      either method (constraint depth)

/-- A union of types. Only a single name is an embedded interface. -/
def constraint : Nat → Parser (Option Element)
  | 0 => failure
  | depth + 1 => do
      let startsWithName ← sees isName
      let _ ← skip (isMark "~")
      let first ← typeExpr depth
      if ← skip (isMark "|") then
        let _ ← constraint depth
        return none
      match first with
      | .ident _ | .qualified _ _ =>
          return if startsWithName then some (.embedded first) else none
      | _ => return none

def typeParams : Nat → Parser Unit
  | 0 => failure
  | depth + 1 => do
      let group : Parser Unit := do
        let _ ← commaList1 depth name
        discard (constraint depth)
      let groups ← commaList depth group "]"
      failUnless !groups.isEmpty

/-- An expression, or a type in the place of one. Where a block may follow, the name of a type
starts no composite literal. -/
def expr : Nat → Bool → Parser Unit
  | 0, _ => failure
  | depth + 1, literals => do
      unary depth literals
      if ← skip (isOperator binaryOperators) then expr depth literals

def unary : Nat → Bool → Parser Unit
  | 0, _ => failure
  | depth + 1, literals => do
      if ← skip (isOperator unaryOperators) then unary depth literals
      else
        let kind ← operand depth
        suffixes depth literals kind

def operand : Nat → Parser OperandKind
  | 0 => failure
  | depth + 1 => do
      let some first ← next? | failure
      match first.kind, first.text with
      | .name, _ => do
          let _ ← name
          return .name
      | .number, _ | .rune, _ | .text, _ => do
          let _ ← take fun _ => true
          return .value
      | .mark, "(" => do
          mark "("
          expr depth true
          mark ")"
          return .value
      | .keyword, "func" => do
          keyword "func"
          let _ ← signature depth
          if ← sees (isMark "\x7b") then block depth
          return .value
      | .mark, "[" | .keyword, "struct" | .keyword, "map" => do
          let _ ← typeExpr depth
          return .literalType
      | .keyword, "interface" | .keyword, "chan" => do
          let _ ← typeExpr depth
          return .value
      | _, _ => failure

def suffixes : Nat → Bool → OperandKind → Parser Unit
  | 0, _, _ => failure
  | depth + 1, literals, kind => do
      if ← seesTypeSwitchGuard then return ()
      if ← skip (isMark ".") then
        if ← skip (isMark "(") then
          let _ ← typeExpr depth
          mark ")"
          suffixes depth literals .value
        else
          let _ ← name
          suffixes depth literals .name
      else if ← skip (isMark "(") then
        callArguments depth
        suffixes depth literals .value
      else if ← skip (isMark "[") then
        let isSlice ← indices depth
        suffixes depth literals (if isSlice then .value else kind)
      else if ← sees (isMark "\x7b") then
        if kind = .literalType || (kind = .name && literals) then
          literalValue depth
          suffixes depth literals .value

/-- The arguments of a call, without the opening parenthesis. -/
def callArguments : Nat → Parser Unit
  | 0 => failure
  | depth + 1 => do
      if ← skip (isMark ")") then return ()
      expr depth true
      let _ ← skip (isMark "...")
      if ← skip (isMark ",") then callArguments depth else mark ")"

/-- An index, the bounds of a slice or type arguments, without the opening bracket; says whether
they are bounds. -/
def indices : Nat → Parser Bool
  | 0 => failure
  | depth + 1 => do
      unless ← sees (isMark ":") do expr depth true
      if ← skip (isMark ":") then
        if ← skip (isMark "]") then return true
        expr depth true
        if ← skip (isMark ":") then expr depth true
        mark "]"
        return true
      else if ← skip (isMark ",") then
        let _ ← commaList depth (typeExpr depth) "]"
        return false
      else
        mark "]"
        return false

def literalValue : Nat → Parser Unit
  | 0 => failure
  | depth + 1 => do
      mark "\x7b"
      let value : Parser Unit := do
        if ← sees (isMark "\x7b") then literalValue depth else expr depth true
      let element : Parser Unit := do
        value
        if ← skip (isMark ":") then value
      discard (commaList depth element "\x7d")

/-- A simple statement or the absence of one. A range clause is one only where it is allowed. -/
def simpleStmt : Nat → Bool → Bool → Parser SimpleKind
  | 0, _, _ => failure
  | depth + 1, literals, ranges => do
      if ← sees (fun token =>
          isTerminator token || isMark "\x7b" token || isMark "\x7d" token) then
        return .empty
      let startsRange (token : Token) : Bool := ranges && isKeyword "range" token
      if ← skip startsRange then
        expr depth literals
        return .range
      let operands ← commaList1 depth (expr depth literals)
      if ← skip (isOperator assignOperators) then
        if ← skip startsRange then
          expr depth literals
          return .range
        let _ ← commaList1 depth (expr depth literals)
        return .other
      failUnless (operands.length == 1)
      if ← skip (isOperator ["++", "--"]) then return .other
      if ← skip (isMark "<-") then
        expr depth literals
        return .other
      return .expression

def block : Nat → Parser Unit
  | 0 => failure
  | depth + 1 => do
      mark "\x7b"
      discard (siblingList depth (fun _ _ => stmt depth) "\x7d" [])

def stmt : Nat → Parser Unit
  | 0 => failure
  | depth + 1 => do
      if ← seesLabel then
        let _ ← name
        mark ":"
        stmt depth
      else
        let some first ← next? | failure
        match first.kind, first.text with
        | .keyword, "const" | .keyword, "var" => valueDecl depth
        | .keyword, "type" => discard (typeDecl depth [] 0)
        | .mark, "\x7b" => block depth
        | .keyword, "if" => ifStmt depth
        | .keyword, "for" => forStmt depth
        | .keyword, "switch" => switchStmt depth
        | .keyword, "select" => do
            keyword "select"
            mark "\x7b"
            selectClauses depth
        | .keyword, "go" | .keyword, "defer" => do
            let _ ← take fun _ => true
            expr depth true
        | .keyword, "return" => do
            keyword "return"
            unless ← sees (fun token => isTerminator token || isMark "\x7d" token) do
              discard (commaList1 depth (expr depth true))
        | .keyword, "break" | .keyword, "continue" | .keyword, "goto" => do
            let _ ← take fun _ => true
            let _ ← skip isName
            return ()
        | .keyword, "fallthrough" => keyword "fallthrough"
        | _, _ => discard (simpleStmt depth true false)

def ifStmt : Nat → Parser Unit
  | 0 => failure
  | depth + 1 => do
      keyword "if"
      let first ← simpleStmt depth false false
      let condition ←
        if ← skip isTerminator then simpleStmt depth false false else pure first
      failUnless (condition == .expression)
      block depth
      if ← skip (isKeyword "else") then
        if ← sees (isKeyword "if") then ifStmt depth else block depth

def forStmt : Nat → Parser Unit
  | 0 => failure
  | depth + 1 => do
      keyword "for"
      let first ← simpleStmt depth false true
      if first != .range then
        if ← skip isTerminator then
          let condition ← simpleStmt depth false false
          failUnless (condition == .empty || condition == .expression)
          if ← skip isTerminator then discard (simpleStmt depth false false)
          else failUnless (condition == .empty)
        else failUnless (first == .empty || first == .expression)
      block depth

def switchStmt : Nat → Parser Unit
  | 0 => failure
  | depth + 1 => do
      keyword "switch"
      let first ← simpleStmt depth false false
      let value ← if ← skip isTerminator then simpleStmt depth false false else pure first
      if ← seesTypeSwitchGuard then
        mark "."
        mark "("
        keyword "type"
        mark ")"
      else failUnless (value == .empty || value == .expression)
      mark "\x7b"
      switchClauses depth

def switchClauses : Nat → Parser Unit
  | 0 => failure
  | depth + 1 => do
      if ← skip (isMark "\x7d") then return ()
      if ← skip (isKeyword "default") then pure ()
      else
        keyword "case"
        discard (commaList1 depth (expr depth true))
      mark ":"
      clauseStmts depth
      switchClauses depth

def selectClauses : Nat → Parser Unit
  | 0 => failure
  | depth + 1 => do
      if ← skip (isMark "\x7d") then return ()
      if ← skip (isKeyword "default") then pure ()
      else
        keyword "case"
        discard (simpleStmt depth true false)
      mark ":"
      clauseStmts depth
      selectClauses depth

def clauseStmts : Nat → Parser Unit
  | 0 => failure
  | depth + 1 => do
      let ends (token : Token) : Bool :=
        isMark "\x7d" token || isKeyword "case" token || isKeyword "default" token
      if ← sees ends then return ()
      stmt depth
      if ← skip isTerminator then clauseStmts depth
      else failUnless (← sees ends)

def valueDecl : Nat → Parser Unit
  | 0 => failure
  | depth + 1 => do
      let isVariable ← sees (isKeyword "var")
      let _ ← take fun token => isKeyword "var" token || isKeyword "const" token
      let spec : Parser Unit := do
        let _ ← commaList1 depth name
        let typed ← sees startsType
        if typed then discard (typeExpr depth)
        if ← skip (isMark "=") then discard (commaList1 depth (expr depth true))
        else failUnless (if isVariable then typed else !typed)
      if ← skip (isMark "(") then discard (siblingList depth (fun _ _ => spec) ")" [])
      else spec

/-- A declaration of types. The comments above it document those of its types that have no
comments of their own. -/
def typeDecl : Nat → List Sibling → Nat → Parser (List TypeSpec)
  | 0, _, _ => failure
  | depth + 1, before, row => do
      keyword "type"
      let declDoc := docOf row before
      let some next ← next? | failure
      let within := siblingsBefore next []
      let specs ←
        if ← skip (isMark "(") then
          siblingList depth (typeSpec depth) ")" within
        else pure [← typeSpec depth within next.row]
      return specs.map fun spec => { spec with doc := spec.doc <|> declDoc }

def typeSpec : Nat → List Sibling → Nat → Parser TypeSpec
  | 0, _, _ => failure
  | depth + 1, before, row => do
      let name ← name
      let plain : Parser TypeExpr := do
        let _ ← skip (isMark "=")
        typeExpr depth
      let generic : Parser TypeExpr := do
        mark "["
        typeParams depth
        plain
      let ended (reader : Parser TypeExpr) : Parser TypeExpr := do
        let type ← reader
        failUnless (← sees fun token =>
          isTerminator token || isMark ")" token || isMark "\x7d" token)
        return type
      let type ← either (ended plain) (ended generic)
      return ⟨name, docOf row before, type⟩

end

def namedFunc (depth : Nat) (doc : Option (List String)) (receiver : Option TypeExpr)
    (name : String) : Parser (Option FuncDecl) := do
  let params ← signature depth
  if ← sees (isMark "\x7b") then block depth
  return some ⟨name, doc, receiver, params⟩

/-- A statement that starts with a function literal, after the result of the function. It declares
nothing. -/
def literalStmt (depth : Nat) : Parser (Option FuncDecl) := do
  block depth
  suffixes depth true .value
  if ← skip (isOperator binaryOperators) then expr depth true
  return none

/-- The same after the first name of the result. -/
def literalStmtOfName (depth : Nat) : Parser (Option FuncDecl) := do
  if ← skip (isMark ".") then discard name
  if ← skip (isMark "[") then
    let arguments ← commaList depth (typeExpr depth) "]"
    failUnless !arguments.isEmpty
  literalStmt depth

/-- A function or a method with the siblings before it and its row, or a statement that starts with
a function literal. A name after the parameters is the name of a method if a parenthesis follows,
and starts a result otherwise. -/
def funcDecl (depth : Nat) (before : List Sibling) (row : Nat) : Parser (Option FuncDecl) := do
  keyword "func"
  let doc := docOf row before
  if ← sees isName then
    let name ← name
    if ← skip (isMark "[") then typeParams depth
    namedFunc depth doc none name
  else
    let params ← paramList depth
    if ← sees isName then
      let first ← name
      if ← sees (isMark "(") then namedFunc depth doc (params.head?.map (·.type)) first
      else literalStmtOfName depth
    else
      if ← sees (isMark "(") then discard (paramList depth)
      else if ← sees startsType then discard (typeExpr depth)
      literalStmt depth

end EndpointAtlas.Go
