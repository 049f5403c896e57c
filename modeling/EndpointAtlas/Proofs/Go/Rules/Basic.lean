import EndpointAtlas.Proofs.Go.Readers

/-!
The grammar as data. A rule says what a reader of the grammar does step by step: which token it
looks at, which one it takes, and which reader it calls. A rule that is carried out is the reader it
is a rule of, so that what holds of all rules holds of all readers.
-/

namespace EndpointAtlas.Go

open Go.Parser

abbrev Test := TokenKind → String → Bool

namespace Test

def accepts (test : Test) (token : Token) : Bool := test token.kind token.text

def mark (text : String) : Test := fun kind shown => kind == .mark && shown == text

def keyword (text : String) : Test := fun kind shown => kind == .keyword && shown == text

def name : Test := fun kind _ => kind == .name

def terminator : Test := fun kind _ => kind == .terminator

def text : Test := fun kind _ => kind == .text

def any : Test := fun _ _ => true

def operator (operators : List String) : Test :=
  fun kind shown => kind == .mark && operators.contains shown

def or (one other : Test) : Test := fun kind shown => one kind shown || other kind shown

def startsType : Test := fun kind shown =>
  match kind with
  | .name => true
  | .keyword => ["struct", "interface", "map", "chan", "func"].contains shown
  | .mark => ["*", "[", "(", "<-"].contains shown
  | _ => false

end Test

/-- What a reader may see of the next token, apart from its place: what it is, the first comment in
front of it, and the comments that document what it starts, if nothing stands before it. -/
structure Glance where
  kind : TokenKind
  text : String
  comment : Option String
  doc : Option (List String)

def Token.glance (token : Token) : Glance :=
  ⟨token.kind, token.text, token.comments.head?.map (·.text),
    docOf token.row (siblingsBefore token [])⟩

inductive Look where
  /-- The word `type` in parentheses, after a point. -/
  | guard
  /-- The word `type` in parentheses. -/
  | word
  | label

namespace Look

def sees : Look → List Token → Bool
  | guard, dot :: opening :: inner :: _ =>
      isMark "." dot && isMark "(" opening && isKeyword "type" inner
  | word, opening :: inner :: _ => isMark "(" opening && isKeyword "type" inner
  | label, first :: colon :: _ => isName first && isMark ":" colon
  | _, _ => false

end Look

/-- A reader of the grammar with its arguments other than its bound and what stands before. -/
inductive Reader : Type → Type where
  | typeExpr : Reader TypeExpr
  | uninterpretedType : Reader Unit
  | typeName : Reader TypeExpr
  | signature : Reader (List Param)
  | paramList : Reader (List Param)
  | paramItem : Reader ParamItem
  | fieldDecl : Reader (List Field)
  | element : Reader (Option Element)
  | constraint : Reader (Option Element)
  | typeParams : Reader Unit
  | expr (literals : Bool) : Reader Unit
  | unary (literals : Bool) : Reader Unit
  | operand : Reader OperandKind
  | suffixes (literals : Bool) (kind : OperandKind) : Reader Unit
  | callArguments : Reader Unit
  | indices : Reader Bool
  | literalValue : Reader Unit
  | simpleStmt (literals ranges : Bool) : Reader SimpleKind
  | block : Reader Unit
  | stmt : Reader Unit
  | ifStmt : Reader Unit
  | forStmt : Reader Unit
  | switchStmt : Reader Unit
  | switchClauses : Reader Unit
  | selectClauses : Reader Unit
  | clauseStmts : Reader Unit
  | valueDecl : Reader Unit
  | typeSpec : Reader TypeSpec
  | typeDecl : Reader (List TypeSpec)

inductive Rule : Type → Type 1 where
  | done {α : Type} (value : α) : Rule α
  | refuse {α : Type} : Rule α
  | head {α : Type} (next : Option Glance → Rule α) : Rule α
  | sees {α : Type} (test : Test) (next : Bool → Rule α) : Rule α
  | look {α : Type} (look : Look) (next : Bool → Rule α) : Rule α
  | skip {α : Type} (test : Test) (next : Bool → Rule α) : Rule α
  | take {α : Type} (test : Test) (next : String → Rule α) : Rule α
  | call {α β : Type} (reader : Reader β) (next : β → Rule α) : Rule α
  /-- The source text of what an inner rule takes. -/
  | span {α β : Type} (inner : Rule β) (next : β → String → Rule α) : Rule α
  | commas {α β : Type} (item : Rule β) (close : String) (next : List β → Rule α) : Rule α
  | commas1 {α β : Type} (item : Rule β) (next : List β → Rule α) : Rule α
  /-- Items in brackets that terminators end, each with the comments that document it. -/
  | group {α β : Type} (opening closing : String) (item : Rule β)
      (next : List (Option (List String) × β) → Rule α) : Rule α

namespace Rule

variable {α β : Type}

protected def bind : Rule α → (α → Rule β) → Rule β
  | done value, then_ => then_ value
  | refuse, _ => refuse
  | head next, then_ => head fun glance => (next glance).bind then_
  | sees test next, then_ => sees test fun seen => (next seen).bind then_
  | look kind next, then_ => look kind fun seen => (next seen).bind then_
  | skip test next, then_ => skip test fun skipped => (next skipped).bind then_
  | take test next, then_ => take test fun text => (next text).bind then_
  | call reader next, then_ => call reader fun value => (next value).bind then_
  | span inner next, then_ => span inner fun value text => (next value text).bind then_
  | commas item close next, then_ => commas item close fun values => (next values).bind then_
  | commas1 item next, then_ => commas1 item fun values => (next values).bind then_
  | group opening closing item next, then_ =>
      group opening closing item fun values => (next values).bind then_

instance : Monad Rule where
  pure := done
  bind := Rule.bind

/-! Rules for the readers that the grammar is made of. -/

protected def mark (text : String) : Rule Unit := take (.mark text) fun _ => done ()

protected def keyword (text : String) : Rule Unit := take (.keyword text) fun _ => done ()

protected def name : Rule String := take .name done

protected def next : Rule (Option Glance) := head done

protected def skipped (test : Test) : Rule Bool := skip test done

protected def seen (test : Test) : Rule Bool := sees test done

protected def looked (kind : Look) : Rule Bool := look kind done

protected def taken (test : Test) : Rule String := take test done

protected def read (reader : Reader α) : Rule α := call reader done

protected def failUnless (condition : Bool) : Rule Unit := if condition then done () else refuse

protected def list (item : Rule α) (close : String) : Rule (List α) := commas item close done

protected def list1 (item : Rule α) : Rule (List α) := commas1 item done

protected def siblings (opening closing : String) (item : Rule α) :
    Rule (List (Option (List String) × α)) := group opening closing item done

protected def text (inner : Rule α) : Rule (α × String) :=
  span inner fun value text => done (value, text)

end Rule

def startsMethod : List Token → Bool
  | first :: opening :: _ => isName first && isMark "(" opening
  | _ => false

/-- What an element of an interface is without the comments that document it. -/
def plainElement : Nat → Parser (Option Element)
  | 0 => failure
  | depth + 1 => do
      if ← (fun tokens => some (startsMethod tokens, tokens) : Parser Bool) then
        let name ← name
        let params ← signature depth
        return some (.method ⟨name, none, params⟩)
      else constraint depth

namespace Reader

variable {α : Type}

/-- The readers of declarations are given nothing that stands before. -/
def read : Reader α → Nat → Parser α
  | typeExpr => Go.typeExpr
  | uninterpretedType => Go.uninterpretedType
  | typeName => Go.typeName
  | signature => Go.signature
  | paramList => Go.paramList
  | paramItem => Go.paramItem
  | fieldDecl => Go.fieldDecl
  | element => plainElement
  | constraint => Go.constraint
  | typeParams => Go.typeParams
  | expr literals => fun depth => Go.expr depth literals
  | unary literals => fun depth => Go.unary depth literals
  | operand => Go.operand
  | suffixes literals kind => fun depth => Go.suffixes depth literals kind
  | callArguments => Go.callArguments
  | indices => Go.indices
  | literalValue => Go.literalValue
  | simpleStmt literals ranges => fun depth => Go.simpleStmt depth literals ranges
  | block => Go.block
  | stmt => Go.stmt
  | ifStmt => Go.ifStmt
  | forStmt => Go.forStmt
  | switchStmt => Go.switchStmt
  | switchClauses => Go.switchClauses
  | selectClauses => Go.selectClauses
  | clauseStmts => Go.clauseStmts
  | valueDecl => Go.valueDecl
  | typeSpec => fun depth => Go.typeSpec depth [] 0
  | typeDecl => fun depth => Go.typeDecl depth [] 0

end Reader

/-- Items in brackets that terminators end, each with the comments that document it. The comments in
front of the opening bracket stand before the first item. -/
def bracketed {α : Type} (opening closing : String) (depth : Nat) (item : Parser α) :
    Parser (List (Option (List String) × α)) := do
  let some first ← next? | failure
  mark opening
  siblingList depth (fun before row => (docOf row before, ·) <$> item) closing
    (siblingsBefore first [])

namespace Rule

/-- What a rule does when it is carried out with a bound for the readers that it calls. -/
@[simp] def run : {α : Type} → Rule α → Nat → Parser α
  | _, done value, _ => pure value
  | _, refuse, _ => failure
  | _, head next, depth => do (next ((← next?).map Token.glance)).run depth
  | _, sees test next, depth => do (next (← Parser.sees test.accepts)).run depth
  | _, look kind next, depth => do
      (next (← (fun tokens => some (kind.sees tokens, tokens) : Parser Bool))).run depth
  | _, skip test next, depth => do (next (← Parser.skip test.accepts)).run depth
  | _, take test next, depth => do (next (← Parser.take test.accepts).text).run depth
  | _, call reader next, depth => do (next (← reader.read depth)).run depth
  | _, span inner next, depth => do
      let (value, tokens) ← withTokens (inner.run depth)
      (next value (Token.spanText tokens)).run depth
  | _, commas item close next, depth => do
      (next (← commaList depth (item.run depth) close)).run depth
  | _, commas1 item next, depth => do (next (← commaList1 depth (item.run depth))).run depth
  | _, group opening closing item next, depth => do
      (next (← bracketed opening closing depth (item.run depth))).run depth

end Rule

/-- What a reader does: it follows a rule, or the first of two rules that accepts the tokens, or one
rule for what starts with a name and an opening parenthesis and another for the rest. -/
inductive Body (α : Type) where
  | one (rule : Rule α)
  | two (first second : Rule α)
  | method (rule other : Rule α)

def Body.run : Body α → Nat → Parser α
  | one rule, depth => rule.run depth
  | two first second, depth => either (first.run depth) (second.run depth)
  | method rule other, depth => do
      if ← (fun tokens => some (startsMethod tokens, tokens) : Parser Bool) then rule.run depth
      else other.run depth

/-- A type that follows a mark. A comment between the two takes its place. -/
def Glance.orComment (next : Option Glance) (type : TypeExpr) : TypeExpr :=
  match next.bind (·.comment) with
  | some comment => .other comment
  | none => type

def documented (doc : Option (List String)) : Element → Element
  | .method method => .method { method with doc := doc }
  | .embedded type => .embedded type

namespace Test

def endsItem : Test := (mark ",").or (mark ")")

def endsField : Test := terminator.or (mark "\x7d")

def endsSpec : Test := (terminator.or (mark ")")).or (mark "\x7d")

def endsClause : Test := ((mark "\x7d").or (keyword "case")).or (keyword "default")

def endsSimple : Test := (terminator.or (mark "\x7b")).or (mark "\x7d")

def range (ranges : Bool) : Test := fun kind text => ranges && keyword "range" kind text

end Test

namespace Rule

def ended (test : Test) (value : α) : Rule α := do
  Rule.failUnless (← Rule.seen test)
  return value

def paramType (name : Option String) (single : TypeExpr → ParamItem) : Rule ParamItem := do
  if ← Rule.skipped (.mark "...") then ended .endsItem (.variadic name (← Rule.read .typeExpr))
  else ended .endsItem (single (← Rule.read .typeExpr))

def namedParam : Rule ParamItem := do
  let name ← Rule.name
  paramType (some name) (.named name)

def fieldTag : Rule (Option String) := do
  if ← Rule.seen .text then
    let text ← Rule.taken .text
    return some (String.ofList (unquoteTag text.toList))
  else return none

def namedFields : Rule (List Field) := do
  let names ← Rule.list1 Rule.name
  let type ← Rule.read .typeExpr
  let tag ← fieldTag
  ended .endsField (names.map fun name => ⟨some name, type, tag⟩)

def embeddedField : Rule (List Field) := do
  let isPointer ← Rule.skipped (.mark "*")
  let type ← Rule.read .typeName
  let tag ← fieldTag
  ended .endsField [⟨none, if isPointer then .pointer type else type, tag⟩]

def plainType : Rule TypeExpr := do
  let _ ← Rule.skipped (.mark "=")
  Rule.read .typeExpr

def spec (name : String) : Rule TypeSpec := do
  return ⟨name, none, ← ended .endsSpec (← plainType)⟩

def plainSpec : Rule TypeSpec := do
  let name ← Rule.name
  spec name

def genericSpec : Rule TypeSpec := do
  let name ← Rule.name
  Rule.mark "["
  Rule.read .typeParams
  spec name

def method : Rule (Option Element) := do
  let name ← Rule.name
  return some (.method ⟨name, none, ← Rule.read .signature⟩)

def literalPart : Rule Unit := do
  if ← Rule.seen (.mark "\x7b") then Rule.read .literalValue else Rule.read (.expr true)

def values : Rule Unit := do
  let _ ← Rule.list1 (Rule.read (.expr true))

def valueSpec (isVariable : Bool) : Rule Unit := do
  let _ ← Rule.list1 Rule.name
  let typed ← Rule.seen .startsType
  if typed then
    let _ ← Rule.read .typeExpr
  if ← Rule.skipped (.mark "=") then values
  else Rule.failUnless (if isVariable then typed else !typed)

end Rule

namespace Reader

def typeExprRule : Rule TypeExpr := do
  let some first ← Rule.next | Rule.refuse
  match first.kind, first.text with
  | .name, _ => Rule.read typeName
  | .mark, "*" => do
      Rule.mark "*"
      let next ← Rule.next
      let target ← Rule.read typeExpr
      return .pointer (Glance.orComment next target)
  | .mark, "(" => do
      Rule.mark "("
      let next ← Rule.next
      let inner ← Rule.read typeExpr
      Rule.mark ")"
      return Glance.orComment next inner
  | .mark, "[" => do
      Rule.mark "["
      if ← Rule.skipped (.mark "]") then return .slice (← Rule.read typeExpr)
      unless ← Rule.skipped (.mark "...") do Rule.read (expr true)
      Rule.mark "]"
      return .array (← Rule.read typeExpr)
  | .keyword, "struct" => do
      Rule.keyword "struct"
      let fields ← Rule.siblings "\x7b" "\x7d" (Rule.read fieldDecl)
      return .struct (fields.map (·.2)).flatten
  | .keyword, "interface" => do
      Rule.keyword "interface"
      let elements ← Rule.siblings "\x7b" "\x7d" (Rule.read element)
      return .interface (elements.filterMap fun found => found.2.map (documented found.1))
  | .keyword, "map" => do
      Rule.keyword "map"
      Rule.mark "["
      let key ← Rule.read typeExpr
      Rule.mark "]"
      return .map key (← Rule.read typeExpr)
  | _, _ => do
      let (_, text) ← Rule.text (Rule.read uninterpretedType)
      return .other text

def uninterpretedTypeRule : Rule Unit := do
  if ← Rule.skipped (.keyword "chan") then
    let _ ← Rule.skipped (.mark "<-")
    let _ ← Rule.read typeExpr
  else if ← Rule.skipped (.mark "<-") then
    Rule.keyword "chan"
    let _ ← Rule.read typeExpr
  else
    Rule.keyword "func"
    let _ ← Rule.read signature

def typeNameRule : Rule TypeExpr := do
  let ((type, isGeneric), text) ← Rule.text do
    let first ← Rule.name
    let type : TypeExpr ←
      if ← Rule.skipped (.mark ".") then pure (.qualified first (← Rule.name))
      else pure (.ident first)
    if ← Rule.skipped (.mark "[") then
      let arguments ← Rule.list (Rule.read typeExpr) "]"
      Rule.failUnless !arguments.isEmpty
      return (type, true)
    else return (type, false)
  return if isGeneric then .other text else type

def signatureRule : Rule (List Param) := do
  let params ← Rule.read paramList
  if ← Rule.seen (.mark "(") then
    let _ ← Rule.read paramList
  else if ← Rule.seen .startsType then
    let _ ← Rule.read typeExpr
  return params

def paramListRule : Rule (List Param) := do
  Rule.mark "("
  let items ← Rule.list (Rule.read paramItem) ")"
  match ParamItem.params? items with
  | some params => return params
  | none => Rule.refuse

def constraintRule : Rule (Option Element) := do
  let startsWithName ← Rule.seen .name
  let _ ← Rule.skipped (.mark "~")
  let first ← Rule.read typeExpr
  if ← Rule.skipped (.mark "|") then
    let _ ← Rule.read constraint
    return none
  match first with
  | .ident _ | .qualified _ _ => return if startsWithName then some (.embedded first) else none
  | _ => return none

def typeParamsRule : Rule Unit := do
  let groups ← Rule.list (do
    let _ ← Rule.list1 Rule.name
    let _ ← Rule.read constraint) "]"
  Rule.failUnless !groups.isEmpty

def exprRule (literals : Bool) : Rule Unit := do
  Rule.read (unary literals)
  if ← Rule.skipped (.operator binaryOperators) then Rule.read (expr literals)

def unaryRule (literals : Bool) : Rule Unit := do
  if ← Rule.skipped (.operator unaryOperators) then Rule.read (unary literals)
  else
    let kind ← Rule.read operand
    Rule.read (suffixes literals kind)

def operandRule : Rule OperandKind := do
  let some first ← Rule.next | Rule.refuse
  match first.kind, first.text with
  | .name, _ => do
      let _ ← Rule.name
      return .name
  | .number, _ | .rune, _ | .text, _ => do
      let _ ← Rule.taken .any
      return .value
  | .mark, "(" => do
      Rule.mark "("
      Rule.read (expr true)
      Rule.mark ")"
      return .value
  | .keyword, "func" => do
      Rule.keyword "func"
      let _ ← Rule.read signature
      if ← Rule.seen (.mark "\x7b") then Rule.read block
      return .value
  | .mark, "[" | .keyword, "struct" | .keyword, "map" => do
      let _ ← Rule.read typeExpr
      return .literalType
  | .keyword, "interface" | .keyword, "chan" => do
      let _ ← Rule.read typeExpr
      return .value
  | _, _ => Rule.refuse

/-- What follows an operand unless it is a type switch that ends there. -/
def suffixRule (literals : Bool) (kind : OperandKind) : Rule Unit := do
  if ← Rule.skipped (.mark ".") then
    if ← Rule.skipped (.mark "(") then
      let _ ← Rule.read typeExpr
      Rule.mark ")"
      Rule.read (suffixes literals .value)
    else
      let _ ← Rule.name
      Rule.read (suffixes literals .name)
  else if ← Rule.skipped (.mark "(") then
    Rule.read callArguments
    Rule.read (suffixes literals .value)
  else if ← Rule.skipped (.mark "[") then
    let isSlice ← Rule.read indices
    Rule.read (suffixes literals (if isSlice then .value else kind))
  else if ← Rule.seen (.mark "\x7b") then
    if kind = .literalType || (kind = .name && literals) then
      Rule.read literalValue
      Rule.read (suffixes literals .value)

def suffixesRule (literals : Bool) (kind : OperandKind) : Rule Unit := do
  if ← Rule.looked .guard then return ()
  suffixRule literals kind

def callArgumentsRule : Rule Unit := do
  if ← Rule.skipped (.mark ")") then return ()
  Rule.read (expr true)
  let _ ← Rule.skipped (.mark "...")
  if ← Rule.skipped (.mark ",") then Rule.read callArguments else Rule.mark ")"

def indicesRule : Rule Bool := do
  unless ← Rule.seen (.mark ":") do Rule.read (expr true)
  if ← Rule.skipped (.mark ":") then
    if ← Rule.skipped (.mark "]") then return true
    Rule.read (expr true)
    if ← Rule.skipped (.mark ":") then Rule.read (expr true)
    Rule.mark "]"
    return true
  else if ← Rule.skipped (.mark ",") then
    let _ ← Rule.list (Rule.read typeExpr) "]"
    return false
  else
    Rule.mark "]"
    return false

def literalValueRule : Rule Unit := do
  Rule.mark "\x7b"
  let _ ← Rule.list (do
    Rule.literalPart
    if ← Rule.skipped (.mark ":") then Rule.literalPart) "\x7d"

def simpleStmtRule (literals ranges : Bool) : Rule SimpleKind := do
  if ← Rule.seen .endsSimple then return .empty
  if ← Rule.skipped (.range ranges) then
    Rule.read (expr literals)
    return .range
  let operands ← Rule.list1 (Rule.read (expr literals))
  if ← Rule.skipped (.operator assignOperators) then
    if ← Rule.skipped (.range ranges) then
      Rule.read (expr literals)
      return .range
    let _ ← Rule.list1 (Rule.read (expr literals))
    return .other
  Rule.failUnless (operands.length == 1)
  if ← Rule.skipped (.operator ["++", "--"]) then return .other
  if ← Rule.skipped (.mark "<-") then
    Rule.read (expr literals)
    return .other
  return .expression

def blockRule : Rule Unit := do
  let _ ← Rule.siblings "\x7b" "\x7d" (Rule.read stmt)

def stmtRule : Rule Unit := do
  if ← Rule.looked .label then
    let _ ← Rule.name
    Rule.mark ":"
    Rule.read stmt
  else
    let some first ← Rule.next | Rule.refuse
    match first.kind, first.text with
    | .keyword, "const" | .keyword, "var" => Rule.read valueDecl
    | .keyword, "type" => do
        let _ ← Rule.read typeDecl
    | .mark, "\x7b" => Rule.read block
    | .keyword, "if" => Rule.read ifStmt
    | .keyword, "for" => Rule.read forStmt
    | .keyword, "switch" => Rule.read switchStmt
    | .keyword, "select" => do
        Rule.keyword "select"
        Rule.mark "\x7b"
        Rule.read selectClauses
    | .keyword, "go" | .keyword, "defer" => do
        let _ ← Rule.taken .any
        Rule.read (expr true)
    | .keyword, "return" => do
        Rule.keyword "return"
        unless ← Rule.seen .endsField do Rule.values
    | .keyword, "break" | .keyword, "continue" | .keyword, "goto" => do
        let _ ← Rule.taken .any
        let _ ← Rule.skipped .name
    | .keyword, "fallthrough" => Rule.keyword "fallthrough"
    | _, _ => do
        let _ ← Rule.read (simpleStmt true false)

def ifStmtRule : Rule Unit := do
  Rule.keyword "if"
  let first ← Rule.read (simpleStmt false false)
  let condition ←
    if ← Rule.skipped .terminator then Rule.read (simpleStmt false false) else pure first
  Rule.failUnless (condition == .expression)
  Rule.read block
  if ← Rule.skipped (.keyword "else") then
    if ← Rule.seen (.keyword "if") then Rule.read ifStmt else Rule.read block

def forStmtRule : Rule Unit := do
  Rule.keyword "for"
  let first ← Rule.read (simpleStmt false true)
  if first != .range then
    if ← Rule.skipped .terminator then
      let condition ← Rule.read (simpleStmt false false)
      Rule.failUnless (condition == .empty || condition == .expression)
      if ← Rule.skipped .terminator then
        let _ ← Rule.read (simpleStmt false false)
      else Rule.failUnless (condition == .empty)
    else Rule.failUnless (first == .empty || first == .expression)
  Rule.read block

def switchStmtRule : Rule Unit := do
  Rule.keyword "switch"
  let first ← Rule.read (simpleStmt false false)
  let value ←
    if ← Rule.skipped .terminator then Rule.read (simpleStmt false false) else pure first
  if ← Rule.looked .guard then
    Rule.mark "."
    Rule.mark "("
    Rule.keyword "type"
    Rule.mark ")"
  else Rule.failUnless (value == .empty || value == .expression)
  Rule.mark "\x7b"
  Rule.read switchClauses

def clausesRule (clause : Rule Unit) (clauses : Reader Unit) : Rule Unit := do
  if ← Rule.skipped (.mark "\x7d") then return ()
  if ← Rule.skipped (.keyword "default") then pure ()
  else
    Rule.keyword "case"
    clause
  Rule.mark ":"
  Rule.read clauseStmts
  Rule.read clauses

def clauseStmtsRule : Rule Unit := do
  if ← Rule.seen .endsClause then return ()
  Rule.read stmt
  if ← Rule.skipped .terminator then Rule.read clauseStmts
  else Rule.failUnless (← Rule.seen .endsClause)

def valueDeclRule : Rule Unit := do
  let isVariable ← Rule.seen (.keyword "var")
  let _ ← Rule.taken ((Test.keyword "var").or (.keyword "const"))
  if ← Rule.seen (.mark "(") then
    let _ ← Rule.siblings "(" ")" (Rule.valueSpec isVariable)
  else Rule.valueSpec isVariable

def typeDeclRule : Rule (List TypeSpec) := do
  Rule.keyword "type"
  let some next ← Rule.next | Rule.refuse
  if ← Rule.seen (.mark "(") then
    let specs ← Rule.siblings "(" ")" (Rule.read typeSpec)
    return specs.map fun found => { found.2 with doc := found.1 }
  else
    let spec ← Rule.read typeSpec
    return [{ spec with doc := next.doc }]

def body : Reader α → Body α
  | typeExpr => .one typeExprRule
  | uninterpretedType => .one uninterpretedTypeRule
  | typeName => .one typeNameRule
  | signature => .one signatureRule
  | paramList => .one paramListRule
  | paramItem => .two Rule.namedParam (Rule.paramType none .alone)
  | fieldDecl => .two Rule.namedFields Rule.embeddedField
  | element => .method Rule.method (Rule.read constraint)
  | constraint => .one constraintRule
  | typeParams => .one typeParamsRule
  | expr literals => .one (exprRule literals)
  | unary literals => .one (unaryRule literals)
  | operand => .one operandRule
  | suffixes literals kind => .one (suffixesRule literals kind)
  | callArguments => .one callArgumentsRule
  | indices => .one indicesRule
  | literalValue => .one literalValueRule
  | simpleStmt literals ranges => .one (simpleStmtRule literals ranges)
  | block => .one blockRule
  | stmt => .one stmtRule
  | ifStmt => .one ifStmtRule
  | forStmt => .one forStmtRule
  | switchStmt => .one switchStmtRule
  | switchClauses => .one (clausesRule Rule.values switchClauses)
  | selectClauses => .one (clausesRule (do let _ ← Rule.read (simpleStmt true false)) selectClauses)
  | clauseStmts => .one clauseStmtsRule
  | valueDecl => .one valueDeclRule
  | typeSpec => .two Rule.plainSpec Rule.genericSpec
  | typeDecl => .one typeDeclRule

end Reader

end EndpointAtlas.Go
