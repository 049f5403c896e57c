import EndpointAtlas.Proofs.Go.Brackets

/-!
The readers of the grammar and brackets. Types, expressions and declarations leave the pending
brackets as they are; statements do so inside brackets, where terminators may stand.
-/

namespace EndpointAtlas.Go

open EndpointAtlas.Go.Parser

/-- What the readers of the grammar do with brackets, at a depth. -/
structure Nests (depth : Nat) : Prop where
  typeExpr : Keeps (typeExpr depth)
  uninterpretedType : Keeps (uninterpretedType depth)
  typeName : Keeps (typeName depth)
  signature : Keeps (signature depth)
  paramList : Keeps (paramList depth)
  paramItem : Keeps (paramItem depth)
  fieldDecl : Keeps (fieldDecl depth)
  interfaceElement (before : List Sibling) (row : Nat) : Keeps (interfaceElement depth before row)
  constraint : Keeps (constraint depth)
  typeParams (pending : List Bracket) : Moves (.square :: pending) (typeParams depth) pending
  expr (literals : Bool) : Keeps (expr depth literals)
  unary (literals : Bool) : Keeps (unary depth literals)
  operand : Keeps (operand depth)
  suffixes (literals : Bool) (kind : OperandKind) : Keeps (suffixes depth literals kind)
  callArguments (pending : List Bracket) : Moves (.round :: pending) (callArguments depth) pending
  indices (pending : List Bracket) : Moves (.square :: pending) (indices depth) pending
  literalValue : Keeps (literalValue depth)
  simpleStmt (literals ranges : Bool) : Keeps (simpleStmt depth literals ranges)
  block : Keeps (block depth)
  stmt : KeepsInside (stmt depth)
  ifStmt : KeepsInside (ifStmt depth)
  forStmt : KeepsInside (forStmt depth)
  switchStmt : KeepsInside (switchStmt depth)
  switchClauses (pending : List Bracket) : Moves (.curly :: pending) (switchClauses depth) pending
  selectClauses (pending : List Bracket) : Moves (.curly :: pending) (selectClauses depth) pending
  clauseStmts : KeepsInside (clauseStmts depth)
  valueDecl : Keeps (valueDecl depth)
  typeDecl (before : List Sibling) (row : Nat) : Keeps (typeDecl depth before row)
  typeSpec (before : List Sibling) (row : Nat) : Keeps (typeSpec depth before row)

theorem nests_zero : Nests 0 := by
  constructor <;> intros <;>
    simp only [typeExpr, uninterpretedType, typeName, signature, paramList, paramItem, fieldDecl,
      interfaceElement, constraint, typeParams, expr, unary, operand, suffixes, callArguments,
      indices, literalValue, simpleStmt, block, stmt, ifStmt, forStmt, switchStmt, switchClauses,
      selectClauses, clauseStmts, valueDecl, typeDecl, typeSpec]
  all_goals first
    | exact Moves.failure
    | exact Keeps.failure
    | exact Keeps.failure.inside

theorem keeps_sees_type_switch_guard : Keeps seesTypeSwitchGuard :=
  .of_still fun _ _ _ read => (Prod.mk.inj (Option.some.inj read)).2.symm

theorem keeps_sees_label : Keeps seesLabel :=
  .of_still fun _ _ _ read => (Prod.mk.inj (Option.some.inj read)).2.symm

namespace Nests

variable {depth : Nat} (nests : Nests depth)

include nests

theorem type_name_succ : Keeps (Go.typeName (depth + 1)) := by
  rw [Go.typeName]
  refine .bind (fun pending => Moves.with_tokens ?_) fun found => .pure _
  refine .later .name fun first => .later (.skip (plain_is_mark (by decide))) fun qualified => ?_
  refine .ite (.later .name fun second => .later (.pure _) fun type => ?_)
    (.later (.pure _) fun type => ?_)
  -- Both kinds of names may have type arguments.
  all_goals
    refine .bind_skip_opening .square ?_ (.pure _)
    refine .bind (.comma_list nests.typeExpr.inside .square depth) fun arguments => ?_
    exact .later (.fail_unless _) fun _ => .pure _

theorem uninterpreted_type_succ : Keeps (Go.uninterpretedType (depth + 1)) := by
  rw [Go.uninterpretedType]
  intro pending
  refine .later (.skip (plain_is_keyword _)) fun channel => .ite ?_ ?_
  · exact .later (.skip (plain_is_mark (by decide))) fun _ => .discard (nests.typeExpr _)
  · refine .later (.skip (plain_is_mark (by decide))) fun receives => .ite ?_ ?_
    · exact .later (.keyword _) fun _ => .discard (nests.typeExpr _)
    · exact .later (.keyword _) fun _ => .discard (nests.signature _)

theorem signature_succ : Keeps (Go.signature (depth + 1)) := by
  rw [Go.signature]
  intro pending
  refine .later nests.paramList fun params => .later (.sees _) fun listed => ?_
  refine .ite (.later nests.paramList.discard fun _ => .pure _) ?_
  refine .later (.sees _) fun typed => .ite (.later nests.typeExpr.discard fun _ => .pure _) ?_
  exact .pure _

theorem param_list_succ : Keeps (Go.paramList (depth + 1)) := by
  rw [Go.paramList]
  intro pending
  refine .bind (.opening .round) fun _ => ?_
  refine .bind (.comma_list nests.paramItem.inside .round depth) fun items => ?_
  cases ParamItem.params? items with
  | none => exact .failure
  | some params => exact .pure _

theorem param_item_succ : Keeps (Go.paramItem (depth + 1)) := by
  rw [Go.paramItem]
  intro pending
  have ended (item : ParamItem) : Keeps (do
      failUnless (← sees fun token => isMark "," token || isMark ")" token)
      return item) :=
    .bind (.sees _) fun _ => .bind (.fail_unless _) fun _ => .pure _
  refine .either ?_ ?_
  · refine .later .name fun first => .later (.skip (plain_is_mark (by decide))) fun several => ?_
    exact .ite (.later nests.typeExpr fun type => ended _ pending)
      (.later nests.typeExpr fun type => ended _ pending)
  · refine .later (.skip (plain_is_mark (by decide))) fun several => ?_
    exact .ite (.later nests.typeExpr fun type => ended _ pending)
      (.later nests.typeExpr fun type => ended _ pending)

theorem type_expr_succ : Keeps (Go.typeExpr (depth + 1)) := by
  rw [Go.typeExpr]
  intro pending
  refine .later .next fun next => ?_
  split
  · split
    · exact nests.typeName pending
    · refine .later (.mark (by decide)) fun _ => .later .next fun next => ?_
      exact .later nests.typeExpr fun target => .pure _
    · refine .bind (.opening .round) fun _ => .later .next fun next => ?_
      refine .later nests.typeExpr fun inner => ?_
      exact .bind (.closing .round) fun _ => .pure _
    · refine .bind (.opening .square) fun _ => .bind_skip_closing .square ?_ ?_
      · exact .later nests.typeExpr fun element => .pure _
      · refine .later (.skip (plain_is_mark (by decide))) fun anyLength => ?_
        have sized : Moves (.square :: pending) (do
            mark "]"
            return TypeExpr.array (← Go.typeExpr depth)) pending :=
          .bind (.closing .square) fun _ => .later nests.typeExpr fun element => .pure _
        exact .ite sized (.later (nests.expr true) fun _ => sized)
    · refine .later (.keyword _) fun _ => .bind (.opening .curly) fun _ => ?_
      refine .bind (.sibling_list (fun _ _ => nests.fieldDecl.inside) .curly depth []) ?_
      exact fun lists => .pure _
    · refine .later (.keyword _) fun _ => .later .next fun next => ?_
      split
      · refine .bind (.opening .curly) fun _ => ?_
        refine .bind (.sibling_list (fun before row => (nests.interfaceElement before row).inside)
          .curly depth _) fun elements => ?_
        exact .pure _
      · exact .failure
    · refine .later (.keyword _) fun _ => .bind (.opening .square) fun _ => ?_
      refine .later nests.typeExpr fun key => .bind (.closing .square) fun _ => ?_
      exact .later nests.typeExpr fun value => .pure _
    · exact .bind (.with_tokens (nests.uninterpretedType pending)) fun pair => .pure _
  · exact .failure

theorem field_decl_succ : Keeps (Go.fieldDecl (depth + 1)) := by
  rw [Go.fieldDecl]
  intro pending
  have tagged : Keeps (do
      if ← sees (·.kind == .text) then
        let token ← take (·.kind == .text)
        return some (String.ofList (unquoteTag token.text.toList))
      else return none) := fun pending =>
    .later (.sees _) fun _ => .ite (.later (.take plain_is_text) fun _ => .pure _) (.pure _)
  have ended (fields : List Field) : Keeps (do
      failUnless (← sees fun token => isTerminator token || isMark "\x7d" token)
      return fields) :=
    .bind (.sees _) fun _ => .bind (.fail_unless _) fun _ => .pure _
  refine .either ?_ ?_
  · refine .later (.comma_list1 .name depth) fun names => .later nests.typeExpr fun type => ?_
    exact .later tagged fun tag => ended _ pending
  · refine .later (.skip (plain_is_mark (by decide))) fun isPointer => ?_
    exact .later nests.typeName fun type => .later tagged fun tag => ended _ pending

theorem interface_element_succ (before : List Sibling) (row : Nat) :
    Keeps (Go.interfaceElement (depth + 1) before row) := by
  rw [Go.interfaceElement]
  intro pending
  refine .either ?_ (nests.constraint pending)
  refine .later .name fun name => .later (.sees _) fun _ => .later (.fail_unless _) fun _ => ?_
  exact .later nests.signature fun params => .pure _

theorem constraint_succ : Keeps (Go.constraint (depth + 1)) := by
  rw [Go.constraint]
  intro pending
  refine .later (.sees _) fun named => .later (.skip (plain_is_mark (by decide))) fun _ => ?_
  refine .later nests.typeExpr fun first =>
    .later (.skip (plain_is_mark (by decide))) fun more => ?_
  refine .ite (.later nests.constraint fun _ => .pure _) ?_
  split
  all_goals exact .pure _

theorem type_params_succ (pending : List Bracket) :
    Moves (.square :: pending) (Go.typeParams (depth + 1)) pending := by
  rw [Go.typeParams]
  have group : Keeps (do
      let _ ← commaList1 depth name
      discard (Go.constraint depth)) :=
    .bind (.comma_list1 .name depth) fun _ => nests.constraint.discard
  refine .bind (.comma_list group.inside .square depth) fun groups => ?_
  exact Keeps.fail_unless _ pending

theorem expr_succ (literals : Bool) : Keeps (Go.expr (depth + 1) literals) := by
  rw [Go.expr]
  intro pending
  refine .later (nests.unary literals) fun _ => ?_
  refine .later (.skip (plain_is_operator (by decide))) fun more => ?_
  exact .ite (nests.expr literals pending) (.pure _)

theorem unary_succ (literals : Bool) : Keeps (Go.unary (depth + 1) literals) := by
  rw [Go.unary]
  intro pending
  refine .later (.skip (plain_is_operator (by decide))) fun operator => ?_
  refine .ite (nests.unary literals pending) ?_
  exact .later nests.operand fun kind => nests.suffixes literals kind pending

theorem operand_succ : Keeps (Go.operand (depth + 1)) := by
  rw [Go.operand]
  intro pending
  refine .bind_next (fun first rest => ?_) .failure
  have typed (kind : OperandKind) : Moves pending (do
      let _ ← Go.typeExpr depth
      return kind) pending :=
    .later nests.typeExpr fun _ => .pure _
  -- A literal is taken whatever it is; it is no bracket and no terminator.
  have literal (noMark : first.kind ≠ .mark) (noTerminator : first.kind ≠ .terminator) :
      MovesOn (first :: rest) pending (do
        let _ ← take fun _ => true
        return OperandKind.value) pending :=
    (MovesOn.take (pending_step_of_kind noMark noTerminator pending) _).bind fun _ => .pure _
  dsimp only
  split
  · exact Moves.later .name (fun _ => .pure _) _
  · rename_i kind
    exact literal (by simp [kind]) (by simp [kind])
  · rename_i kind
    exact literal (by simp [kind]) (by simp [kind])
  · rename_i kind
    exact literal (by simp [kind]) (by simp [kind])
  · refine Moves.bind (.opening .round) (fun _ => .later (nests.expr true) fun _ => ?_) _
    exact .bind (.closing .round) fun _ => .pure _
  · refine Moves.later (.keyword _) (fun _ => .later nests.signature fun _ => ?_) _
    refine .later (.sees _) fun _ => ?_
    exact .ite (.later nests.block fun _ => .pure _) (.pure _)
  · exact typed _ _
  · exact typed _ _
  · exact typed _ _
  · exact typed _ _
  · exact typed _ _
  · exact Moves.failure _

theorem suffixes_succ (literals : Bool) (kind : OperandKind) :
    Keeps (Go.suffixes (depth + 1) literals kind) := by
  rw [Go.suffixes]
  intro pending
  have further (kind : OperandKind) := nests.suffixes literals kind pending
  refine .later keeps_sees_type_switch_guard fun guarded => .ite (.pure _) ?_
  refine .later (.skip (plain_is_mark (by decide))) fun selects => .ite ?_ ?_
  · refine .bind_skip_opening .round ?_ (.later .name fun _ => further _)
    exact .later nests.typeExpr fun _ => .bind (.closing .round) fun _ => further _
  · refine .bind_skip_opening .round (.bind (nests.callArguments _) fun _ => further _) ?_
    refine .bind_skip_opening .square (.bind (nests.indices _) fun isSlice => further _) ?_
    refine .later (.sees _) fun braced => .ite (.ite ?_ (.pure _)) (.pure _)
    exact .later nests.literalValue fun _ => further _

theorem call_arguments_succ (pending : List Bracket) :
    Moves (.round :: pending) (Go.callArguments (depth + 1)) pending := by
  rw [Go.callArguments]
  refine .bind_skip_closing .round (.pure _) ?_
  refine .later (nests.expr true) fun _ => ?_
  refine .later (.skip (plain_is_mark (by decide))) fun spread => ?_
  refine .later (.skip (plain_is_mark (by decide))) fun more => ?_
  exact .ite (nests.callArguments _) (.closing .round)

theorem indices_succ (pending : List Bracket) :
    Moves (.square :: pending) (Go.indices (depth + 1)) pending := by
  rw [Go.indices]
  have closed (isSlice : Bool) : Moves (.square :: pending) (do
      mark "]"
      return isSlice) pending :=
    .bind (.closing .square) fun _ => .pure _
  have bounds : Moves (.square :: pending) (do
      if ← skip (isMark ":") then
        if ← skip (isMark "]") then return true
        Go.expr depth true
        if ← skip (isMark ":") then Go.expr depth true
        mark "]"
        return true
      else if ← skip (isMark ",") then
        let _ ← commaList depth (Go.typeExpr depth) "]"
        return false
      else
        mark "]"
        return false) pending := by
    refine .later (.skip (plain_is_mark (by decide))) fun bounded => .ite ?_ ?_
    · refine .bind_skip_closing .square (.pure _) (.later (nests.expr true) fun _ => ?_)
      refine .later (.skip (plain_is_mark (by decide))) fun third => ?_
      exact .ite (.later (nests.expr true) fun _ => closed _) (closed _)
    · refine .later (.skip (plain_is_mark (by decide))) fun more => .ite ?_ (closed _)
      exact .bind (.comma_list nests.typeExpr.inside .square depth) fun _ => .pure _
  exact .later (.sees _) fun open' => .ite bounds (.later (nests.expr true) fun _ => bounds)

theorem literal_value_succ : Keeps (Go.literalValue (depth + 1)) := by
  rw [Go.literalValue]
  intro pending
  have value : Keeps (do
      if ← sees (isMark "\x7b") then Go.literalValue depth else Go.expr depth true) :=
    fun pending => .later (.sees _) fun _ => .ite (nests.literalValue _) (nests.expr true _)
  refine .bind (.opening .curly) fun _ => .discard (.comma_list (Keeps.inside ?_) .curly depth)
  refine fun pending => .later value fun _ => ?_
  exact .later (.skip (plain_is_mark (by decide))) fun more => .ite (value _) (.pure _)

theorem simple_stmt_succ (literals ranges : Bool) :
    Keeps (Go.simpleStmt (depth + 1) literals ranges) := by
  rw [Go.simpleStmt]
  intro pending
  have startsRange : Plain fun token => ranges && isKeyword "range" token :=
    fun token accepted => plain_is_keyword "range" token (Bool.and_eq_true_iff.1 accepted).2
  have operand (kind : SimpleKind) : Moves pending (do
      Go.expr depth literals
      return kind) pending :=
    .later (nests.expr literals) fun _ => .pure _
  have operands := Keeps.comma_list1 (nests.expr literals) depth
  refine .later (.sees _) fun ends => .ite (.pure _) ?_
  refine .later (.skip startsRange) fun ranges => .ite (operand _) ?_
  refine .later operands fun _ => .later (.skip (plain_is_operator (by decide))) fun assigns => ?_
  refine .ite ?_ (.later (.fail_unless _) fun _ => ?_)
  · refine .later (.skip startsRange) fun ranges => .ite (operand _) ?_
    exact .later operands fun _ => .pure _
  · refine .later (.skip (plain_is_operator (by decide))) fun counts => .ite (.pure _) ?_
    exact .later (.skip (plain_is_mark (by decide))) fun sends => .ite (operand _) (.pure _)

theorem block_succ : Keeps (Go.block (depth + 1)) := by
  rw [Go.block]
  intro pending
  refine .bind (.opening .curly) fun _ => ?_
  exact .discard (.sibling_list (fun _ _ => nests.stmt) .curly depth [])

theorem stmt_succ : KeepsInside (Go.stmt (depth + 1)) := by
  rw [Go.stmt]
  intro inner outer
  refine .later keeps_sees_label fun labelled =>
    .ite ?_ (.bind_next (fun first rest => ?_) .failure)
  · exact .later .name fun _ => .later (.mark (by decide)) fun _ => nests.stmt inner outer
  -- A keyword that is taken whatever it is.
  have keyword (kind : first.kind = .keyword) {next : Parser Unit} (keeps : Keeps next) :
      MovesOn (first :: rest) (inner :: outer) (do
        let _ ← take fun _ => true
        next) (inner :: outer) :=
    (MovesOn.take (pending_step_of_kind (by simp [kind]) (by simp [kind]) _) _).bind
      fun _ => keeps _
  have jumps : Keeps (do
      let _ ← skip isName
      return ()) := .bind (.skip plain_is_name) fun _ => .pure _
  dsimp only
  split
  · exact nests.valueDecl _ _
  · exact nests.valueDecl _ _
  · exact (nests.typeDecl [] 0).discard _ _
  · exact nests.block _ _
  · exact nests.ifStmt _ _ _
  · exact nests.forStmt _ _ _
  · exact nests.switchStmt _ _ _
  · refine Moves.later (.keyword _) (fun _ => .bind (.opening .curly) fun _ => ?_) _
    exact nests.selectClauses _
  · exact keyword ‹_› (nests.expr true)
  · exact keyword ‹_› (nests.expr true)
  · refine Moves.later (.keyword _) (fun _ => .later (.sees _) fun ends => .ite (.pure _) ?_) _
    exact (Keeps.comma_list1 (nests.expr true) depth).discard _
  · exact keyword ‹_› jumps
  · exact keyword ‹_› jumps
  · exact keyword ‹_› jumps
  · exact Keeps.keyword _ _ _
  · exact (nests.simpleStmt true false).discard _ _

theorem if_stmt_succ : KeepsInside (Go.ifStmt (depth + 1)) := by
  rw [Go.ifStmt]
  intro inner outer
  have body (condition : SimpleKind) : Moves (inner :: outer) (do
      failUnless (condition == .expression)
      Go.block depth
      if ← skip (isKeyword "else") then
        if ← sees (isKeyword "if") then Go.ifStmt depth else Go.block depth) (inner :: outer) := by
    refine .later (.fail_unless _) fun _ => .later nests.block fun _ => ?_
    refine .later (.skip (plain_is_keyword _)) fun other => ?_
    refine .ite (.later (.sees _) fun again => ?_) (.pure _)
    exact .ite (nests.ifStmt _ _) (nests.block _)
  refine .later (.keyword _) fun _ => .later (nests.simpleStmt false false) fun first => ?_
  refine .bind_skip_terminator fun ended => .ite ?_ (.later (.pure _) body)
  exact .later (nests.simpleStmt false false) body

theorem for_stmt_succ : KeepsInside (Go.forStmt (depth + 1)) := by
  rw [Go.forStmt]
  intro inner outer
  have body := nests.block (inner :: outer)
  refine .later (.keyword _) fun _ => .later (nests.simpleStmt false true) fun first => ?_
  refine .ite (.bind_skip_terminator fun ended => ?_) body
  refine .ite ?_ (.later (.fail_unless _) fun _ => body)
  refine .later (nests.simpleStmt false false) fun condition => .later (.fail_unless _) fun _ => ?_
  refine .bind_skip_terminator fun third => .ite ?_ (.later (.fail_unless _) fun _ => body)
  exact .later (nests.simpleStmt false false).discard fun _ => body

theorem switch_stmt_succ : KeepsInside (Go.switchStmt (depth + 1)) := by
  rw [Go.switchStmt]
  intro inner outer
  have clauses : Moves (inner :: outer) (do
      mark "\x7b"
      Go.switchClauses depth) (inner :: outer) :=
    .bind (.opening .curly) fun _ => nests.switchClauses _
  have guarded (value : SimpleKind) : Moves (inner :: outer) (do
      if ← seesTypeSwitchGuard then
        mark "."
        mark "("
        keyword "type"
        mark ")"
      else failUnless (value == .empty || value == .expression)
      mark "\x7b"
      Go.switchClauses depth) (inner :: outer) := by
    refine .later keeps_sees_type_switch_guard fun ofType => .ite ?_ ?_
    · refine .later (.mark (by decide)) fun _ => .bind (.opening .round) fun _ => ?_
      refine .later (.keyword _) fun _ => .bind (.closing .round) fun _ => clauses
    · exact .later (.fail_unless _) fun _ => clauses
  refine .later (.keyword _) fun _ => .later (nests.simpleStmt false false) fun first => ?_
  refine .bind_skip_terminator fun ended => .ite ?_ (guarded _)
  exact .later (nests.simpleStmt false false) fun value => guarded value

theorem switch_clauses_succ (pending : List Bracket) :
    Moves (.curly :: pending) (Go.switchClauses (depth + 1)) pending := by
  rw [Go.switchClauses]
  refine .bind_skip_closing .curly (.pure _) ?_
  have clause : Moves (.curly :: pending) (do
      mark ":"
      Go.clauseStmts depth
      Go.switchClauses depth) pending :=
    .later (.mark (by decide)) fun _ => .bind (nests.clauseStmts _ _) fun _ => nests.switchClauses _
  refine .later (.skip (plain_is_keyword _)) fun isDefault => .ite clause ?_
  refine .later (.keyword _) fun _ => ?_
  exact .later (Keeps.comma_list1 (nests.expr true) depth).discard fun _ => clause

theorem select_clauses_succ (pending : List Bracket) :
    Moves (.curly :: pending) (Go.selectClauses (depth + 1)) pending := by
  rw [Go.selectClauses]
  refine .bind_skip_closing .curly (.pure _) ?_
  have clause : Moves (.curly :: pending) (do
      mark ":"
      Go.clauseStmts depth
      Go.selectClauses depth) pending :=
    .later (.mark (by decide)) fun _ => .bind (nests.clauseStmts _ _) fun _ => nests.selectClauses _
  refine .later (.skip (plain_is_keyword _)) fun isDefault => .ite clause ?_
  refine .later (.keyword _) fun _ => ?_
  exact .later (nests.simpleStmt true false).discard fun _ => clause

theorem clause_stmts_succ : KeepsInside (Go.clauseStmts (depth + 1)) := by
  rw [Go.clauseStmts]
  intro inner outer
  refine .later (.sees _) fun ends => .ite (.pure _) ?_
  refine .bind (nests.stmt _ _) fun _ => .bind_skip_terminator fun ended => ?_
  exact .ite (nests.clauseStmts _ _) (.later (.sees _) fun ends => Keeps.fail_unless _ _)

theorem value_decl_succ : Keeps (Go.valueDecl (depth + 1)) := by
  rw [Go.valueDecl]
  intro pending
  have introduces : Plain fun token => isKeyword "var" token || isKeyword "const" token :=
    fun token accepted => (Bool.or_eq_true_iff.1 accepted).elim (plain_is_keyword _ token)
      (plain_is_keyword _ token)
  refine .later (.sees _) fun isVariable => .later (.take introduces) fun _ => ?_
  have assigned (typed : Bool) : Keeps (do
      if ← skip (isMark "=") then discard (commaList1 depth (Go.expr depth true))
      else failUnless (if isVariable then typed else !typed)) := by
    refine .bind (.skip (plain_is_mark (by decide))) fun assigns pending => .ite ?_ ?_
    · exact (Keeps.comma_list1 (nests.expr true) depth).discard _
    · exact Keeps.fail_unless _ _
  have spec : Keeps (do
      let _ ← commaList1 depth name
      let typed ← sees startsType
      if typed then discard (Go.typeExpr depth)
      if ← skip (isMark "=") then discard (commaList1 depth (Go.expr depth true))
      else failUnless (if isVariable then typed else !typed)) := by
    refine .bind (.comma_list1 .name depth) fun _ => .bind (.sees _) fun typed pending => ?_
    refine .ite (.later nests.typeExpr.discard fun _ => ?_) (assigned typed pending)
    exact assigned typed pending
  refine .bind_skip_opening .round ?_ (spec pending)
  exact .discard (.sibling_list (fun _ _ => spec.inside) .round depth [])

theorem type_decl_succ (before : List Sibling) (row : Nat) :
    Keeps (Go.typeDecl (depth + 1) before row) := by
  rw [Go.typeDecl]
  intro pending
  refine .later (.keyword _) fun _ => .later .next fun next => ?_
  split
  · refine .bind_skip_opening .round ?_ ?_
    · have spec (before : List Sibling) (row : Nat) := (nests.typeSpec before row).inside
      exact .bind (.sibling_list spec .round depth _) fun specs => .pure _
    · exact .later (nests.typeSpec _ _) fun spec => .pure _
  · exact .failure

theorem type_spec_succ (before : List Sibling) (row : Nat) :
    Keeps (Go.typeSpec (depth + 1) before row) := by
  rw [Go.typeSpec]
  intro pending
  have ended {reader : Parser TypeExpr} (keeps : Keeps reader) : Keeps (do
      let type ← reader
      failUnless (← sees fun token => isTerminator token || isMark ")" token || isMark "\x7d" token)
      return type) :=
    .bind keeps fun _ => .bind (.sees _) fun _ => .bind (.fail_unless _) fun _ => .pure _
  have plain : Keeps (do
      let _ ← skip (isMark "=")
      Go.typeExpr depth) :=
    .bind (.skip (plain_is_mark (by decide))) fun _ => nests.typeExpr
  have generic : Keeps (do
      mark "["
      Go.typeParams depth
      let _ ← skip (isMark "=")
      Go.typeExpr depth) :=
    fun pending => .bind (.opening .square) fun _ => .bind (nests.typeParams _) fun _ => plain _
  refine .later .name fun name => .bind (.either (ended plain _) (ended generic _)) fun type => ?_
  exact .pure _

end Nests

theorem nests (depth : Nat) : Nests depth := by
  induction depth with
  | zero => exact nests_zero
  | succ depth ih =>
      exact {
        typeExpr := ih.type_expr_succ
        uninterpretedType := ih.uninterpreted_type_succ
        typeName := ih.type_name_succ
        signature := ih.signature_succ
        paramList := ih.param_list_succ
        paramItem := ih.param_item_succ
        fieldDecl := ih.field_decl_succ
        interfaceElement := ih.interface_element_succ
        constraint := ih.constraint_succ
        typeParams := ih.type_params_succ
        expr := ih.expr_succ
        unary := ih.unary_succ
        operand := ih.operand_succ
        suffixes := ih.suffixes_succ
        callArguments := ih.call_arguments_succ
        indices := ih.indices_succ
        literalValue := ih.literal_value_succ
        simpleStmt := ih.simple_stmt_succ
        block := ih.block_succ
        stmt := ih.stmt_succ
        ifStmt := ih.if_stmt_succ
        forStmt := ih.for_stmt_succ
        switchStmt := ih.switch_stmt_succ
        switchClauses := ih.switch_clauses_succ
        selectClauses := ih.select_clauses_succ
        clauseStmts := ih.clause_stmts_succ
        valueDecl := ih.value_decl_succ
        typeDecl := ih.type_decl_succ
        typeSpec := ih.type_spec_succ }

theorem keeps_named_func (depth : Nat) (doc : Option (List String)) (receiver : Option TypeExpr)
    (name : String) : Keeps (namedFunc depth doc receiver name) := by
  unfold namedFunc
  refine .bind (nests depth).signature fun params => .bind (.sees _) fun braced pending => ?_
  exact .ite (.later (nests depth).block fun _ => .pure _) (.pure _)

theorem keeps_literal_stmt (depth : Nat) : Keeps (literalStmt depth) := by
  unfold literalStmt
  refine .bind (nests depth).block fun _ => .bind ((nests depth).suffixes true .value) fun _ => ?_
  refine .bind (.skip (plain_is_operator (by decide))) fun more pending => ?_
  exact .ite (.later ((nests depth).expr true) fun _ => .pure _) (.pure _)

theorem keeps_literal_stmt_of_name (depth : Nat) : Keeps (literalStmtOfName depth) := by
  unfold literalStmtOfName
  intro pending
  have rest := keeps_literal_stmt depth pending
  have applied : Moves pending (do
      if ← skip (isMark "[") then
        let arguments ← commaList depth (typeExpr depth) "]"
        failUnless !arguments.isEmpty
      literalStmt depth) pending := by
    refine .bind_skip_opening .square ?_ rest
    refine .bind (.comma_list (nests depth).typeExpr.inside .square depth) fun arguments => ?_
    exact .later (.fail_unless _) fun _ => rest
  refine .later (.skip (plain_is_mark (by decide))) fun dotted => ?_
  exact .ite (.later Keeps.name.discard fun _ => applied) applied

theorem keeps_func_decl (depth : Nat) (before : List Sibling) (row : Nat) :
    Keeps (funcDecl depth before row) := by
  unfold funcDecl
  intro pending
  have rest := keeps_literal_stmt depth pending
  refine .later (.keyword _) fun _ => .later (.sees _) fun named => .ite ?_ ?_
  · refine .later .name fun name => ?_
    refine .bind_skip_opening .square ?_ (keeps_named_func depth _ _ _ pending)
    exact .bind ((nests depth).typeParams pending) fun _ => keeps_named_func depth _ _ _ pending
  · refine .later (nests depth).paramList fun params => .later (.sees _) fun named => .ite ?_ ?_
    · refine .later .name fun first => .later (.sees _) fun bound => ?_
      exact .ite (keeps_named_func depth _ _ _ pending) (keeps_literal_stmt_of_name depth pending)
    · refine .later (.sees _) fun listed => .ite ?_ (.later (.sees _) fun typed => .ite ?_ rest)
      · exact .later (nests depth).paramList.discard fun _ => rest
      · exact .later (nests depth).typeExpr.discard fun _ => rest

namespace SourceFile

theorem keeps_package_clause : Keeps packageClause := by
  unfold packageClause
  exact .bind (.keyword _) fun _ => .bind (.take plain_is_name) fun token => .pure _

theorem keeps_import_spec : Keeps importSpec := by
  unfold importSpec
  have located (aliasName : Option String) : Keeps (do
      let literal ← take (·.kind == .text)
      let path := unquotePath literal.text
      return if path.isEmpty then none else some (⟨aliasName, path⟩ : ImportSpec)) :=
    .bind (.take plain_is_text) fun literal => .pure _
  refine .bind (.sees _) fun named pending => ?_
  refine .later (.skip (plain_is_mark (by decide))) fun dotted => .ite ?_ (.ite ?_ ?_)
  · exact .later (.map .name _) fun aliasName => located _ _
  · exact .later (.pure _) fun aliasName => located _ _
  · exact .later (.pure _) fun aliasName => located _ _

theorem keeps_import_decl (depth : Nat) : Keeps (importDecl depth) := by
  unfold importDecl
  refine fun pending => .later (.keyword _) fun _ => .bind_skip_opening .round ?_ ?_
  · refine .bind (.sibling_list (fun _ _ => keeps_import_spec.inside) .round depth []) fun _ => ?_
    exact .pure _
  · exact .later keeps_import_spec fun _ => .pure _

end SourceFile

end EndpointAtlas.Go
