import EndpointAtlas.Proofs.Go.SitedTypes

/-!
What a parsed file declares stands in its tokens. The readers of declarations find functions and
types, each with the comments of its site, as they find the methods of the types.
-/

namespace EndpointAtlas.Go

open EndpointAtlas.Go.Parser

variable {all : List Token}

theorem finds_type_spec {depth : Nat} {others rest : List Token} {before : List Sibling}
    {token : Token} {spec : TypeSpec} (within : token :: others <:+ all)
    (read : typeSpec depth before token.row (token :: others) = some (spec, rest)) :
    isName token = true ∧ spec.name = token.text ∧ spec.doc = docOf token.row before ∧
      SitedType all spec.type := by
  cases depth with
  | zero =>
      rw [typeSpec] at read
      cases read
  | succ depth =>
      have ended {reader : Parser TypeExpr} (finds : Finds all reader (SitedType all)) :
          Finds all (do
            let type ← reader
            failUnless (← sees fun token =>
              isTerminator token || isMark ")" token || isMark "\x7d" token)
            return type) (SitedType all) :=
        finds.bind fun type sited => .later (.sees _) fun _ => .later (.fail_unless _) fun _ =>
          .pure sited
      have plain : Finds all (do
          let _ ← skip (isMark "=")
          typeExpr depth) (SitedType all) :=
        .later (.skip _) fun _ => (finds_types depth).typeExpr
      have generic : Finds all (do
          mark "["
          typeParams depth
          let _ ← skip (isMark "=")
          typeExpr depth) (SitedType all) :=
        .later (.mark _) fun _ => .later (.anything ((nests depth).typeParams [])) fun _ => plain
      rw [typeSpec, bind_eq_some] at read
      obtain ⟨text, middle, taken, read⟩ := read
      obtain ⟨name, same, named, rfl⟩ := name_eq_some.1 taken
      obtain ⟨rfl, rfl⟩ := List.cons.inj same
      rw [bind_eq_some] at read
      obtain ⟨type, middle, found, read⟩ := read
      obtain ⟨rfl, rfl⟩ := Prod.mk.inj (Option.some.inj read)
      refine ⟨named, rfl, rfl, ?_⟩
      have tail := (List.suffix_cons token others).trans within
      exact ((ended plain).either (ended generic) _ _ _ tail found).2

def SitedSpec (all : List Token) (spec : TypeSpec) : Prop :=
  Sited all spec.name spec.doc ∧ SitedType all spec.type

def SitedFunc (all : List Token) (func : FuncDecl) : Prop :=
  Sited all func.name func.doc ∧ (∀ type ∈ func.receiver, SitedType all type) ∧
    ∀ param ∈ func.params, SitedType all param.type

/-- A type as it is read, before the comments above its declaration count. -/
def SitedIn (all : List Token) (declaration : Site) (spec : TypeSpec) : Prop :=
  (∃ site : Site, DeclaredAt all spec.name (site.orElse declaration) ∧ site.doc = spec.doc) ∧
    SitedType all spec.type

theorem SitedIn.documented {declaration : Site} {spec : TypeSpec}
    (sited : SitedIn all declaration spec) :
    SitedSpec all { spec with doc := spec.doc <|> declaration.doc } := by
  obtain ⟨⟨site, declared, own⟩, type⟩ := sited
  exact ⟨⟨_, declared, by rw [Site.doc_or_else, own]⟩, type⟩

theorem finds_members {depth depth' : Nat} {declaration : Site} {prior tokens rest : List Token}
    {before : List Sibling} {specs : List TypeSpec}
    (reached : SiblingsAt (.types declaration) prior before) (whole : all = prior ++ tokens)
    (read : siblingList depth' (typeSpec depth) ")" before tokens = some (specs, rest)) :
    ∀ spec ∈ specs, SitedIn all declaration spec := by
  refine (Finds.sibling_list_of_reached (SiblingsAt (.types declaration)) ?_ reached whole read).2
  intro prior before token others spec rest reached whole found
  obtain ⟨named, name, doc, type⟩ := finds_type_spec ⟨prior, whole.symm⟩ found
  refine ⟨⟨⟨token.site before, ?_, doc.symm⟩, type⟩, ?_⟩
  · rw [name]
    exact .member reached named whole
  · have stands := (RefusesTerminators.type_spec depth _ _).stands found
    exact reached.advance ((nests depth).typeSpec _ _ [] _) stands _ _ found

theorem finds_type_decl {depth : Nat} {prior others : List Token} {before : List Sibling}
    {token : Token} (reached : SiblingsAt .declarations prior before)
    (whole : all = prior ++ token :: others) :
    FindsAt (token :: others) (typeDecl depth (siblingsBefore token before) token.row)
      fun specs => ∀ spec ∈ specs, SitedSpec all spec := by
  intro specs rest read
  cases depth with
  | zero =>
      rw [typeDecl] at read
      cases read
  | succ depth =>
      rw [typeDecl, bind_eq_some] at read
      obtain ⟨nothing, middle, taken, read⟩ := read
      obtain ⟨keyword, same, types⟩ := keyword_eq_some.1 taken
      obtain ⟨rfl, rfl⟩ := List.cons.inj same
      -- Types without comments of their own have those of the declaration.
      have noted {specs : List TypeSpec}
          (sited : ∀ spec ∈ specs, SitedIn all (token.site before) spec) :
          ∀ spec ∈ specs.map fun spec =>
            { spec with doc := spec.doc <|> docOf token.row (siblingsBefore token before) },
            SitedSpec all spec := by
        intro spec member
        obtain ⟨original, within, rfl⟩ := List.mem_map.1 member
        exact (sited original within).documented
      rw [next_bind] at read
      cases others with
      | nil => cases read
      | cons next tail =>
          change (skip (isMark "(") >>= _) _ = _ at read
          rw [bind_eq_some] at read
          obtain ⟨grouped, middle, skipped, read⟩ := read
          obtain ⟨rfl, opening, same, opens⟩ | ⟨rfl, rfl, -⟩ := skip_eq_some skipped
          · obtain ⟨rfl, rfl⟩ := List.cons.inj same
            rw [if_pos rfl, bind_eq_some] at read
            obtain ⟨found, left, listed, read⟩ := read
            obtain ⟨rfl, rfl⟩ := Prod.mk.inj (Option.some.inj read)
            exact noted (finds_members (.types reached types opens) (by simp [whole]) listed)
          · rw [if_neg Bool.false_ne_true, bind_eq_some] at read
            obtain ⟨spec, left, found, read⟩ := read
            obtain ⟨rfl, rfl⟩ := Prod.mk.inj (Option.some.inj read)
            have within : next :: tail <:+ all := ⟨prior ++ [token], by simp [whole]⟩
            obtain ⟨named, name, doc, type⟩ := finds_type_spec within found
            refine noted (List.forall_mem_singleton.2 ⟨⟨next.site [], ?_, doc.symm⟩, type⟩)
            rw [name]
            exact .type reached types named whole

def Signed (all : List Token) (name : String) (doc : Option (List String))
    (receiver : Option TypeExpr) (found : Option FuncDecl) : Prop :=
  ∀ func ∈ found, ∃ params, func = ⟨name, doc, receiver, params⟩ ∧
    ∀ param ∈ params, SitedType all param.type

/-- What follows the name of a function adds its parameters. -/
theorem finds_named_func (depth : Nat) (doc : Option (List String)) (receiver : Option TypeExpr)
    (name : String) :
    Finds all (namedFunc depth doc receiver name) (Signed all name doc receiver) := by
  unfold namedFunc
  refine (finds_types depth).signature.bind fun params sited => .later (.sees _) fun braced => ?_
  have signed : Signed all name doc receiver (some ⟨name, doc, receiver, params⟩) := by
    rintro func ⟨⟩
    exact ⟨params, rfl, sited⟩
  exact .ite (.later (.anything ((nests depth).block [])) fun _ => .pure signed) (.pure signed)

/-- A statement that starts with a function literal declares nothing. -/
theorem finds_literal_stmt (depth : Nat) {holds : Option FuncDecl → Prop} (nothing : holds none) :
    Finds all (literalStmt depth) holds := by
  unfold literalStmt
  refine .later (.anything ((nests depth).block [])) fun _ => ?_
  refine .later (.anything ((nests depth).suffixes true .value [])) fun _ => ?_
  refine .later (.skip _) fun more => .ite ?_ (.pure nothing)
  exact .later (.anything ((nests depth).expr true [])) fun _ => .pure nothing

theorem finds_literal_stmt_of_name (depth : Nat) {holds : Option FuncDecl → Prop}
    (nothing : holds none) : Finds all (literalStmtOfName depth) holds := by
  unfold literalStmtOfName
  have rest := @finds_literal_stmt all depth holds nothing
  have applied : Finds all (do
      if ← skip (isMark "[") then
        let arguments ← commaList depth (typeExpr depth) "]"
        failUnless !arguments.isEmpty
      literalStmt depth) holds := by
    refine .later (.skip _) fun applied => .ite ?_ rest
    refine .bind ((finds_types depth).typeExpr.comma_list depth _) fun arguments _ => ?_
    exact .later (.fail_unless _) fun _ => rest
  refine .later (.skip _) fun dotted => .ite ?_ applied
  exact .later (.anything (Keeps.name.discard [])) fun _ => applied

theorem finds_literal_stmt_of_result (depth : Nat) {holds : Option FuncDecl → Prop}
    (nothing : holds none) : Finds all (do
      if ← sees (isMark "(") then discard (paramList depth)
      else if ← sees startsType then discard (typeExpr depth)
      literalStmt depth) holds := by
  have rest := @finds_literal_stmt all depth holds nothing
  refine .later (.sees _) fun listed => .ite ?_ (.later (.sees _) fun typed => .ite ?_ rest)
  · exact .later (.anything ((nests depth).paramList.discard [])) fun _ => rest
  · exact .later (.anything ((nests depth).typeExpr.discard [])) fun _ => rest

/-- A function is declared where its keyword stands, whatever its receiver. -/
theorem finds_named {prior list tokens : List Token} {before : List Sibling} {keyword : Token}
    {receiver : Option TypeExpr} {next : String → Parser (Option FuncDecl)}
    (reached : SiblingsAt .declarations prior before) (func : isKeyword "func" keyword = true)
    (bound : list = [] ∨ Parenthesized list) (sited : ∀ type ∈ receiver, SitedType all type)
    (whole : all = prior ++ keyword :: list ++ tokens)
    (signed : ∀ name, Finds all (next name) (Signed all name (keyword.site before).doc receiver)) :
    FindsAt tokens (Parser.name >>= next) fun found => ∀ func ∈ found, SitedFunc all func := by
  intro found rest read decl member
  obtain ⟨text, middle, taken, read⟩ := bind_eq_some.1 read
  obtain ⟨name, rfl, named, rfl⟩ := name_eq_some.1 taken
  have left : middle <:+ all := ⟨prior ++ keyword :: list ++ [name], by simp [whole]⟩
  obtain ⟨params, rfl, typed⟩ := (signed name.text _ _ _ left read).2 decl member
  exact ⟨⟨keyword.site before, .function reached func bound named whole, rfl⟩, sited, typed⟩

theorem finds_func_decl {depth : Nat} {prior others : List Token} {before : List Sibling}
    {token : Token} (reached : SiblingsAt .declarations prior before)
    (whole : all = prior ++ token :: others) :
    FindsAt (token :: others) (funcDecl depth (siblingsBefore token before) token.row)
      fun found => ∀ func ∈ found, SitedFunc all func := by
  intro found rest read
  rw [funcDecl, bind_eq_some] at read
  obtain ⟨nothing, middle, taken, read⟩ := read
  obtain ⟨keyword, same, introduces⟩ := keyword_eq_some.1 taken
  obtain ⟨rfl, rfl⟩ := List.cons.inj same
  rw [bind_eq_some] at read
  obtain ⟨named, middle, seen, read⟩ := read
  obtain ⟨-, rfl⟩ := Prod.mk.inj (Option.some.inj seen)
  cases named with
  | true =>
      rw [if_pos rfl] at read
      have unbound : ∀ type ∈ (none : Option TypeExpr), SitedType all type := by simp
      refine finds_named reached introduces (.inl rfl) unbound (by simp [whole]) ?_ _ _ read
      refine fun name => .later (.skip _) fun generic => .ite ?_ (finds_named_func depth _ _ _)
      exact .later (.anything ((nests depth).typeParams [])) fun _ => finds_named_func depth _ _ _
  | false =>
      rw [if_neg Bool.false_ne_true, bind_eq_some] at read
      obtain ⟨params, middle, listed, read⟩ := read
      obtain ⟨list, rfl, parenthesized⟩ := parenthesized_param_list listed
      have within : list ++ middle <:+ all := ⟨prior ++ [token], by simp [whole]⟩
      obtain ⟨-, sited⟩ := (finds_types depth).paramList _ _ _ within listed
      rw [bind_eq_some] at read
      obtain ⟨named, left, seen, read⟩ := read
      obtain ⟨-, rfl⟩ := Prod.mk.inj (Option.some.inj seen)
      cases named with
      | true =>
          rw [if_pos rfl] at read
          have bound : ∀ type ∈ params.head?.map (·.type), SitedType all type := by
            intro type first
            obtain ⟨param, head, rfl⟩ := Option.map_eq_some_iff.1 first
            exact sited param (List.mem_of_head? head)
          refine finds_named reached introduces (.inr parenthesized) bound (by simp [whole])
            (fun name => .later (.sees _) fun called => ?_) _ _ read
          exact .ite (finds_named_func depth _ _ _) (finds_literal_stmt_of_name depth nofun)
      | false =>
          rw [if_neg Bool.false_ne_true] at read
          have left : middle <:+ all := (List.suffix_append list middle).trans within
          obtain ⟨-, nothing⟩ := @finds_literal_stmt_of_result all depth (· = none) rfl
            _ _ _ left read
          rw [nothing]
          nofun

namespace SourceFile

def IsSited (all : List Token) (file : SourceFile) : Prop :=
  (∀ spec ∈ file.types, SitedSpec all spec) ∧ ∀ func ∈ file.funcs, SitedFunc all func

theorem finds_declaration {depth : Nat} {file : SourceFile} {prior others : List Token}
    {before : List Sibling} {token : Token} (earlier : file.IsSited all)
    (reached : SiblingsAt .declarations prior before) (whole : all = prior ++ token :: others) :
    FindsAt (token :: others) (declaration depth file (siblingsBefore token before) token.row)
      (IsSited all) := by
  obtain ⟨types, funcs⟩ := earlier
  refine .bind_next ?_
  dsimp only
  split
  · exact .bind_pure (.anything _) fun _ _ => ⟨types, funcs⟩
  · exact .bind_pure (.anything _) fun _ _ => ⟨types, funcs⟩
  · refine .bind_pure (finds_type_decl reached whole) fun specs sited => ⟨?_, funcs⟩
    exact List.forall_mem_append.2 ⟨types, sited⟩
  · refine .bind_pure (finds_func_decl reached whole) fun found sited => ⟨types, ?_⟩
    exact List.forall_mem_append.2 ⟨funcs, fun func member => sited func (by simpa using member)⟩
  · exact .failure
  · exact .bind_pure (.anything _) fun _ _ => ⟨types, funcs⟩

/-- A declaration or a statement leads to what comes after it. -/
theorem advance_declaration {depth : Nat} {file : SourceFile} {prior others : List Token}
    {before : List Sibling} {token : Token} (reached : SiblingsAt .declarations prior before)
    (stands : isTerminator token = false) :
    Advances .declarations prior before token others
      (declaration depth file (siblingsBefore token before) token.row) := by
  refine .bind_next ?_
  dsimp only
  split
  · exact .bind_pure (reached.advance (keeps_package_clause [] _) stands)
  · exact .bind_pure (reached.advance (keeps_import_decl depth [] _) stands)
  · exact .bind_pure (reached.advance ((nests depth).typeDecl _ _ [] _) stands)
  · exact .bind_pure (reached.advance (keeps_func_decl depth _ _ [] _) stands)
  · exact .failure
  · exact .bind_pure (reached.advance_stmt stands)

theorem finds_declarations {depth remaining : Nat} {file result : SourceFile}
    {prior tokens : List Token} {before : List Sibling} (earlier : file.IsSited all)
    (reached : SiblingsAt .declarations prior before) (whole : all = prior ++ tokens)
    (read : declarations depth remaining file before tokens = some result) :
    result.IsSited all := by
  induction remaining generalizing file prior tokens before with
  | zero =>
      cases tokens with
      | nil =>
          obtain rfl := Option.some.inj read
          exact earlier
      | cons first rest => cases read
  | succ remaining ih =>
      cases tokens with
      | nil =>
          obtain rfl := Option.some.inj read
          exact earlier
      | cons first rest =>
          rw [declarations] at read
          obtain ⟨⟨⟨extended, taken⟩, after⟩, declared, continued⟩ :=
            Option.bind_eq_some_iff.1 read
          obtain ⟨declared, cut⟩ := with_tokens_eq_some.1 declared
          have sited := finds_declaration earlier reached whole _ _ declared
          have stands := (RefusesTerminators.declaration depth file _ _).stands declared
          obtain ⟨front, split, next⟩ := advance_declaration reached stands _ _ declared
          obtain rfl : taken = front := by simpa [split] using cut
          cases after with
          | nil =>
              obtain rfl := Option.some.inj continued
              exact sited
          | cons terminator tail =>
              simp only at continued
              split at continued
              · rename_i ends
                exact ih sited (next terminator rfl ends) (by simp [whole, split]) continued
              · cases continued

/-- All that a file declares is sited among its tokens. -/
theorem sited_of_of_tokens {tokens : List Token} {file : SourceFile}
    (read : ofTokens? tokens = some file) {name : String} {doc : Option (List String)}
    (declares : file.Declares name doc) : Sited tokens name doc := by
  have empty : IsSited tokens ⟨"", [], [], []⟩ := ⟨by simp, by simp⟩
  obtain ⟨types, funcs⟩ := finds_declarations empty .declarations rfl read
  cases declares with
  | type member => exact (types _ member).1
  | function member => exact (funcs _ member).1
  | methodOfType member declares => exact (types _ member).2 _ declares
  | methodOfReceiver member bound declares => exact (funcs _ member).2.1 _ bound _ declares
  | methodOfParam member listed declares => exact (funcs _ member).2.2 _ listed _ declares

end SourceFile

end EndpointAtlas.Go
