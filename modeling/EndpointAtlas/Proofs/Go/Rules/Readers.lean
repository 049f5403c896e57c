import EndpointAtlas.Proofs.Go.Rules.Basic

/-!
The rules of the grammar are those of its readers: a reader does what its rules do, with a bound
that is one less. What stands before a declaration only adds its documentation.
-/

namespace EndpointAtlas.Go

open EndpointAtlas.Go.Parser

variable {α β : Type} {depth : Nat} {tokens : List Token}

namespace Parser

@[simp] theorem discard_eq_map (reader : Parser α) :
    discard reader = (fun _ => ()) <$> reader := rfl

theorem discard_eq_bind (reader : Parser α) :
    discard reader = reader >>= fun _ => pure () := (bind_pure_comp (fun _ => ()) reader).symm

section steps

variable {accept : Token → Bool} {token : Token} {rest : List Token}

theorem is_mark_iff {text : String} :
    isMark text token = true ↔ token.kind = .mark ∧ token.text = text := by
  rw [isMark, Bool.and_eq_true, beq_iff_eq, beq_iff_eq]

theorem is_keyword_iff {text : String} :
    isKeyword text token = true ↔ token.kind = .keyword ∧ token.text = text := by
  rw [isKeyword, Bool.and_eq_true, beq_iff_eq, beq_iff_eq]

theorem bind_apply (first : Parser α) (next : α → Parser β) (tokens : List Token) :
    (first >>= next) tokens = (first tokens).bind fun pair => next pair.1 pair.2 := rfl

theorem map_apply (change : α → β) (reader : Parser α) (tokens : List Token) :
    (change <$> reader) tokens = (reader tokens).map fun pair => (change pair.1, pair.2) := by
  cases found : reader tokens <;> simp [Functor.map, StateT.map, found]

theorem skip_bind_of_accepts (accepted : accept token = true) (next : Bool → Parser α) :
    (Parser.skip accept >>= next) (token :: rest) = next true rest := by
  change (Parser.skip accept (token :: rest)).bind (fun pair => next pair.1 pair.2) = _
  rw [Parser.skip, if_pos accepted]
  rfl

theorem skip_bind_of_refuses (refused : ∀ token ∈ tokens.head?, accept token = false)
    (next : Bool → Parser α) : (Parser.skip accept >>= next) tokens = next false tokens := by
  change (Parser.skip accept tokens).bind (fun pair => next pair.1 pair.2) = _
  cases tokens with
  | nil => rfl
  | cons token rest =>
      rw [Parser.skip, if_neg (by simp [refused token rfl])]
      rfl

theorem skip_bind_eq_some {next : Bool → Parser α} {pair : α × List Token} :
    (Parser.skip accept >>= next) tokens = some pair ↔
      (∃ token rest, tokens = token :: rest ∧ accept token = true ∧ next true rest = some pair) ∨
        (∀ token ∈ tokens.head?, accept token = false) ∧ next false tokens = some pair := by
  cases tokens with
  | nil =>
      rw [skip_bind_of_refuses (by simp)]
      simp
  | cons token rest =>
      cases accepted : accept token with
      | true =>
          rw [skip_bind_of_accepts accepted]
          constructor
          · exact fun read => .inl ⟨token, rest, rfl, accepted, read⟩
          · rintro (⟨_, _, ⟨⟩, -, read⟩ | ⟨refused, -⟩)
            · exact read
            · simp [accepted] at refused
      | false =>
          rw [skip_bind_of_refuses (by simpa using accepted)]
          constructor
          · exact fun read => .inr ⟨by simpa using accepted, read⟩
          · rintro (⟨_, _, ⟨⟩, accepts, -⟩ | ⟨-, read⟩)
            · simp [accepted] at accepts
            · exact read

theorem sees_bind (next : Bool → Parser α) : (Parser.sees accept >>= next) tokens =
    next ((tokens.head?.map accept).getD false) tokens := rfl

theorem sees_cons_bind (next : Bool → Parser α) : (Parser.sees accept >>= next) (token :: rest) =
    next (accept token) (token :: rest) := rfl

theorem take_bind_of_accepts (accepted : accept token = true) (next : Token → Parser α) :
    (Parser.take accept >>= next) (token :: rest) = next token rest := by
  change (Parser.take accept (token :: rest)).bind (fun pair => next pair.1 pair.2) = _
  rw [Parser.take, if_pos accepted]
  rfl

theorem take_bind_of_refuses (refused : accept token = false) (next : Token → Parser α) :
    (Parser.take accept >>= next) (token :: rest) = none := by
  change (Parser.take accept (token :: rest)).bind (fun pair => next pair.1 pair.2) = _
  rw [Parser.take, if_neg (by simp [refused])]
  rfl

theorem name_bind (next : String → Parser α) :
    Parser.name >>= next = Parser.take isName >>= fun token => next token.text := by
  rw [Parser.name, bind_map_left]

theorem mark_bind_of_is_mark {text : String} (accepted : isMark text token = true)
    (next : Unit → Parser α) : (Parser.mark text >>= next) (token :: rest) = next () rest := by
  rw [Parser.mark, discard_eq_map, bind_map_left]
  exact take_bind_of_accepts accepted _

end steps

theorem either_bind (first : Parser α) (next other : α → Parser β) :
    either (first >>= next) (first >>= other) =
      first >>= fun value => either (next value) (other value) := by
  funext tokens
  simp only [either, bind_apply]
  cases first tokens <;> rfl

theorem map_either (change : α → β) (first second : Parser α) :
    either (change <$> first) (change <$> second) = change <$> either first second := by
  funext tokens
  simp only [either, map_apply]
  cases first tokens <;> rfl

theorem skip_mark (text : String) (next other : Parser α) :
    (do
      if ← Parser.skip (isMark text) then next else other) = (do
      if ← Parser.sees (isMark text) then
        mark text
        next
      else other) := by
  funext tokens
  cases tokens with
  | nil => rfl
  | cons token rest =>
      cases accepted : isMark text token with
      | true =>
          rw [skip_bind_of_accepts accepted]
          change next rest = (if isMark text token = true then _ else _ : Parser α) (token :: rest)
          rw [if_pos accepted, mark_bind_of_is_mark accepted]
      | false =>
          rw [skip_bind_of_refuses (by simpa using accepted)]
          change other (token :: rest) =
            (if isMark text token = true then _ else _ : Parser α) (token :: rest)
          rw [if_neg (by simp [accepted])]

end Parser

namespace Rule

@[simp] theorem run_pure (value : α) : (pure value : Rule α).run depth = pure value := rfl

@[simp] theorem run_refuse : (refuse : Rule α).run depth = failure := rfl

@[simp] theorem run_bind (rule : Rule α) (next : α → Rule β) :
    (rule >>= next).run depth = rule.run depth >>= fun value => (next value).run depth := by
  change (rule.bind next).run depth = _
  induction rule with
  | done => rfl
  | refuse => rfl
  | head _ ih | sees _ _ ih | look _ _ ih | skip _ _ ih | take _ _ ih | call _ _ ih
  | span _ _ _ ih | commas _ _ _ _ ih | commas1 _ _ _ ih | group _ _ _ _ _ ih =>
      simp only [Rule.bind, run, bind_assoc, ih]

@[simp] theorem run_mark (text : String) : (Rule.mark text).run depth = Parser.mark text := by
  simp only [Rule.mark, run, Parser.mark, discard_eq_bind]
  rfl

@[simp] theorem run_keyword (text : String) :
    (Rule.keyword text).run depth = Parser.keyword text := by
  simp only [Rule.keyword, run, Parser.keyword, discard_eq_bind]
  rfl

@[simp] theorem run_name : Rule.name.run depth = Parser.name := by
  simp only [Rule.name, run, Parser.name, map_eq_pure_bind]
  rfl

@[simp] theorem run_next : Rule.next.run depth = Option.map Token.glance <$> next? := by
  simp only [Rule.next, run, map_eq_pure_bind]

@[simp] theorem run_skipped (test : Test) :
    (Rule.skipped test).run depth = Parser.skip test.accepts := by
  simp only [Rule.skipped, run, bind_pure]

@[simp] theorem run_seen (test : Test) :
    (Rule.seen test).run depth = Parser.sees test.accepts := by
  simp only [Rule.seen, run, bind_pure]

@[simp] theorem run_looked (kind : Look) :
    (Rule.looked kind).run depth = fun tokens => some (kind.sees tokens, tokens) := by
  simp only [Rule.looked, run, bind_pure]

@[simp] theorem run_taken (test : Test) :
    (Rule.taken test).run depth = (·.text) <$> Parser.take test.accepts := by
  simp only [Rule.taken, run, map_eq_pure_bind]

@[simp] theorem run_read (reader : Reader α) :
    (Rule.read reader).run depth = reader.read depth := by
  simp only [Rule.read, run, bind_pure]

@[simp] theorem run_fail_unless (condition : Bool) :
    (Rule.failUnless condition).run depth = Go.failUnless condition := by
  cases condition <;> rfl

@[simp] theorem run_list (item : Rule α) (close : String) :
    (Rule.list item close).run depth = commaList depth (item.run depth) close := by
  simp only [Rule.list, run, bind_pure]

@[simp] theorem run_list1 (item : Rule α) :
    (Rule.list1 item).run depth = commaList1 depth (item.run depth) := by
  simp only [Rule.list1, run, bind_pure]

@[simp] theorem run_siblings (opening closing : String) (item : Rule α) :
    (Rule.siblings opening closing item).run depth =
      bracketed opening closing depth (item.run depth) := by
  simp only [Rule.siblings, run, bind_pure]

@[simp] theorem run_text (inner : Rule α) : (Rule.text inner).run depth = (do
    let pair ← withTokens (inner.run depth)
    return (pair.1, Token.spanText pair.2)) := by
  simp only [Rule.text, run]

@[simp] theorem run_ite (condition : Prop) [Decidable condition] (one other : Rule α) :
    (if condition then one else other).run depth =
      if condition then one.run depth else other.run depth := by
  split <;> rfl

end Rule

@[simp] theorem Glance.or_comment_glance (next : Option Token) (type : TypeExpr) :
    Glance.orComment (next.map Token.glance) type = afterMark next type := by
  cases next with
  | none => rfl
  | some token =>
      unfold Glance.orComment afterMark
      cases comments : token.comments <;> simp [Token.glance, comments]

theorem with_tokens_map (reader : Parser α) (change : α → β) :
    withTokens (change <$> reader) =
      (fun pair => (change pair.1, pair.2)) <$> withTokens reader := by
  funext tokens
  simp only [withTokens, map_apply, Option.map_map]
  rfl

theorem sibling_list_map (item : List Sibling → Nat → Parser α) (change : α → β) (close : String)
    (before : List Sibling) :
    siblingList depth (fun before row => change <$> item before row) close before =
      List.map change <$> siblingList depth item close before := by
  induction depth generalizing before with
  | zero => rfl
  | succ depth ih =>
      simp only [siblingList, map_bind]
      refine bind_congr fun closed => ?_
      cases closed with
      | true => rfl
      | false =>
          simp only [Bool.false_eq_true, if_false, map_bind]
          refine bind_congr fun next => ?_
          cases next with
          | none => rfl
          | some token =>
              simp only [with_tokens_map, bind_map_left, map_bind]
              refine bind_congr fun pair => bind_congr fun ended => ?_
              cases ended with
              | true => simp [ih]
              | false => simp

/-- Where the items do not depend on what stands before them, the siblings do not matter. -/
theorem sibling_list_const (item : Parser α) (close : String) (before other : List Sibling) :
    siblingList depth (fun _ _ => item) close before =
      siblingList depth (fun _ _ => item) close other := by
  induction depth generalizing before other with
  | zero => rfl
  | succ depth ih =>
      simp only [siblingList]
      refine bind_congr fun closed => ?_
      cases closed with
      | true => rfl
      | false =>
          refine bind_congr fun next => ?_
          cases next with
          | none => rfl
          | some token =>
              refine bind_congr fun pair => bind_congr fun ended => ?_
              cases ended with
              | true =>
                  simp only [if_true]
                  rw [ih]
              | false => rfl

theorem bracketed_of_is_mark {opening closing : String} {item : Parser α} {first : Token}
    {rest : List Token} (opens : isMark opening first = true) :
    bracketed opening closing depth item (first :: rest) =
      siblingList depth (fun before row => (docOf row before, ·) <$> item) closing
        (siblingsBefore first []) rest := by
  rw [bracketed, next_bind]
  exact mark_bind_of_is_mark opens _

theorem bracketed_const (opening closing : String) (item : Parser α) :
    (List.map (·.2) <$> bracketed opening closing depth item) = (do
      mark opening
      siblingList depth (fun _ _ => item) closing []) := by
  unfold bracketed
  funext tokens
  cases tokens with
  | nil => rfl
  | cons token rest =>
      have listed : List.map Prod.snd <$> siblingList depth
          (fun before row => (docOf row before, ·) <$> item) closing (siblingsBefore token []) =
            siblingList depth (fun _ _ => item) closing [] := by
        rw [← sibling_list_map, sibling_list_const item closing [] (siblingsBefore token [])]
        simp only [Functor.map_map, id_map']
      rw [← listed, ← map_bind]
      rfl

theorem map_documented_constraint (doc : Option (List String)) :
    Option.map (documented doc) <$> constraint depth = constraint depth := by
  cases depth with
  | zero => simp only [constraint]; rfl
  | succ depth =>
      simp only [constraint, map_bind]
      refine bind_congr fun named => bind_congr fun _ => bind_congr fun first =>
        bind_congr fun more => ?_
      cases more with
      | true => simp
      | false =>
          simp only [Bool.false_eq_true, if_false]
          split
          · cases named <;> simp [documented]
          · cases named <;> simp [documented]
          · simp

theorem type_expr_of_method {first opening : Token} {rest left : List Token} {type : TypeExpr}
    (named : isName first = true) (opens : isMark "(" opening = true)
    (read : typeExpr depth (first :: opening :: rest) = some (type, left)) :
    type = .ident first.text ∧ left = opening :: rest := by
  have kind : first.kind = .name := by simpa [isName] using named
  rw [is_mark_iff] at opens
  have other {text : String} (differs : "(" ≠ text) :
      ∀ token ∈ (opening :: rest).head?, isMark text token = false := by
    rintro token ⟨⟩
    simp [isMark, opens, differs]
  cases depth with
  | zero =>
      rw [typeExpr] at read
      cases read
  | succ depth =>
      rw [typeExpr, next_bind] at read
      simp only [List.head?_cons, kind] at read
      cases depth with
      | zero =>
          rw [typeName] at read
          cases read
      | succ depth =>
          rw [typeName, bind_eq_some] at read
          obtain ⟨⟨pair, taken⟩, middle, found, read⟩ := read
          obtain ⟨rfl, rfl⟩ := Prod.mk.inj (Option.some.inj read)
          obtain ⟨found, -⟩ := with_tokens_eq_some.1 found
          rw [bind_eq_some] at found
          obtain ⟨text, middle, named, found⟩ := found
          obtain ⟨token, same, -, rfl⟩ := name_eq_some.1 named
          obtain ⟨rfl, rfl⟩ := List.cons.inj same
          rw [skip_bind_of_refuses (other (by decide)), if_neg Bool.false_ne_true, pure_bind]
            at found
          dsimp only at found
          rw [skip_bind_of_refuses (other (by decide))] at found
          obtain ⟨rfl, rfl⟩ := Prod.mk.inj (Option.some.inj found)
          exact ⟨rfl, rfl⟩

theorem constraint_of_method {first opening : Token} {rest left : List Token}
    {found : Option Element} (named : isName first = true) (opens : isMark "(" opening = true)
    (read : constraint depth (first :: opening :: rest) = some (found, left)) :
    found = some (.embedded (.ident first.text)) ∧ left = opening :: rest := by
  have kind : first.kind = .name := by simpa [isName] using named
  cases depth with
  | zero =>
      rw [constraint] at read
      cases read
  | succ depth =>
      rw [constraint, sees_bind, skip_bind_of_refuses (by simp [isMark, kind]), bind_eq_some]
        at read
      obtain ⟨type, middle, typed, read⟩ := read
      obtain ⟨rfl, rfl⟩ := type_expr_of_method named opens typed
      rw [is_mark_iff] at opens
      rw [skip_bind_of_refuses (by simp [isMark, opens]), if_neg Bool.false_ne_true] at read
      simp only [List.head?_cons, Option.map_some, Option.getD_some, named, if_true] at read
      obtain ⟨rfl, rfl⟩ := Prod.mk.inj (Option.some.inj read)
      exact ⟨rfl, rfl⟩

def documentedElement (depth : Nat) (before : List Sibling) (row : Nat) : Parser (Option Element) :=
  Option.map (documented (docOf row before)) <$> plainElement depth

theorem plain_element_of_other (other : startsMethod tokens = false) :
    plainElement (depth + 1) tokens = constraint depth tokens := by
  rw [plainElement, bind_apply]
  simp only [other, Option.bind_some, Bool.false_eq_true, if_false]

theorem plain_element_of_method {first opening : Token} {rest : List Token}
    (named : isName first = true) (opens : isMark "(" opening = true) :
    plainElement (depth + 1) (first :: opening :: rest) =
      (signature depth (opening :: rest)).map fun pair =>
        (some (.method ⟨first.text, none, pair.1⟩), pair.2) := by
  have seen : startsMethod (first :: opening :: rest) = true :=
    Bool.and_eq_true_iff.2 ⟨named, opens⟩
  rw [plainElement, bind_apply]
  simp only [seen, Option.bind_some, if_true, name_bind, bind_pure_comp]
  rw [take_bind_of_accepts named, map_apply]

theorem interface_element_of_other (other : startsMethod tokens = false)
    (before : List Sibling) (row : Nat) :
    interfaceElement (depth + 1) before row tokens = constraint depth tokens := by
  rw [interfaceElement, either]
  cases tokens with
  | nil => rfl
  | cons first rest =>
      cases named : isName first with
      | false => rw [name_bind, take_bind_of_refuses named]
      | true =>
          rw [name_bind, take_bind_of_accepts named]
          cases rest with
          | nil => rfl
          | cons opening rest =>
              have closed : isMark "(" opening = false := by simpa [startsMethod, named] using other
              rw [sees_bind, List.head?_cons, Option.map_some, closed]
              rfl

theorem interface_element_of_method {first opening : Token} {rest : List Token}
    (named : isName first = true) (opens : isMark "(" opening = true) (before : List Sibling)
    (row : Nat) :
    interfaceElement (depth + 1) before row (first :: opening :: rest) =
      ((signature depth (opening :: rest)).map fun pair =>
        (some (.method ⟨first.text, docOf row before, pair.1⟩), pair.2)).or
          (constraint depth (first :: opening :: rest)) := by
  have read : (do
      failUnless true
      let params ← signature depth
      return some (.method ⟨first.text, docOf row before, params⟩) : Parser (Option Element))
        (opening :: rest) = (signature depth (opening :: rest)).map fun pair =>
          (some (.method ⟨first.text, docOf row before, pair.1⟩), pair.2) := by
    refine Eq.trans ?_ (map_apply (fun params : List Param =>
      some (ElementOf.method ⟨first.text, docOf row before, params⟩)) (signature depth) _)
    rw [← bind_pure_comp]
    rfl
  rw [interfaceElement, either, name_bind, take_bind_of_accepts named, sees_bind, List.head?_cons,
    Option.map_some, opens, Option.getD_some, read]
  cases signature depth (opening :: rest) <;> rfl

/-- A method is read as one, or the parenthesis after its name is left, and so the list fails. -/
theorem interface_element_eq (before : List Sibling) (row : Nat) (tokens : List Token) :
    interfaceElement depth before row tokens = documentedElement depth before row tokens ∨
      (documentedElement depth before row tokens = none ∧
        ∀ found left, interfaceElement depth before row tokens = some (found, left) →
          ∃ opening rest, isMark "(" opening = true ∧ left = opening :: rest) := by
  cases depth with
  | zero =>
      simp only [documentedElement, interfaceElement, plainElement]
      exact .inl rfl
  | succ depth =>
      rw [documentedElement, map_apply]
      cases method : startsMethod tokens with
      | false =>
          rw [interface_element_of_other method, plain_element_of_other method, ← map_apply,
            map_documented_constraint]
          exact .inl rfl
      | true =>
          match tokens, method with
          | first :: opening :: rest, method =>
              obtain ⟨named, opens⟩ := Bool.and_eq_true_iff.1 method
              rw [interface_element_of_method named opens, plain_element_of_method named opens]
              cases signed : signature depth (opening :: rest) with
              | some found => exact .inl rfl
              | none => exact .inr ⟨rfl, fun found left read =>
                  ⟨opening, rest, opens, (constraint_of_method named opens read).2⟩⟩

/-- Where the elements are a list, it does not matter that a constraint may be a name that a
parenthesis follows. -/
theorem sibling_list_interface_element (bound : Nat) (before : List Sibling) :
    siblingList bound (interfaceElement depth) "\x7d" before =
      siblingList bound (documentedElement depth) "\x7d" before := by
  induction bound generalizing before with
  | zero => rfl
  | succ bound ih =>
      simp only [siblingList]
      refine bind_congr fun closed => ?_
      cases closed with
      | true => rfl
      | false =>
          simp only [Bool.false_eq_true, if_false]
          refine bind_congr fun next => ?_
          cases next with
          | none => rfl
          | some token =>
              funext tokens
              dsimp only
              simp only [ih]
              generalize siblingsBefore token before = siblings
              rcases interface_element_eq siblings token.row tokens with same | ⟨refused, leaves⟩
              · have taken : withTokens (interfaceElement depth siblings token.row) tokens =
                    withTokens (documentedElement depth siblings token.row) tokens := by
                  rw [withTokens, withTokens, same]
                rw [bind_apply, bind_apply, taken]
              · have taken :
                    withTokens (documentedElement depth siblings token.row) tokens = none := by
                  rw [withTokens, refused]
                  rfl
                rw [bind_apply, bind_apply, taken, Option.bind_none]
                refine Option.bind_eq_none_iff.2 fun pair read => ?_
                obtain ⟨pair, left⟩ := pair
                obtain ⟨read, -⟩ := with_tokens_eq_some.1 read
                -- The parenthesis ends neither the element nor the interface.
                obtain ⟨opening, rest, opens, rfl⟩ := leaves _ _ read
                rw [is_mark_iff] at opens
                have closed : mark "\x7d" (opening :: rest) = none := by
                  simp [mark, take, isMark, opens, map_apply]
                rw [skip_bind_of_refuses (by simp [isTerminator, opens]), if_neg Bool.false_ne_true,
                  bind_apply, closed]
                rfl

theorem bracketed_interface : (do
      let __x ← next?
      match __x with
        | some brace => do
          mark "\x7b"
          (fun elements => TypeExpr.interface (List.filterMap id elements)) <$>
            siblingList depth (interfaceElement depth) "\x7d" (siblingsBefore brace [])
        | _ => failure) =
    (fun elements => TypeExpr.interface
      (List.filterMap (fun found => Option.map (documented found.fst) found.snd) elements)) <$>
          bracketed "\x7b" "\x7d" depth (plainElement depth) := by
  have listed (before : List Sibling) : siblingList depth (interfaceElement depth) "\x7d" before =
      List.map (fun found => Option.map (documented found.1) found.2) <$>
        siblingList depth (fun before row => (docOf row before, ·) <$> plainElement depth) "\x7d"
          before := by
    rw [sibling_list_interface_element, ← sibling_list_map]
    simp only [Functor.map_map]
    rfl
  rw [bracketed, map_bind]
  refine bind_congr fun next => ?_
  cases next with
  | none => rfl
  | some brace =>
      simp only [listed, map_bind, Functor.map_map, List.filterMap_map]
      rfl

theorem bracketed_struct (opening closing : String) (item : Parser (List α)) (make : List α → β) :
    (fun lists => make (List.map Prod.snd lists).flatten) <$> bracketed opening closing depth item =
      (do
        mark opening
        (fun lists => make lists.flatten) <$> siblingList depth (fun _ _ => item) closing []) := by
  have mapped := congrArg (fun reader => (fun lists => make lists.flatten) <$> reader)
    (@bracketed_const _ depth opening closing item)
  simpa only [Functor.map_map, map_bind] using mapped

theorem bracketed_discard (opening closing : String) (item : Parser α) :
    (fun _ => ()) <$> bracketed opening closing depth item = (do
      mark opening
      (fun _ => ()) <$> siblingList depth (fun _ _ => item) closing []) := by
  have mapped := congrArg (fun reader => (fun _ => ()) <$> reader)
    (@bracketed_const _ depth opening closing item)
  simpa only [Functor.map_map, map_bind] using mapped

theorem type_spec_eq (before : List Sibling) (row : Nat) :
    Go.typeSpec depth before row =
      (fun spec => { spec with doc := docOf row before }) <$> Go.typeSpec depth [] 0 := by
  cases depth with
  | zero =>
      simp only [Go.typeSpec]
      rfl
  | succ depth => simp [Go.typeSpec]

theorem type_decl_eq (before : List Sibling) (row : Nat) :
    Go.typeDecl depth before row =
      (fun specs => specs.map fun spec => { spec with doc := spec.doc <|> docOf row before }) <$>
        Go.typeDecl depth [] 0 := by
  cases depth with
  | zero =>
      simp only [Go.typeDecl]
      rfl
  | succ depth =>
      simp only [Go.typeDecl, map_bind]
      refine bind_congr fun _ => bind_congr fun next => ?_
      cases next with
      | none => rfl
      | some next =>
          have none : docOf 0 [] = none := rfl
          simp only [none, Option.orElse_eq_orElse, Option.orElse_eq_or, Option.or_none, map_bind]
          refine bind_congr fun grouped => ?_
          cases grouped <;> simp

namespace Test

@[simp] theorem accepts_mark (text : String) : (mark text).accepts = isMark text := rfl

@[simp] theorem accepts_keyword (text : String) : (keyword text).accepts = isKeyword text := rfl

@[simp] theorem accepts_name : name.accepts = isName := rfl

@[simp] theorem accepts_terminator : terminator.accepts = isTerminator := rfl

@[simp] theorem accepts_operator (operators : List String) :
    (operator operators).accepts = isOperator operators := rfl

@[simp] theorem accepts_starts_type : startsType.accepts = Go.startsType := rfl

@[simp] theorem accepts_or (one other : Test) :
    (one.or other).accepts = fun token => one.accepts token || other.accepts token := rfl

@[simp] theorem accepts_text : Test.text.accepts = fun token => token.kind == .text := rfl

@[simp] theorem accepts_any : Test.any.accepts = fun _ => true := rfl

@[simp] theorem accepts_range (ranges : Bool) :
    (range ranges).accepts = fun token => ranges && isKeyword "range" token := rfl

end Test

@[simp] theorem sees_type_switch_guard_eq :
    seesTypeSwitchGuard = fun tokens => some (Look.guard.sees tokens, tokens) := by
  funext tokens
  match tokens with
  | [] | [_] | [_, _] | _ :: _ :: _ :: _ => rfl

@[simp] theorem sees_label_eq :
    seesLabel = fun tokens => some (Look.label.sees tokens, tokens) := by
  funext tokens
  match tokens with
  | [] | [_] | _ :: _ :: _ => rfl

namespace Reader

theorem run_type_expr_rule : typeExprRule.run depth = Go.typeExpr (depth + 1) := by
  rw [Go.typeExpr]
  simp only [typeExprRule, Rule.run_bind, Rule.run_next, bind_map_left]
  refine bind_congr fun next => ?_
  cases next with
  | none => rfl
  | some first =>
      simp only [Option.map_some, Token.glance]
      generalize first.kind = kind, first.text = text
      split
      · simp [read]
      · simp [read]
      · simp [read]
      · simp [read]
      · simp [read, bracketed_struct]
      · simp only [Rule.run_bind, Rule.run_keyword, Rule.run_siblings, Rule.run_read, Rule.run_pure,
          read, bind_pure_comp]
        exact congrArg (fun elements => keyword "interface" >>= fun _ => elements)
          bracketed_interface.symm
      · simp [read]
      · simp [read]

theorem run_uninterpreted_type_rule :
    uninterpretedTypeRule.run depth = Go.uninterpretedType (depth + 1) := by
  rw [Go.uninterpretedType]
  simp [uninterpretedTypeRule, read]

theorem run_type_name_rule : typeNameRule.run depth = Go.typeName (depth + 1) := by
  rw [Go.typeName]
  simp [typeNameRule, read]

theorem run_signature_rule : signatureRule.run depth = Go.signature (depth + 1) := by
  rw [Go.signature]
  simp [signatureRule, read]

theorem run_param_list_rule : paramListRule.run depth = Go.paramList (depth + 1) := by
  rw [Go.paramList]
  simp only [paramListRule, Rule.run_bind, Rule.run_mark, Rule.run_list, Rule.run_read]
  refine bind_congr fun _ => bind_congr fun items => ?_
  cases ParamItem.params? items <;> rfl

theorem run_constraint_rule : constraintRule.run depth = Go.constraint (depth + 1) := by
  rw [Go.constraint]
  simp only [constraintRule, Rule.run_bind, Rule.run_seen, Rule.run_skipped, Rule.run_read,
    Rule.run_ite]
  refine bind_congr fun named => bind_congr fun _ => bind_congr fun first =>
    bind_congr fun more => ?_
  cases first <;> rfl

theorem run_type_params_rule : typeParamsRule.run depth = Go.typeParams (depth + 1) := by
  rw [Go.typeParams]
  simp [typeParamsRule, read]

theorem run_expr_rule (literals : Bool) :
    (exprRule literals).run depth = Go.expr (depth + 1) literals := by
  rw [Go.expr]
  simp [exprRule, read]

theorem run_unary_rule (literals : Bool) :
    (unaryRule literals).run depth = Go.unary (depth + 1) literals := by
  rw [Go.unary]
  simp [unaryRule, read]

theorem run_operand_rule : operandRule.run depth = Go.operand (depth + 1) := by
  rw [Go.operand]
  simp only [operandRule, Rule.run_bind, Rule.run_next, bind_map_left]
  refine bind_congr fun next => ?_
  cases next with
  | none => rfl
  | some first =>
      simp only [Option.map_some, Token.glance]
      generalize first.kind = kind, first.text = text
      split <;> simp [read]

theorem run_suffixes_rule (literals : Bool) (kind : OperandKind) :
    (suffixesRule literals kind).run depth = Go.suffixes (depth + 1) literals kind := by
  rw [Go.suffixes]
  simp [suffixesRule, suffixRule, read]

theorem run_call_arguments_rule : callArgumentsRule.run depth = Go.callArguments (depth + 1) := by
  rw [Go.callArguments]
  simp [callArgumentsRule, read]

theorem run_indices_rule : indicesRule.run depth = Go.indices (depth + 1) := by
  rw [Go.indices]
  simp [indicesRule, read]

theorem run_literal_value_rule : literalValueRule.run depth = Go.literalValue (depth + 1) := by
  rw [Go.literalValue]
  simp [literalValueRule, Rule.literalPart, read]

theorem run_simple_stmt_rule (literals ranges : Bool) :
    (simpleStmtRule literals ranges).run depth = Go.simpleStmt (depth + 1) literals ranges := by
  rw [Go.simpleStmt]
  simp [simpleStmtRule, Test.endsSimple, read]

theorem run_block_rule : blockRule.run depth = Go.block (depth + 1) := by
  rw [Go.block]
  simp [blockRule, read, bracketed_discard]

theorem run_stmt_rule : stmtRule.run depth = Go.stmt (depth + 1) := by
  rw [Go.stmt]
  simp only [stmtRule, Rule.run_bind, Rule.run_looked, Rule.run_next, Rule.run_ite, sees_label_eq]
  refine bind_congr fun labelled => ?_
  cases labelled with
  | true => simp [read]
  | false =>
      simp only [Bool.false_eq_true, if_false, bind_map_left]
      refine bind_congr fun next => ?_
      cases next with
      | none => rfl
      | some first =>
          simp only [Option.map_some, Token.glance]
          generalize first.kind = kind, first.text = text
          split <;> simp [read, Rule.values, Test.endsField]

theorem run_if_stmt_rule : ifStmtRule.run depth = Go.ifStmt (depth + 1) := by
  rw [Go.ifStmt]
  simp [ifStmtRule, read]

theorem run_for_stmt_rule : forStmtRule.run depth = Go.forStmt (depth + 1) := by
  rw [Go.forStmt]
  simp [forStmtRule, read]

theorem run_switch_stmt_rule : switchStmtRule.run depth = Go.switchStmt (depth + 1) := by
  rw [Go.switchStmt]
  simp [switchStmtRule, read]

theorem run_switch_clauses_rule :
    (clausesRule Rule.values switchClauses).run depth = Go.switchClauses (depth + 1) := by
  rw [Go.switchClauses]
  simp [clausesRule, Rule.values, read]

theorem run_select_clauses_rule :
    (clausesRule (do let _ ← Rule.read (simpleStmt true false)) selectClauses).run depth =
      Go.selectClauses (depth + 1) := by
  rw [Go.selectClauses]
  simp [clausesRule, read]

theorem run_clause_stmts_rule : clauseStmtsRule.run depth = Go.clauseStmts (depth + 1) := by
  rw [Go.clauseStmts]
  simp [clauseStmtsRule, Test.endsClause, read]

theorem run_value_decl_rule : valueDeclRule.run depth = Go.valueDecl (depth + 1) := by
  rw [Go.valueDecl]
  simp [valueDeclRule, Rule.valueSpec, Rule.values, read, bracketed_discard, skip_mark]

theorem run_type_decl_rule : typeDeclRule.run depth = Go.typeDecl (depth + 1) [] 0 := by
  have undocumented : docOf 0 [] = none := rfl
  have documents : Go.typeSpec depth = fun before row =>
      (fun spec => { spec with doc := docOf row before }) <$> Go.typeSpec depth [] 0 :=
    funext fun before => funext fun row => type_spec_eq before row
  have listed (before : List Sibling) : siblingList depth (Go.typeSpec depth) ")" before =
      List.map (fun found => { found.2 with doc := found.1 }) <$>
        siblingList depth (fun before row => (docOf row before, ·) <$> Go.typeSpec depth [] 0) ")"
          before := by
    rw [← sibling_list_map, documents]
    simp only [Functor.map_map]
  rw [Go.typeDecl]
  simp only [typeDeclRule, Rule.run_bind, Rule.run_keyword, Rule.run_next, bind_map_left]
  refine bind_congr fun _ => ?_
  funext tokens
  cases tokens with
  | nil => rfl
  | cons next rest =>
      simp only [next_bind, List.head?_cons, Option.map_some, undocumented]
      simp only [Rule.run_bind, Rule.run_seen, Test.accepts_mark, Rule.run_ite, Rule.run_siblings,
        Rule.run_read, Rule.run_pure, read, sees_cons_bind]
      cases opens : isMark "(" next with
      | true =>
          rw [skip_bind_of_accepts opens, if_pos rfl, if_pos rfl, bind_apply,
            bracketed_of_is_mark opens, listed, bind_map_left, bind_apply]
          simp only [Option.orElse_eq_orElse, Option.orElse_eq_or, Option.or_none, List.map_map,
            Function.comp_def]
      | false =>
          rw [skip_bind_of_refuses (by simpa using opens), if_neg Bool.false_ne_true,
            if_neg Bool.false_ne_true, documents]
          simp
          rfl

theorem run_param_item_rules :
    either (Rule.namedParam.run depth) ((Rule.paramType none .alone).run depth) =
      Go.paramItem (depth + 1) := by
  rw [Go.paramItem]
  simp [Rule.namedParam, Rule.paramType, Rule.ended, Test.endsItem, read]

theorem run_field_decl_rules :
    either (Rule.namedFields.run depth) (Rule.embeddedField.run depth) =
      Go.fieldDecl (depth + 1) := by
  rw [Go.fieldDecl]
  simp [Rule.namedFields, Rule.embeddedField, Rule.fieldTag, Rule.ended, Test.endsField, read]

theorem run_element_rules :
    (Body.method Rule.method (Rule.read constraint)).run depth = plainElement (depth + 1) := by
  rw [plainElement]
  simp [Body.run, Rule.method, read]

theorem run_type_spec_rules : either (Rule.plainSpec.run depth) (Rule.genericSpec.run depth) =
    Go.typeSpec (depth + 1) [] 0 := by
  have undocumented : docOf 0 [] = none := rfl
  rw [Go.typeSpec]
  simp only [Rule.plainSpec, Rule.genericSpec, Rule.spec, Rule.run_bind, Rule.run_name, either_bind,
    undocumented]
  refine bind_congr fun name => ?_
  rw [bind_pure_comp, ← map_either]
  simp [Rule.plainType, Rule.ended, Test.endsSpec, read]

theorem read_succ (reader : Reader α) (depth : Nat) :
    reader.read (depth + 1) = reader.body.run depth := by
  cases reader with
  | typeExpr => exact run_type_expr_rule.symm
  | uninterpretedType => exact run_uninterpreted_type_rule.symm
  | typeName => exact run_type_name_rule.symm
  | signature => exact run_signature_rule.symm
  | paramList => exact run_param_list_rule.symm
  | paramItem => exact run_param_item_rules.symm
  | fieldDecl => exact run_field_decl_rules.symm
  | element => exact run_element_rules.symm
  | constraint => exact run_constraint_rule.symm
  | typeParams => exact run_type_params_rule.symm
  | expr literals => exact (run_expr_rule literals).symm
  | unary literals => exact (run_unary_rule literals).symm
  | operand => exact run_operand_rule.symm
  | suffixes literals kind => exact (run_suffixes_rule literals kind).symm
  | callArguments => exact run_call_arguments_rule.symm
  | indices => exact run_indices_rule.symm
  | literalValue => exact run_literal_value_rule.symm
  | simpleStmt literals ranges => exact (run_simple_stmt_rule literals ranges).symm
  | block => exact run_block_rule.symm
  | stmt => exact run_stmt_rule.symm
  | ifStmt => exact run_if_stmt_rule.symm
  | forStmt => exact run_for_stmt_rule.symm
  | switchStmt => exact run_switch_stmt_rule.symm
  | switchClauses => exact run_switch_clauses_rule.symm
  | selectClauses => exact run_select_clauses_rule.symm
  | clauseStmts => exact run_clause_stmts_rule.symm
  | valueDecl => exact run_value_decl_rule.symm
  | typeSpec => exact run_type_spec_rules.symm
  | typeDecl => exact run_type_decl_rule.symm

theorem read_zero (reader : Reader α) : reader.read 0 = failure := by
  cases reader <;>
    simp only [read, Go.typeExpr, Go.uninterpretedType, Go.typeName, Go.signature, Go.paramList,
      Go.paramItem, Go.fieldDecl, plainElement, Go.constraint, Go.typeParams, Go.expr, Go.unary,
      Go.operand, Go.suffixes, Go.callArguments, Go.indices, Go.literalValue, Go.simpleStmt,
      Go.block, Go.stmt, Go.ifStmt, Go.forStmt, Go.switchStmt, Go.switchClauses, Go.selectClauses,
      Go.clauseStmts, Go.valueDecl, Go.typeSpec, Go.typeDecl]

end Reader

end EndpointAtlas.Go
