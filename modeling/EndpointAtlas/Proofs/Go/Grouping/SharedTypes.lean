import EndpointAtlas.Proofs.Go.Grouping.Items
import EndpointAtlas.Proofs.Go.Grouping.Lists

/-!
Names that share a type. A parameter or a field that is given the type of the names after it is read
as one that shares the type with them.
-/

namespace EndpointAtlas.Go

open EndpointAtlas.Go.Parser

variable {α : Type}

section

variable {divides : Token → Bool} {item : Parser α} {close : String} {bound : Nat}
  {before : List Sibling} {tokens rest : List Token} {found : List (Option (List String) × α)}

theorem Listed.anywhere (listed : Listed divides item close bound before tokens found rest)
    (other : List Sibling) : ∃ found', Listed divides item close bound other tokens found' rest ∧
      found'.map (·.2) = found.map (·.2) := by
  induction listed generalizing other with
  | closed closes => exact ⟨_, .closed closes, rfl⟩
  | last stays read ends closes => exact ⟨_, .last stays read ends closes, rfl⟩
  | more stays read goes _ ih =>
      obtain ⟨later, listed, same⟩ := ih _
      exact ⟨_, .more stays read goes listed, congrArg (_ :: ·) same⟩

theorem Listed.lowered_anywhere {rows further : Nat} (rowFree : RowFree rows item)
    (shrinks : Shrinks item)
    (same : ∀ token, divides (Token.lowered token rows) = divides token)
    (listed : Listed divides item close bound before tokens found rest)
    (enough : tokens.length < further) (other : List Sibling) :
    ∃ found', Listed divides item close further other (lower rows tokens) found' (lower rows rest) ∧
      found'.map (·.2) = found.map (·.2) := by
  obtain ⟨found', listed', values⟩ := listed.anywhere [.declaration 0]
  obtain ⟨found'', listed'', values'⟩ :=
    (listed'.lowered rowFree shrinks same enough []).anywhere other
  exact ⟨found'', listed'', values'.trans values⟩

theorem Listed.starts {token : Token} {others left : List Token} {value : α}
    (listed : Listed divides item close bound before (token :: others) found rest)
    (stays : isMark close token = false) (read : item (token :: others) = some (value, left)) :
    ∃ doc later, found = (doc, value) :: later := by
  cases listed with
  | closed closes => cases closes.symm.trans stays
  | last _ read' =>
      obtain ⟨rfl, -⟩ := Prod.mk.inj (Option.some.inj (read.symm.trans read'))
      exact ⟨_, _, rfl⟩
  | more _ read' =>
      obtain ⟨rfl, -⟩ := Prod.mk.inj (Option.some.inj (read.symm.trans read'))
      exact ⟨_, _, rfl⟩

/-- Tokens in front of a rest, and the same some rows further down. -/
theorem EndsLower.of_lower (rows : Nat) (front front' : List Token) {middle : List Token}
    (nonempty : middle ≠ []) (rest : List Token) :
    EndsLower rows (front ++ (middle ++ rest)) (front' ++ lower rows (middle ++ rest)) rest := by
  obtain ⟨first, last, rfl⟩ := (List.eq_nil_or_concat middle).resolve_left nonempty
  exact ⟨front ++ first, last, front' ++ lower rows first, last.lowered rows, by simp, by simp, rfl⟩

/-- A list whose first item is read in another place with another value, and the others some rows
further down. -/
theorem Listed.replaced {rows further : Nat} {token token' : Token}
    {others others' left : List Token}
    {value value' : α} (rowFree : RowFree rows item) (shrinks : Shrinks item)
    (same : ∀ token, divides (Token.lowered token rows) = divides token)
    (listed : Listed divides item close bound before (token :: others) found rest)
    (stays : isMark close token = false) (read : item (token :: others) = some (value, left))
    (stays' : isMark close token' = false)
    (read' : item (token' :: others') = some (value', lower rows left))
    (enough : (token' :: others').length < further) (other : List Sibling) :
    ∃ doc doc' later later', found = (doc, value) :: later ∧
      Listed divides item close further other (token' :: others') ((doc', value') :: later')
        (lower rows rest) ∧
      later'.map (·.2) = later.map (·.2) ∧ rest <:+ left := by
  obtain ⟨further, rfl⟩ := Nat.exists_eq_add_one_of_ne_zero (Nat.ne_zero_of_lt enough)
  cases listed with
  | closed closes => cases closes.symm.trans stays
  | last _ again ends closes =>
      obtain ⟨rfl, rfl⟩ := Prod.mk.inj (Option.some.inj (again.symm.trans read))
      exact ⟨_, _, _, _, rfl, .last stays' read' ((same _).trans ends) closes, rfl,
        List.suffix_cons _ _⟩
  | more _ again goes later =>
      obtain ⟨rfl, rfl⟩ := Prod.mk.inj (Option.some.inj (again.symm.trans read))
      have fewer := (shrinks _ _ _ read').length_le
      rw [lower_cons, List.length_cons, length_lower] at fewer
      obtain ⟨later', listed', values⟩ :=
        later.lowered_anywhere rowFree shrinks same (by omega : _ < further) _
      exact ⟨_, _, _, _, rfl, .more stays' read' ((same _).trans goes) listed', values,
        (later.suffix shrinks).trans (List.suffix_cons _ _)⟩

end

/-- Items of two lists of parameters that differ in one, which has the name alone in the one list
and in the other the type of the next item as well. -/
inductive SharesType (name : String) : List ParamItem → List ParamItem → Prop
  | here {second : String} {type : TypeExpr} {items : List ParamItem} :
      SharesType name (.alone (.ident name) :: .named second type :: items)
        (.named name type :: .named second type :: items)
  | next {item : ParamItem} {items others : List ParamItem}
      (further : SharesType name items others) : SharesType name (item :: items) (item :: others)

namespace SharesType

variable {name : String} {items others : List ParamItem}

theorem any_is_named (shares : SharesType name items others) :
    items.any ParamItem.isNamed = true ∧ others.any ParamItem.isNamed = true := by
  induction shares with
  | here => simp [ParamItem.isNamed]
  | next _ ih => simp [ih]

theorem grouped (shares : SharesType name items others) (waiting : List String) :
    ParamItem.grouped? waiting items = ParamItem.grouped? waiting others := by
  induction shares generalizing waiting with
  | here => simp [ParamItem.grouped?, Function.comp_def]
  | @next item items others _ ih =>
      cases item with
      | alone type => cases type <;> simp [ParamItem.grouped?, ih]
      | named name type => simp [ParamItem.grouped?, ih]
      | variadic name type => simp [ParamItem.grouped?, ih]

theorem params (shares : SharesType name items others) :
    ParamItem.params? items = ParamItem.params? others := by
  unfold ParamItem.params?
  rw [shares.any_is_named.1, shares.any_is_named.2, if_pos rfl, if_pos rfl, shares.grouped]

end SharesType

section

variable {rows depth : Nat} {name : Token} {type copy rest : List Token} {found : TypeExpr}

theorem param_item_of_type_expr {tokens : List Token} (named : isName name = true)
    (read : typeExpr depth tokens = some (found, rest))
    (ends : ∃ token ∈ rest.head?, Test.endsItem.accepts token = true)
    (enough : enoughFor (name :: tokens).length ≤ depth) :
    paramItem depth (name :: tokens) = some (.named name.text found, rest) :=
  param_item_of_named enough (named_param_of_type_expr named read ends)

theorem not_is_mark_of_is_name (named : isName name = true) (text : String) :
    isMark text name = false := by
  rw [isName, beq_iff_eq] at named
  simp [isMark, named]

theorem type_expr_ident {tokens : List Token} (named : isName name = true)
    (ends : ∀ token ∈ tokens.head?, isMark "." token = false ∧ isMark "[" token = false) :
    typeExpr (depth + 2) (name :: tokens) = some (.ident name.text, tokens) := by
  rw [type_expr_of_is_name named, typeName, bind_apply, withTokens, name_bind,
    take_bind_of_accepts named, skip_bind_of_refuses fun token first => (ends token first).1,
    if_neg Bool.false_ne_true, pure_bind]
  dsimp only
  rw [skip_bind_of_refuses fun token first => (ends token first).2]
  rfl

theorem Reader.reads_ident (named : isName name = true)
    (ends : ∀ token ∈ rest.head?, isMark "." token = false ∧ isMark "[" token = false) :
    Reader.typeExpr.Reads (name :: rest) (.ident name.text) rest := by
  intro bound enough
  obtain ⟨depth, rfl⟩ : ∃ depth, bound = depth + 2 :=
    ⟨bound - 2, by rw [enoughFor] at enough; omega⟩
  exact type_expr_ident named ends

theorem param_item_of_comma {comma : Token} {tokens : List Token} (named : isName name = true)
    (divides : isMark "," comma = true)
    (enough : enoughFor (name :: comma :: tokens).length ≤ depth) :
    paramItem depth (name :: comma :: tokens) =
      some (.alone (.ident name.text), comma :: tokens) := by
  have typed : typeExpr depth (name :: comma :: tokens) =
      some (.ident name.text, comma :: tokens) := by
    refine Reader.reads_ident named ?_ depth enough
    rintro token ⟨⟩
    exact ⟨not_is_mark divides (by decide), not_is_mark divides (by decide)⟩
  have ends : ∃ token ∈ (comma :: tokens).head?, Test.endsItem.accepts token = true :=
    ⟨comma, rfl, by simp [Test.endsItem, divides]⟩
  have alone : (Rule.paramType none .alone).run depth (name :: comma :: tokens) =
      some (.alone (.ident name.text), comma :: tokens) :=
    param_type_eq_some.2 ⟨ends, .inr ⟨not_is_mark_of_type_expr (by decide) typed, _, typed, rfl⟩⟩
  exact (Reader.paramItem.read_eq_run _ enough).trans
    ((either_of_second (named_param_eq_none alone)).trans alone)

theorem carries_items_params {second comma comma' : Token} (named : isName name = true)
    (divides : isMark "," comma = true) (named' : isName second = true)
    (reads : Reader.typeExpr.Reads (type ++ rest) found rest)
    (ends : ∃ token ∈ rest.head?, Test.endsItem.accepts token = true)
    (copied : Copied type copy) (divides' : isMark "," comma' = true)
    (enough : enoughFor (name :: comma :: second :: (type ++ rest)).length ≤ depth)
    (enough' : enoughFor
      (name :: (copy ++ comma' :: lower rows (second :: (type ++ rest)))).length ≤ depth) :
    CarriesItems rows (isMark ",") (paramItem depth) ")"
      (fun found found' => SharesType name.text (found.map (·.2)) (found'.map (·.2)))
      (name :: comma :: second :: (type ++ rest))
      (name :: (copy ++ comma' :: lower rows (second :: (type ++ rest)))) := by
  intro bound further before items left listed few
  obtain ⟨further, rfl⟩ := Nat.exists_eq_add_one_of_ne_zero (Nat.ne_zero_of_lt few)
  have typed : typeExpr depth (type ++ rest) = some (found, rest) :=
    reads depth ((enough_for_mono (by simp; omega)).trans enough)
  have alone := param_item_of_comma named divides enough
  have shared := param_item_of_type_expr named' typed ends
    ((enough_for_mono (by simp)).trans enough)
  have own : paramItem depth (name :: (copy ++ comma' :: lower rows (second :: (type ++ rest)))) =
      some (.named name.text found, comma' :: lower rows (second :: (type ++ rest))) :=
    param_item_of_type_expr named (type_expr_copied copied typed
      (by simp [Test.endsType, divides']))
      ⟨comma', rfl, by simp [Test.endsItem, divides']⟩ enough'
  have open_ : isMark ")" name = false := not_is_mark_of_is_name named ")"
  cases listed with
  | closed closes => cases closes.symm.trans open_
  | last _ read ends =>
      obtain ⟨-, same⟩ := Prod.mk.inj (Option.some.inj (alone.symm.trans read))
      obtain ⟨rfl, -⟩ := List.cons.inj same
      cases ends.symm.trans divides
  | @more _ _ _ last _ left _ _ later _ read goes listed =>
      obtain ⟨rfl, same⟩ := Prod.mk.inj (Option.some.inj (alone.symm.trans read))
      obtain ⟨rfl, rfl⟩ := List.cons.inj same
      have shrinks : Shrinks (paramItem depth) := Reader.paramItem.shrinks_read depth
      have fewer : (second :: (type ++ rest)).length < further := by
        simp at few ⊢
        omega
      obtain ⟨doc, items, rfl⟩ := listed.starts (not_is_mark_of_is_name named' ")") shared
      have rowFree : RowFree rows (paramItem depth) := Reader.paramItem.row_free_read
      obtain ⟨found', listed', values⟩ := listed.lowered_anywhere rowFree shrinks (fun _ => rfl)
        fewer (.declaration (endRowBefore name
          (copy ++ comma' :: lower rows (second :: (type ++ rest)))
          (comma' :: lower rows (second :: (type ++ rest)))) :: siblingsBefore name before)
      refine ⟨_, .more open_ own divides' listed', ?_, ?_⟩
      · simp only [List.map_cons, values]
        exact .here
      · have ends : EndsLower rows (name :: comma :: second :: (type ++ rest))
            (name :: (copy ++ comma' :: lower rows (second :: (type ++ rest)))) (type ++ rest) :=
          ⟨[name, comma], second, name :: (copy ++ [comma']), second.lowered rows, rfl, by simp,
            rfl⟩
        rcases List.suffix_cons_iff.1 (listed.suffix shrinks) with whole | within
        · exact absurd (listed.shorter shrinks) (by rw [whole]; exact lt_irrefl _)
        · exact ends.suffix within

theorem param_list_eq_some {opening : Token} {tokens left : List Token} {params : List Param}
    (opens : isMark "(" opening = true) (enough : enoughFor (opening :: tokens).length ≤ depth) :
    paramList depth (opening :: tokens) = some (params, left) ↔
      ∃ items, commaList depth ((Rule.read .paramItem).run depth) ")" tokens = some (items, left) ∧
        ParamItem.params? items = some params := by
  have runs : paramList depth (opening :: tokens) =
      Reader.paramListRule.run depth (opening :: tokens) := Reader.paramList.read_eq_run _ enough
  rw [runs, Reader.paramListRule, Rule.run_bind, Rule.run_mark, mark_bind_of_is_mark opens,
    Rule.run_bind, Rule.run_list, bind_eq_some]
  constructor
  · rintro ⟨items, middle, listed, shown⟩
    refine ⟨items, ?_⟩
    cases kept : ParamItem.params? items with
    | none =>
        rw [kept] at shown
        cases shown
    | some params =>
        rw [kept] at shown
        obtain ⟨rfl, rfl⟩ := Prod.mk.inj (Option.some.inj shown)
        exact ⟨listed, rfl⟩
  · rintro ⟨items, listed, kept⟩
    refine ⟨items, left, listed, ?_⟩
    rw [kept]
    rfl

/-- A list of parameters with a name in it that is given the type of the next one. -/
theorem carries_params {opening second comma comma' : Token} {front : List Token}
    (opens : isMark "(" opening = true)
    (leads : Leads (Rule.read .paramItem) (isMark ",") (isMark ")") front
      (name :: comma :: second :: (type ++ rest)))
    (named : isName name = true) (divides : isMark "," comma = true)
    (named' : isName second = true) (reads : Reader.typeExpr.Reads (type ++ rest) found rest)
    (ends : ∃ token ∈ rest.head?, Test.endsItem.accepts token = true)
    (copied : Copied type copy) (divides' : isMark "," comma' = true)
    (alike : Alike (name :: comma :: second :: (type ++ rest))
      (name :: (copy ++ comma' :: lower rows (second :: (type ++ rest)))))
    (enough : enoughFor
      (opening :: (front ++ name :: comma :: second :: (type ++ rest))).length ≤ depth)
    (enough' : enoughFor (opening :: (front ++ name ::
      (copy ++ comma' :: lower rows (second :: (type ++ rest))))).length ≤ depth) :
    Carries rows (paramList depth) (opening :: (front ++ name :: comma :: second :: (type ++ rest)))
      (opening :: (front ++
        name :: (copy ++ comma' :: lower rows (second :: (type ++ rest))))) := by
  intro params left read
  obtain ⟨values, taken, shown⟩ := (param_list_eq_some opens enough).1 read
  have shrinks := (Rule.read .paramItem).shrinks_run depth
  obtain ⟨items, listed, rfl⟩ := comma_list_eq_some shrinks taken
  have fewer {tokens : List Token}
      (enough : enoughFor (opening :: (front ++ tokens)).length ≤ depth) :
      enoughFor tokens.length ≤ depth := (enough_for_mono (by simp; omega)).trans enough
  have carries := carries_items_params named divides named' reads ends copied divides'
    (fewer enough)
    (fewer enough')
  have same : paramItem depth = (Rule.read .paramItem).run depth := (Rule.run_read .paramItem).symm
  rw [same] at carries
  obtain ⟨items', listed', shares, below⟩ := leads.carries_items carries alike
    ((enough_for_mono (by simp)).trans enough)
    (fun _ _ _ shares => .next shares) depth depth [] items left listed
    (by rw [enoughFor] at enough'; simp at enough' ⊢; omega)
  refine ⟨(param_list_eq_some opens enough').2 ⟨_, comma_list_of_listed shrinks listed', ?_⟩,
    below.cons opening⟩
  rw [← shares.params, shown]

theorem type_expr_struct_eq_some {word : Token} {tokens left : List Token} {type : TypeExpr}
    (groups : isKeyword "struct" word = true)
    (enough : enoughFor (word :: tokens).length ≤ depth) :
    typeExpr depth (word :: tokens) = some (type, left) ↔
      ∃ found, bracketed "\x7b" "\x7d" depth ((Rule.read .fieldDecl).run depth) tokens =
          some (found, left) ∧ type = .struct (found.map (·.2)).flatten := by
  have runs : typeExpr depth (word :: tokens) =
      Reader.typeExprRule.run depth (word :: tokens) := Reader.typeExpr.read_eq_run _ enough
  have shown := is_keyword_iff.1 groups
  rw [runs, Reader.typeExprRule, Rule.run_bind, Rule.run_next, bind_map_left, next_bind,
    List.head?_cons, Option.map_some]
  simp only [Token.glance, shown]
  rw [Rule.run_bind, Rule.run_keyword, keyword_bind_of_is_keyword groups, Rule.run_bind,
    Rule.run_siblings, bind_eq_some]
  constructor
  · rintro ⟨found, middle, read, same⟩
    obtain ⟨rfl, rfl⟩ := Prod.mk.inj (Option.some.inj same)
    exact ⟨found, read, rfl⟩
  · rintro ⟨found, read, rfl⟩
    exact ⟨found, left, read, rfl⟩

theorem field_tag_of_copied_tag {tag tag' : List Token} (copied : CopiedTag tag tag') :
    ∃ text, ∀ token tokens, Test.endsField.accepts token = true →
      Rule.fieldTag.run depth (tag ++ token :: tokens) = some (text, token :: tokens) ∧
      Rule.fieldTag.run depth (tag' ++ token :: tokens) = some (text, token :: tokens) := by
  cases copied with
  | none =>
      exact ⟨none, fun token tokens ends =>
        ⟨field_tag_of_ends_field ends tokens, field_tag_of_ends_field ends tokens⟩⟩
  | @some tag copy tags resembles =>
      refine ⟨some (String.ofList (unquoteTag tag.text.toList)), fun token tokens _ =>
        ⟨field_tag_of_text tags _, ?_⟩⟩
      rw [← resembles.text]
      exact field_tag_of_text (resembles.kind.trans tags) _

theorem type_expr_copied_tag {tag tag' : List Token} {terminator : Token} {left : List Token}
    (copied : Copied type copy) (copied' : CopiedTag tag tag')
    (terminates : isTerminator terminator = true)
    (read : typeExpr depth (type ++ left) = some (found, left)) (others : List Token) :
    typeExpr depth (copy ++ (tag' ++ terminator :: others)) =
      some (found, tag' ++ terminator :: others) := by
  cases copied' with
  | none => exact type_expr_copied copied read (by simp [Test.endsType, terminates])
  | some tags resembles =>
      exact type_expr_copied copied read (by simp [Test.endsType, resembles.kind, tags])

theorem field_decl_of_type_expr {names tokens left : List Token} {texts : List String}
    {tag : Option String} (listed : NameList names texts)
    (read : typeExpr depth tokens = some (found, rest))
    (tagged : Rule.fieldTag.run depth rest = some (tag, left))
    (ends : ∃ token ∈ left.head?, Test.endsField.accepts token = true)
    (enough : enoughFor (names ++ tokens).length ≤ depth) :
    (Rule.read .fieldDecl).run depth (names ++ tokens) =
      some (texts.map fun name => ⟨some name, found, tag⟩, left) := by
  rw [Rule.run_read]
  refine field_decl_of_named enough (named_fields_of_type_expr ?_ listed read tagged ends)
  rw [enoughFor, List.length_append] at enough
  omega

theorem carries_items_fields {comma terminator : Token} {names tag tag' : List Token}
    {texts : List String} (named : isName name = true) (divides : isMark "," comma = true)
    (listed : NameList names texts)
    (reads : Reader.typeExpr.Reads (type ++ (tag ++ rest)) found (tag ++ rest))
    (ends : ∃ token ∈ rest.head?, Test.endsField.accepts token = true)
    (copied : Copied type copy) (copied' : CopiedTag tag tag')
    (terminates : isTerminator terminator = true)
    (enough : enoughFor (name :: comma :: (names ++ (type ++ (tag ++ rest)))).length ≤ depth)
    (enough' : enoughFor (name :: (copy ++ (tag' ++ terminator ::
      lower rows (names ++ (type ++ (tag ++ rest)))))).length ≤ depth) :
    CarriesItems rows isTerminator ((Rule.read .fieldDecl).run depth) "\x7d"
      (fun found found' => (found.map (·.2)).flatten = (found'.map (·.2)).flatten)
      (name :: comma :: (names ++ (type ++ (tag ++ rest))))
      (name :: (copy ++ (tag' ++
        terminator :: lower rows (names ++ (type ++ (tag ++ rest)))))) := by
  intro bound further before fields left taken few
  obtain ⟨further, rfl⟩ := Nat.exists_eq_add_one_of_ne_zero (Nat.ne_zero_of_lt few)
  have shrinks : Shrinks ((Rule.read .fieldDecl).run depth) := Rule.shrinks_run _ depth
  have rowFree : RowFree rows ((Rule.read .fieldDecl).run depth) :=
    (Rule.read .fieldDecl).row_free_run fun reader => reader.row_free_read
  obtain ⟨token, others, rfl⟩ : ∃ token others, rest = token :: others := by
    cases rest with
    | nil => simp at ends
    | cons token others => exact ⟨_, _, rfl⟩
  have ended : Test.endsField.accepts token = true := by simpa using ends
  have typed : typeExpr depth (type ++ (tag ++ token :: others)) =
      some (found, tag ++ token :: others) :=
    reads depth ((enough_for_mono (by simp; omega)).trans enough)
  obtain ⟨text, tagged⟩ := @field_tag_of_copied_tag depth _ _ copied'
  have all := field_decl_of_type_expr (.more named divides listed) typed (tagged _ _ ended).1 ends
    enough
  have others_ := field_decl_of_type_expr listed typed (tagged _ _ ended).1 ends
    ((enough_for_mono (by simp; omega)).trans enough)
  have own := field_decl_of_type_expr (.last named)
    (type_expr_copied_tag copied copied' terminates typed
      (lower rows (names ++ (type ++ (tag ++ token :: others)))))
    (tagged _ _ (by simp [Test.endsField, terminates])).2
    ⟨terminator, rfl, by simp [Test.endsField, terminates]⟩ enough'
  obtain ⟨first, more, rfl, isFirst⟩ :
      ∃ first more, names = first :: more ∧ isName first = true := by
    cases listed with
    | last named => exact ⟨_, _, rfl, named⟩
    | more named => exact ⟨_, _, rfl, named⟩
  have open_ : isMark "\x7d" (first.lowered rows) = false := not_is_mark_of_is_name isFirst "\x7d"
  have lowered := rowFree (first :: more ++ (type ++ (tag ++ token :: others)))
  rw [others_, Option.map_some] at lowered
  have fewer :
      (lower rows (first :: more ++ (type ++ (tag ++ token :: others)))).length < further := by
    simp at few ⊢
    omega
  obtain ⟨doc, doc', later, later', rfl, listed', values, within⟩ := taken.replaced rowFree shrinks
    (fun _ => rfl) (not_is_mark_of_is_name named "\x7d") all open_ lowered fewer
    (.declaration (endRowBefore name (copy ++ (tag' ++ terminator ::
      lower rows (first :: more ++ (type ++ (tag ++ token :: others)))))
      (terminator :: lower rows (first :: more ++ (type ++ (tag ++ token :: others))))) ::
        siblingsBefore name before)
  refine ⟨_, .more (not_is_mark_of_is_name named "\x7d") own terminates listed', ?_, ?_⟩
  · simp [values]
  · have ends := EndsLower.of_lower rows [name, comma]
      (name :: (copy ++ (tag' ++ [terminator])))
      (by simp : first :: more ++ (type ++ tag) ≠ []) (token :: others)
    simpa using ends.suffix within

/-- A struct with a field in it that is given the type and the tag of the next ones. -/
theorem carries_fields {word opening comma terminator : Token} {front names tag tag' : List Token}
    {texts : List String} (groups : isKeyword "struct" word = true)
    (opens : isMark "\x7b" opening = true)
    (leads : Leads (Rule.read .fieldDecl) isTerminator (isMark "\x7d") front
      (name :: comma :: (names ++ (type ++ (tag ++ rest)))))
    (named : isName name = true) (divides : isMark "," comma = true)
    (listed : NameList names texts)
    (reads : Reader.typeExpr.Reads (type ++ (tag ++ rest)) found (tag ++ rest))
    (ends : ∃ token ∈ rest.head?, Test.endsField.accepts token = true)
    (copied : Copied type copy) (copied' : CopiedTag tag tag')
    (terminates : isTerminator terminator = true)
    (alike : Alike (name :: comma :: (names ++ (type ++ (tag ++ rest))))
      (name :: (copy ++ (tag' ++ terminator :: lower rows (names ++ (type ++ (tag ++ rest)))))))
    (enough : enoughFor (word :: opening ::
      (front ++ name :: comma :: (names ++ (type ++ (tag ++ rest))))).length ≤ depth)
    (enough' : enoughFor (word :: opening :: (front ++ name :: (copy ++ (tag' ++ terminator ::
      lower rows (names ++ (type ++ (tag ++ rest))))))).length ≤ depth) :
    Carries rows (typeExpr depth)
      (word :: opening :: (front ++ name :: comma :: (names ++ (type ++ (tag ++ rest)))))
      (word :: opening :: (front ++ name :: (copy ++ (tag' ++ terminator ::
        lower rows (names ++ (type ++ (tag ++ rest))))))) := by
  intro result left read
  obtain ⟨fields, grouped, rfl⟩ := (type_expr_struct_eq_some groups enough).1 read
  obtain ⟨token, others, same, -, taken⟩ := bracketed_eq_some grouped
  obtain ⟨rfl, rfl⟩ := List.cons.inj same
  have fewer {tokens : List Token}
      (enough : enoughFor (word :: opening :: (front ++ tokens)).length ≤ depth) :
      enoughFor tokens.length ≤ depth := (enough_for_mono (by simp; omega)).trans enough
  have carries := carries_items_fields named divides listed reads ends copied copied' terminates
    (fewer enough) (fewer enough')
  obtain ⟨fields', taken', values, below⟩ := leads.carries_items carries alike
    ((enough_for_mono (by simp; omega)).trans enough)
    (fun first _ _ same => by simp only [List.map_cons, List.flatten_cons, same])
    depth depth _ fields left taken (by rw [enoughFor] at enough'; simp at enough' ⊢; omega)
  refine ⟨(type_expr_struct_eq_some groups enough').2
    ⟨_, bracketed_of_listed opens taken', ?_⟩, (below.cons opening).cons word⟩
  rw [values]

end

end EndpointAtlas.Go
