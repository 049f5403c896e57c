import EndpointAtlas.Proofs.Go.Grouping.Types

/-!
Types of parameters, of fields and of declarations. What is read of an item depends on the tokens of
its type only through the type.
-/

namespace EndpointAtlas.Go

open EndpointAtlas.Go.Parser

variable {α : Type} {depth : Nat} {name : Token} {tokens rest : List Token} {found : TypeExpr}

theorem either_of_first {first second : Parser α} {pair : α × List Token}
    (read : first tokens = some pair) : either first second tokens = some pair := by
  rw [either, read]

theorem either_of_second {first second : Parser α} (refused : first tokens = none) :
    either first second tokens = second tokens := by
  rw [either, refused]

/-- No mark starts a type but four. -/
theorem not_is_mark_of_type_expr {text : String} (other : text ∉ ["*", "[", "(", "<-"])
    (read : typeExpr depth tokens = some (found, rest)) :
    ∀ token ∈ tokens.head?, isMark text token = false := by
  intro token first
  by_contra shown
  rw [Bool.not_eq_false, is_mark_iff] at shown
  have noType : ∀ token ∈ tokens.head?, startsType token = false := by
    intro token' first'
    obtain rfl := Option.some.inj (first.symm.trans first')
    simp only [startsType, shown]
    simpa using other
  rw [type_expr_eq_none noType] at read
  cases read

theorem param_item_of_named {item : ParamItem} (enough : enoughFor tokens.length ≤ depth)
    (read : Rule.namedParam.run depth tokens = some (item, rest)) :
    paramItem depth tokens = some (item, rest) :=
  (Reader.paramItem.read_eq_run tokens enough).trans (either_of_first read)

theorem named_param_of_type_expr (named : isName name = true)
    (read : typeExpr depth tokens = some (found, rest))
    (ends : ∃ token ∈ rest.head?, Test.endsItem.accepts token = true) :
    Rule.namedParam.run depth (name :: tokens) = some (.named name.text found, rest) := by
  rw [Rule.namedParam, Rule.run_bind, Rule.run_name, name_bind, take_bind_of_accepts named]
  exact param_type_eq_some.2
    ⟨ends, .inr ⟨not_is_mark_of_type_expr (by decide) read, found, read, rfl⟩⟩

theorem named_param_of_dots {dots : Token} (named : isName name = true)
    (open_ : isMark "..." dots = true) (read : typeExpr depth tokens = some (found, rest))
    (ends : ∃ token ∈ rest.head?, Test.endsItem.accepts token = true) :
    Rule.namedParam.run depth (name :: dots :: tokens) =
      some (.variadic (some name.text) found, rest) := by
  rw [Rule.namedParam, Rule.run_bind, Rule.run_name, name_bind, take_bind_of_accepts named]
  exact param_type_eq_some.2 ⟨ends, .inl ⟨dots, tokens, found, rfl, open_, read, rfl⟩⟩

theorem comma_list1_names {names : List Token} {texts : List String} {bound : Nat}
    (listed : NameList names texts) (few : names.length < bound)
    (ends : ∀ token ∈ tokens.head?, isMark "," token = false) :
    commaList1 bound Parser.name (names ++ tokens) = some (texts, tokens) := by
  induction listed generalizing bound with
  | last named =>
      obtain ⟨bound, rfl⟩ := Nat.exists_eq_add_one_of_ne_zero (Nat.ne_zero_of_lt few)
      rw [commaList1, name_bind, List.singleton_append, take_bind_of_accepts named,
        skip_bind_of_refuses ends]
      rfl
  | more named divides further ih =>
      obtain ⟨bound, rfl⟩ := Nat.exists_eq_add_one_of_ne_zero (Nat.ne_zero_of_lt few)
      have fewer := ih (Nat.lt_of_succ_lt (Nat.lt_of_succ_lt_succ few))
      rw [commaList1, name_bind, List.cons_append, take_bind_of_accepts named, List.cons_append,
        skip_bind_of_accepts divides, if_pos rfl, bind_apply, fewer]
      rfl

theorem field_tag_of_text {tag : Token} (tags : tag.kind = .text) (tokens : List Token) :
    Rule.fieldTag.run depth (tag :: tokens) =
      some (some (String.ofList (unquoteTag tag.text.toList)), tokens) := by
  have accepted : Test.text.accepts tag = true := by simp [tags]
  simp only [Rule.fieldTag, Rule.run_bind, Rule.run_seen, Rule.run_ite, Rule.run_taken,
    Rule.run_pure, sees_cons_bind, accepted, if_true, bind_map_left]
  rw [take_bind_of_accepts accepted]
  rfl

theorem field_tag_of_ends_field {token : Token} (ends : Test.endsField.accepts token = true)
    (tokens : List Token) :
    Rule.fieldTag.run depth (token :: tokens) = some (none, token :: tokens) := by
  have untagged : (token.kind == .text) = false := by
    simp only [Test.endsField, Test.accepts_or, Test.accepts_terminator, Test.accepts_mark,
      Bool.or_eq_true, isTerminator, isMark, Bool.and_eq_true, beq_iff_eq] at ends
    rcases ends with shown | shown <;> simp [shown]
  simp only [Rule.fieldTag, Rule.run_bind, Rule.run_seen, Rule.run_ite, Rule.run_pure,
    Test.accepts_text, sees_cons_bind, untagged, Bool.false_eq_true, if_false]
  rfl

theorem field_tag_of_field_end (ends : FieldEnd tokens) :
    ∃ tag rest, Rule.fieldTag.run depth tokens = some (tag, rest) ∧
      ∃ token ∈ rest.head?, Test.endsField.accepts token = true := by
  cases ends with
  | plain ends => exact ⟨_, _, field_tag_of_ends_field ends _, _, rfl, ends⟩
  | tagged tags ends => exact ⟨_, _, field_tag_of_text tags _, _, rfl, ends⟩

theorem named_fields_of_type_expr {names left : List Token} {texts : List String}
    {tag : Option String} (few : names.length < depth) (listed : NameList names texts)
    (read : typeExpr depth tokens = some (found, rest))
    (tagged : Rule.fieldTag.run depth rest = some (tag, left))
    (ends : ∃ token ∈ left.head?, Test.endsField.accepts token = true) :
    Rule.namedFields.run depth (names ++ tokens) =
      some (texts.map fun name => ⟨some name, found, tag⟩, left) := by
  have first := comma_list1_names listed few (not_is_mark_of_type_expr (by decide) read)
  have read : Reader.typeExpr.read depth tokens = some (found, rest) := read
  simp only [Rule.namedFields, Rule.run_bind, Rule.run_list1, Rule.run_name, Rule.run_read]
  rw [bind_apply, first, Option.bind_some, bind_apply, read, Option.bind_some, bind_apply, tagged,
    Option.bind_some]
  exact Rule.ended_eq_some.2 ⟨rfl, rfl, ends⟩

theorem field_decl_of_named {fields : List Field} (enough : enoughFor tokens.length ≤ depth)
    (read : Rule.namedFields.run depth tokens = some (fields, rest)) :
    fieldDecl depth tokens = some (fields, rest) :=
  (Reader.fieldDecl.read_eq_run tokens enough).trans (either_of_first read)

theorem plain_type_of_type_expr {front : List Token} (leads : DeclaredPrefix front)
    (read : typeExpr depth tokens = some (found, rest)) :
    Rule.plainType.run depth (front ++ tokens) = some (found, rest) := by
  simp only [Rule.plainType, Rule.run_bind, Rule.run_skipped, Rule.run_read, Test.accepts_mark]
  cases leads with
  | definition =>
      rw [List.nil_append, skip_bind_of_refuses (not_is_mark_of_type_expr (by decide) read)]
      exact read
  | «alias» shown =>
      rw [List.singleton_append, skip_bind_of_accepts shown]
      exact read

theorem plain_spec_cons (named : isName name = true) (tokens : List Token) :
    Rule.plainSpec.run depth (name :: tokens) = (Rule.spec name.text).run depth tokens := by
  rw [Rule.plainSpec, Rule.run_bind, Rule.run_name, name_bind, take_bind_of_accepts named]

theorem generic_spec_cons {opening : Token} (named : isName name = true)
    (opens : isMark "[" opening = true) (tokens : List Token) :
    Rule.genericSpec.run depth (name :: opening :: tokens) =
      (Reader.typeParams.read depth >>= fun _ => (Rule.spec name.text).run depth) tokens := by
  simp only [Rule.genericSpec, Rule.run_bind, Rule.run_name, Rule.run_mark, Rule.run_read]
  rw [name_bind, take_bind_of_accepts named, mark_bind_of_is_mark opens]

/-- Type parameters are what stands in the square brackets that close them. -/
theorem content_of_type_params {nothing : Unit}
    (read : typeParams depth tokens = some (nothing, rest)) :
    ∃ content close, tokens = content ++ close :: rest ∧ isMark "]" close = true ∧
      Balanced content := by
  cases depth with
  | zero =>
      rw [typeParams] at read
      cases read
  | succ depth =>
      rw [← Reader.run_type_params_rule, Reader.typeParamsRule, Rule.run_bind, Rule.run_list,
        bind_eq_some] at read
      obtain ⟨groups, rest, listed, checked⟩ := read
      rw [Rule.run_fail_unless] at checked
      obtain ⟨-, rfl⟩ := fail_unless_eq_some.1 checked
      obtain ⟨found, listed, -⟩ := comma_list_eq_some (Rule.shrinks_run _ depth) listed
      obtain ⟨content, close, split, closes, balanced⟩ := listed.balanced (by
        simp only [Rule.run_bind, Rule.run_list1, Rule.run_name, Rule.run_read, Rule.run_pure]
        exact .bind (.comma_list1 .name depth) fun _ => (nests depth).constraint.discard)
      exact ⟨content, close, split, closes, balanced⟩

theorem Reader.sealed_type_params : Sealed (Reader.typeParams.read depth) := by
  cases depth with
  | zero =>
      rw [read_zero]
      exact .failure
  | succ depth =>
      rw [read_succ]
      refine Rule.sealed_bind (Rule.sealed_list _ (by decide)) fun groups => ?_
      rw [Rule.run_fail_unless]
      cases groups.isEmpty with
      | true => exact .failure
      | false => exact .pure ()

/-- What stands in front of the element type of a slice or an array. -/
theorem element_prefix_of_square {opening : Token} {type : TypeExpr}
    (opens : isMark "[" opening = true) (enough : enoughFor (opening :: tokens).length ≤ depth)
    (read : typeExpr depth (opening :: tokens) = some (type, rest)) :
    ∃ length close tail make found, tokens = length ++ close :: tail ∧ isMark "]" close = true ∧
      Balanced length ∧ ElementPrefix (opening :: (length ++ [close])) tail make ∧
        typeExpr depth tail = some (found, rest) := by
  rw [← type_expr_succ_of_enough enough] at read
  obtain ⟨length, close, tail, found, rfl, closes, sized, element⟩ := type_expr_of_square opens read
  refine ⟨length, close, tail, ?_⟩
  have balanced := sized.balanced
  cases sized with
  | slice => exact ⟨_, found, rfl, closes, balanced, .slice opens closes, element⟩
  | anyLength open_ =>
      exact ⟨_, found, rfl, closes, balanced, .anyLength opens open_ closes, element⟩
  | array stays counted =>
      refine ⟨_, found, rfl, closes, balanced, .array opens stays (fun bound fewer => ?_) closes,
        element⟩
      have enough := (enough_for_mono (Nat.le_succ _)).trans enough
      exact ((Reader.expr true).read_eq_of_enough _ fewer enough).trans counted

/-- What stands in square brackets after a declared name is the length of an array before the one
type only if it is one before the other. -/
theorem plain_spec_eq_none {opening : Token} {params edited : List Token}
    (named : isName name = true) (opens : isMark "[" opening = true)
    (counted : typeParams depth (params ++ tokens) = some ((), tokens))
    (refused : Rule.plainSpec.run depth (name :: opening :: (params ++ tokens)) = none)
    (plain : Rule.plainType.run depth tokens = some (found, rest))
    (ends : ∃ token ∈ rest.head?, Test.endsSpec.accepts token = true)
    (signs : ∀ token ∈ tokens.head?, isMark "=" token = true → token ∈ edited.head?)
    (enough : enoughFor (name :: opening :: (params ++ tokens)).length ≤ depth)
    (enough' : enoughFor (name :: opening :: (params ++ edited)).length ≤ depth) :
    Rule.plainSpec.run depth (name :: opening :: (params ++ edited)) = none := by
  have skips (tokens : List Token) : Rule.plainType.run depth (opening :: tokens) =
      typeExpr depth (opening :: tokens) := by
    simp only [Rule.plainType, Rule.run_bind, Rule.run_skipped, Rule.run_read, Test.accepts_mark]
    rw [skip_bind_of_refuses (by simpa using not_is_mark opens (by decide))]
    rfl
  refine Option.eq_none_iff_forall_ne_some.2 fun pair read => ?_
  obtain ⟨spec, left⟩ := pair
  rw [plain_spec_cons named] at read
  obtain ⟨type, read, -⟩ := spec_eq_some.1 read
  rw [skips] at read
  obtain ⟨length, close, tail, make, inner, split, closes, balanced, leads, element⟩ :=
    element_prefix_of_square opens ((enough_for_mono (Nat.le_succ _)).trans enough') read
  obtain ⟨content, close', split', closes', balanced'⟩ := content_of_type_params counted
  obtain rfl : params = content ++ [close'] :=
    List.append_cancel_right (split'.trans (by simp))
  rw [List.append_assoc, List.singleton_append] at split
  obtain ⟨rfl, rfl⟩ := @content_unique _ _ _ _ _ _ .square split closes' closes balanced' balanced
  obtain rfl : close' = close := by simpa using split
  have stays : ∀ token ∈ tokens.head?, isMark "=" token = false := by
    intro token first
    by_contra shown
    rw [Bool.not_eq_false] at shown
    cases shown.symm.trans
      (not_is_mark_of_type_expr (by decide) element token (signs token first shown))
  simp only [Rule.plainType, Rule.run_bind, Rule.run_skipped, Rule.run_read,
    Test.accepts_mark] at plain
  rw [skip_bind_of_refuses stays] at plain
  have whole := type_expr_element (leads.before tokens) ((enough_for_mono (by simp)).trans enough)
  have plain : typeExpr depth tokens = some (found, rest) := plain
  rw [plain, List.cons_append, type_expr_succ_of_enough ((enough_for_mono (by simp)).trans enough)]
    at whole
  rw [plain_spec_cons named, spec_eq_some.2 ⟨make found, (skips _).trans whole, ends, rfl⟩]
    at refused
  cases refused

theorem type_spec_of_plain {spec : TypeSpec} (enough : enoughFor tokens.length ≤ depth)
    (read : Rule.plainSpec.run depth tokens = some (spec, rest)) :
    Reader.typeSpec.read depth tokens = some (spec, rest) :=
  (Reader.typeSpec.read_eq_run tokens enough).trans (either_of_first read)

theorem type_spec_of_generic (enough : enoughFor tokens.length ≤ depth)
    (refused : Rule.plainSpec.run depth tokens = none) :
    Reader.typeSpec.read depth tokens = Rule.genericSpec.run depth tokens :=
  (Reader.typeSpec.read_eq_run tokens enough).trans (either_of_second refused)

/-- A declaration with type parameters is read alike if what stands after them is. -/
theorem carries_spec {rows : Nat} {opening : Token} {params edited : List Token}
    (named : isName name = true) (opens : isMark "[" opening = true)
    (counted : Reader.typeParams.Reads (params ++ tokens) () tokens)
    (refused : Rule.plainSpec.Refuses (name :: opening :: (params ++ tokens)))
    (carries : Carries rows ((Rule.spec name.text).run depth) tokens edited)
    (signs : ∀ token ∈ tokens.head?, isMark "=" token = true → token ∈ edited.head?)
    (enough : enoughFor (name :: opening :: (params ++ tokens)).length ≤ depth)
    (enough' : enoughFor (name :: opening :: (params ++ edited)).length ≤ depth) :
    Carries rows (Reader.typeSpec.read depth) (name :: opening :: (params ++ tokens))
      (name :: opening :: (params ++ edited)) := by
  intro spec rest read
  have counted : Reader.typeParams.read depth (params ++ tokens) = some ((), tokens) :=
    counted depth ((enough_for_mono (by simp; omega)).trans enough)
  have refused := refused depth enough
  rw [type_spec_of_generic enough refused, generic_spec_cons named opens, bind_apply, counted,
    Option.bind_some] at read
  obtain ⟨again, below⟩ := carries _ _ read
  obtain ⟨found, plain, ends, rfl⟩ := spec_eq_some.1 read
  have refused' := plain_spec_eq_none named opens counted refused plain ends signs enough enough'
  refine ⟨?_, ((below.append params).cons opening).cons name⟩
  rw [type_spec_of_generic enough' refused', generic_spec_cons named opens, bind_apply,
    Reader.sealed_type_params _ _ _ counted edited, Option.bind_some, again]

section

variable {type wrapped : List Token} (parens : InParens type wrapped)
  (reads : Reader.typeExpr.Reads (type ++ rest) found rest)

include parens reads

theorem carries_param {dots : List Token} (named : isName name = true)
    (variadic : dots = [] ∨ ∃ token, isMark "..." token = true ∧ dots = [token])
    (ends : ∃ token ∈ rest.head?, Test.endsItem.accepts token = true)
    (enough : enoughFor (name :: (dots ++ (wrapped ++ rest))).length ≤ depth) :
    Carries 0 (paramItem depth) (name :: (dots ++ (type ++ rest)))
      (name :: (dots ++ (wrapped ++ rest))) := by
  rcases variadic with rfl | ⟨token, open_, rfl⟩
  · refine parens.carries [name] (.named name.text found) reads List.suffix_rfl
      (fun tokens enough read _ => ?_) enough
    exact param_item_of_named enough (named_param_of_type_expr named read ends)
  · refine parens.carries [name, token] (.variadic (some name.text) found) reads List.suffix_rfl
      (fun tokens enough read _ => ?_) enough
    exact param_item_of_named enough (named_param_of_dots named open_ read ends)

theorem carries_field {names : List Token} {texts : List String} (listed : NameList names texts)
    (ends : FieldEnd rest) (enough : enoughFor (names ++ (wrapped ++ rest)).length ≤ depth) :
    Carries 0 (fieldDecl depth) (names ++ (type ++ rest)) (names ++ (wrapped ++ rest)) := by
  obtain ⟨tag, left, tagged, ended⟩ := @field_tag_of_field_end depth _ ends
  have within : left <:+ rest := Rule.fieldTag.shrinks_run depth _ _ _ tagged
  refine parens.carries names (texts.map fun name => ⟨some name, found, tag⟩) reads within
    (fun tokens enough read _ => ?_) enough
  refine field_decl_of_named enough (named_fields_of_type_expr ?_ listed read tagged ended)
  rw [enoughFor, List.length_append] at enough
  omega

theorem carries_declared {front : List Token} (named : isName name = true)
    (leads : DeclaredPrefix front)
    (ends : ∃ token ∈ rest.head?, Test.endsSpec.accepts token = true)
    (enough : enoughFor (name :: (front ++ (wrapped ++ rest))).length ≤ depth) :
    Carries 0 (Reader.typeSpec.read depth) (name :: (front ++ (type ++ rest)))
      (name :: (front ++ (wrapped ++ rest))) := by
  refine parens.carries (name :: front) ⟨name.text, none, found⟩ reads List.suffix_rfl
    (fun tokens enough read _ => ?_) enough
  exact type_spec_of_plain enough ((plain_spec_cons named _).trans
    (spec_eq_some.2 ⟨found, plain_type_of_type_expr leads read, ends, rfl⟩))

theorem carries_generic {opening : Token} {params front : List Token} (named : isName name = true)
    (opens : isMark "[" opening = true)
    (counted : Reader.typeParams.Reads (params ++ (front ++ (type ++ rest))) ()
      (front ++ (type ++ rest)))
    (refused : Rule.plainSpec.Refuses (name :: opening :: (params ++ (front ++ (type ++ rest)))))
    (leads : DeclaredPrefix front)
    (ends : ∃ token ∈ rest.head?, Test.endsSpec.accepts token = true)
    (enough : enoughFor (name :: opening :: (params ++ (front ++ (wrapped ++ rest)))).length ≤
      depth) :
    Carries 0 (Reader.typeSpec.read depth)
      (name :: opening :: (params ++ (front ++ (type ++ rest))))
      (name :: opening :: (params ++ (front ++ (wrapped ++ rest)))) := by
  have := parens.length_le
  have within : enoughFor (front ++ (wrapped ++ rest)).length ≤ depth :=
    (enough_for_mono (by simp; omega)).trans enough
  refine carries_spec named opens counted refused
    (parens.carries front ⟨name.text, none, found⟩ reads List.suffix_rfl (fun tokens _ read _ =>
      spec_eq_some.2 ⟨found, plain_type_of_type_expr leads read, ends, rfl⟩) within)
    (fun token first shown => ?_) ((enough_for_mono (by simp; omega)).trans enough) enough
  cases leads with
  | definition =>
      cases shown.symm.trans (not_is_mark_of_type_expr (by decide) (reads _ le_rfl) token first)
  | «alias» => exact first

end

end EndpointAtlas.Go
