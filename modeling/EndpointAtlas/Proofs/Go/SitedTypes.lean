import EndpointAtlas.Proofs.Go.Sites

/-!
The methods that types declare stand in the tokens of the file, each with the comments of its site.
The readers of types find them, at any depth of the types.
-/

namespace EndpointAtlas.Go

open EndpointAtlas.Go.Parser

/-- Whether tokens declare a name at a site with these comments. -/
def Sited (all : List Token) (name : String) (doc : Option (List String)) : Prop :=
  ∃ site, DeclaredAt all name site ∧ site.doc = doc

def SitedType (all : List Token) (type : TypeExpr) : Prop :=
  ∀ method, type.Declares method → Sited all method.name method.doc

def SitedElement (all : List Token) : Element → Prop
  | .method method =>
      Sited all method.name method.doc ∧ ∀ param ∈ method.params, SitedType all param.type
  | .embedded type => SitedType all type

variable {all : List Token}

namespace SitedType

theorem ident (name : String) : SitedType all (.ident name) := fun _ declares => nomatch declares

theorem qualified (package name : String) : SitedType all (.qualified package name) :=
  fun _ declares => nomatch declares

theorem other (text : String) : SitedType all (.other text) := fun _ declares => nomatch declares

theorem pointer {target : TypeExpr} (sited : SitedType all target) :
    SitedType all (.pointer target) := by
  intro method declares
  cases declares with
  | pointer declares => exact sited method declares

theorem slice {element : TypeExpr} (sited : SitedType all element) :
    SitedType all (.slice element) := by
  intro method declares
  cases declares with
  | slice declares => exact sited method declares

theorem array {element : TypeExpr} (sited : SitedType all element) :
    SitedType all (.array element) := by
  intro method declares
  cases declares with
  | array declares => exact sited method declares

theorem map {key value : TypeExpr} (keys : SitedType all key) (values : SitedType all value) :
    SitedType all (.map key value) := by
  intro method declares
  cases declares with
  | key declares => exact keys method declares
  | value declares => exact values method declares

theorem struct {fields : List Field} (sited : ∀ field ∈ fields, SitedType all field.type) :
    SitedType all (.struct fields) := by
  intro method declares
  cases declares with
  | field member declares => exact sited _ member method declares

theorem interface {elements : List Element}
    (sited : ∀ element ∈ elements, SitedElement all element) :
    SitedType all (.interface elements) := by
  intro method declares
  cases declares with
  | embedded member declares => exact sited _ member method declares
  | method member => exact (sited _ member).1
  | param member listed declares => exact (sited _ member).2 _ listed method declares

theorem after_mark {type : TypeExpr} (next : Option Token) (sited : SitedType all type) :
    SitedType all (afterMark next type) := by
  unfold Go.afterMark
  split
  · split
    · exact other _
    · exact sited
  · exact sited

end SitedType

theorem reads_type_name_sited (depth : Nat) : Reads (typeName depth) (SitedType all) := by
  cases depth with
  | zero => rw [typeName]; exact Reads.failure
  | succ depth =>
      have ended : ∀ type, SitedType all type → Reads (do
          if ← skip (isMark "[") then
            let arguments ← commaList depth (typeExpr depth) "]"
            failUnless !arguments.isEmpty
            return (type, true)
          else return (type, false)) fun pair : TypeExpr × Bool => SitedType all pair.1 := by
        intro type sited
        apply Reads.later
        intro generic
        split
        · exact Reads.later fun _ => Reads.later fun _ => Reads.pure sited
        · exact Reads.pure sited
      rw [typeName]
      refine Reads.bind
        (Reads.with_tokens (show Reads _ fun pair => SitedType all pair.1 from ?_)) ?_
      · refine Reads.later fun first => Reads.later fun qualified => ?_
        split
        · exact Reads.later fun second => ended _ (.qualified first second)
        · exact ended _ (.ident first)
      · rintro ⟨⟨type, isGeneric⟩, tokens⟩ sited
        apply Reads.pure
        split
        · exact .other _
        · exact sited

theorem finds_type_name (depth : Nat) : Finds all (typeName depth) (SitedType all) :=
  .of_reads ((nests depth).typeName []) (reads_type_name_sited depth)

def ParamItem.type : ParamItem → TypeExpr
  | alone type => type
  | named _ type => type
  | variadic _ type => type

theorem sited_type_types_alone {items : List ParamItem}
    (sited : ∀ item ∈ items, SitedType all item.type) :
    ∀ param ∈ ParamItem.typesAlone items, SitedType all param.type := by
  induction items with
  | nil => simp [ParamItem.typesAlone]
  | cons item items ih =>
      obtain ⟨own, others⟩ := List.forall_mem_cons.1 sited
      cases item with
      | alone type => exact List.forall_mem_cons.2 ⟨own, ih others⟩
      | named name type => exact List.forall_mem_cons.2 ⟨own, ih others⟩
      | variadic name type => exact List.forall_mem_cons.2 ⟨own.slice, ih others⟩

theorem sited_type_grouped {waiting : List String} {items : List ParamItem} {params : List Param}
    (sited : ∀ item ∈ items, SitedType all item.type)
    (read : ParamItem.grouped? waiting items = some params) :
    ∀ param ∈ params, SitedType all param.type := by
  fun_induction ParamItem.grouped? waiting items generalizing params with
  | case1 =>
      obtain rfl := Option.some.inj read
      simp
  | case2 => cases read
  | case3 waiting name rest ih => exact ih (List.forall_mem_cons.1 sited).2 read
  | case4 => cases read
  | case5 waiting name type rest ih =>
      obtain ⟨own, others⟩ := List.forall_mem_cons.1 sited
      obtain ⟨found, grouped, rfl⟩ := Option.map_eq_some_iff.1 read
      intro param member
      rcases List.mem_append.1 member with shared | further
      · obtain ⟨_, -, rfl⟩ := List.mem_map.1 shared
        exact own
      · exact ih others grouped param further
  | case6 waiting name type rest ih =>
      obtain ⟨own, others⟩ := List.forall_mem_cons.1 sited
      obtain ⟨found, grouped, rfl⟩ := Option.map_eq_some_iff.1 read
      intro param member
      rcases List.mem_append.1 member with bare | further
      · obtain ⟨name, -, rfl⟩ := List.mem_map.1 bare
        exact .ident name
      · rcases List.mem_cons.1 further with rfl | further
        · exact own.slice
        · exact ih others grouped param further

/-- The parameters of a list have the types of its items, or names for types. -/
theorem sited_type_params {items : List ParamItem} {params : List Param}
    (sited : ∀ item ∈ items, SitedType all item.type)
    (read : ParamItem.params? items = some params) :
    ∀ param ∈ params, SitedType all param.type := by
  unfold ParamItem.params? at read
  split at read
  · exact sited_type_grouped sited read
  · obtain rfl := Option.some.inj read
    exact sited_type_types_alone sited

structure FindsTypes (all : List Token) (depth : Nat) : Prop where
  typeExpr : Finds all (typeExpr depth) (SitedType all)
  signature : Finds all (signature depth) fun params => ∀ param ∈ params, SitedType all param.type
  paramList : Finds all (paramList depth) fun params => ∀ param ∈ params, SitedType all param.type
  paramItem : Finds all (paramItem depth) fun item => SitedType all item.type
  fieldDecl : Finds all (fieldDecl depth) fun fields => ∀ field ∈ fields, SitedType all field.type
  constraint : Finds all (constraint depth) fun element => ∀ each ∈ element, SitedElement all each
  interfaceElement : ∀ prior before token others result rest,
    SiblingsAt .elements prior before → all = prior ++ token :: others →
      interfaceElement depth (siblingsBefore token before) token.row (token :: others) =
        some (result, rest) → ∀ each ∈ result, SitedElement all each

theorem finds_types_zero : FindsTypes all 0 where
  typeExpr := by rw [Go.typeExpr]; exact .failure
  signature := by rw [Go.signature]; exact .failure
  paramList := by rw [Go.paramList]; exact .failure
  paramItem := by rw [Go.paramItem]; exact .failure
  fieldDecl := by rw [Go.fieldDecl]; exact .failure
  constraint := by rw [Go.constraint]; exact .failure
  interfaceElement prior before token others result rest reached whole read := by
    rw [Go.interfaceElement] at read
    cases read

namespace FindsTypes

variable {depth : Nat} (finds : FindsTypes all depth)

include finds

theorem elements {depth' : Nat} {prior tokens rest : List Token} {before : List Sibling}
    {elements : List (Option Element)} (reached : SiblingsAt .elements prior before)
    (whole : all = prior ++ tokens)
    (read : siblingList depth' (Go.interfaceElement depth) "\x7d" before tokens =
      some (elements, rest)) :
    rest <:+ tokens ∧ ∀ element ∈ elements, ∀ each ∈ element, SitedElement all each := by
  refine Finds.sibling_list_of_reached (SiblingsAt .elements) ?_ reached whole read
  intro prior before token others result rest reached whole found
  refine ⟨finds.interfaceElement _ _ _ _ _ _ reached whole found, ?_⟩
  have stands := (RefusesTerminators.interface_element depth _ _).stands found
  exact reached.advance ((nests depth).interfaceElement _ _ [] _) stands _ _ found

theorem interface_type : Finds all (do
      keyword "interface"
      let some brace ← next? | failure
      mark "\x7b"
      let elements ←
        siblingList depth (Go.interfaceElement depth) "\x7d" (siblingsBefore brace [])
      return TypeExpr.interface (elements.filterMap id)) (SitedType all) := by
  intro tokens result rest within read
  obtain ⟨prior, whole⟩ := within
  rw [bind_eq_some] at read
  obtain ⟨nothing, middle, taken, read⟩ := read
  obtain ⟨keyword, rfl, interface⟩ := keyword_eq_some.1 taken
  rw [next_bind] at read
  cases middle with
  | nil => cases read
  | cons brace others =>
      change (mark _ >>= _) _ = _ at read
      rw [bind_eq_some] at read
      obtain ⟨nothing, middle, taken, read⟩ := read
      obtain ⟨opening, same, opens⟩ := mark_eq_some.1 taken
      obtain ⟨rfl, rfl⟩ := List.cons.inj same
      rw [bind_eq_some] at read
      obtain ⟨elements, middle, found, read⟩ := read
      obtain ⟨rfl, rfl⟩ := Prod.mk.inj (Option.some.inj read)
      obtain ⟨left, sited⟩ := finds.elements (.elements prior interface opens)
        (by simp [← whole]) found
      refine ⟨left.trans ⟨[keyword, brace], rfl⟩, .interface fun element member => ?_⟩
      obtain ⟨each, listed, present⟩ := List.mem_filterMap.1 member
      exact sited each listed element present

theorem type_expr_succ : Finds all (Go.typeExpr (depth + 1)) (SitedType all) := by
  rw [Go.typeExpr]
  refine .later .next fun next => ?_
  split
  · split
    · exact finds_type_name depth
    · refine .later (.mark _) fun _ => .later .next fun next => ?_
      exact finds.typeExpr.bind fun target sited => .pure (sited.after_mark next).pointer
    · refine .later (.mark _) fun _ => .later .next fun next => ?_
      refine finds.typeExpr.bind fun inner sited => .later (.mark _) fun _ => ?_
      exact .pure (sited.after_mark next)
    · have sized : Finds all (do
          mark "]"
          return TypeExpr.array (← Go.typeExpr depth)) (SitedType all) :=
        .later (.mark _) fun _ => finds.typeExpr.bind fun element sited => .pure sited.array
      refine .later (.mark _) fun _ => .later (.skip _) fun closed => .ite ?_ ?_
      · exact finds.typeExpr.bind fun element sited => .pure sited.slice
      · refine .later (.skip _) fun anyLength => .ite sized ?_
        exact .later (.anything ((nests depth).expr true [])) fun _ => sized
    · refine .later (.keyword _) fun _ => .later (.mark _) fun _ => ?_
      refine (Finds.sibling_list (fun _ _ => finds.fieldDecl) depth _ _).bind fun lists sited => ?_
      refine .pure (.struct fun field member => ?_)
      obtain ⟨list, listed, within⟩ := List.mem_flatten.1 member
      exact sited list listed field within
    · exact finds.interface_type
    · refine .later (.keyword _) fun _ => .later (.mark _) fun _ => ?_
      refine finds.typeExpr.bind fun key keys => .later (.mark _) fun _ => ?_
      exact finds.typeExpr.bind fun value values => .pure (.map keys values)
    · refine .later (.anything ((nests depth).uninterpretedType []).with_tokens) fun pair => ?_
      exact .pure (.other _)
  · exact .failure

theorem signature_succ : Finds all (Go.signature (depth + 1)) fun params =>
    ∀ param ∈ params, SitedType all param.type := by
  rw [Go.signature]
  refine finds.paramList.bind fun params sited => .later (.sees _) fun listed => .ite ?_ ?_
  · exact .later (.anything ((nests depth).paramList.discard [])) fun _ => .pure sited
  · refine .later (.sees _) fun typed => .ite ?_ (.pure sited)
    exact .later (.anything ((nests depth).typeExpr.discard [])) fun _ => .pure sited

theorem param_list_succ : Finds all (Go.paramList (depth + 1)) fun params =>
    ∀ param ∈ params, SitedType all param.type := by
  rw [Go.paramList]
  refine .later (.mark _) fun _ => ?_
  refine (Finds.comma_list finds.paramItem depth _).bind fun items sited => ?_
  cases read : ParamItem.params? items with
  | none => exact .failure
  | some params => exact .pure (sited_type_params sited read)

theorem param_item_succ :
    Finds all (Go.paramItem (depth + 1)) fun item => SitedType all item.type := by
  rw [Go.paramItem]
  have ended (item : ParamItem) (sited : SitedType all item.type) : Finds all (do
      failUnless (← sees fun token => isMark "," token || isMark ")" token)
      return item) fun item => SitedType all item.type :=
    .later (.sees _) fun _ => .later (.fail_unless _) fun _ => .pure sited
  refine .either ?_ ?_
  · refine .later (.anything (Keeps.name [])) fun first => .later (.skip _) fun several => ?_
    exact .ite (finds.typeExpr.bind fun type sited => ended _ sited)
      (finds.typeExpr.bind fun type sited => ended _ sited)
  · refine .later (.skip _) fun several => ?_
    exact .ite (finds.typeExpr.bind fun type sited => ended _ sited)
      (finds.typeExpr.bind fun type sited => ended _ sited)

theorem field_decl_succ : Finds all (Go.fieldDecl (depth + 1)) fun fields =>
    ∀ field ∈ fields, SitedType all field.type := by
  rw [Go.fieldDecl]
  have tagged : Finds all (do
      if ← sees (·.kind == .text) then
        let token ← take (·.kind == .text)
        return some (String.ofList (unquoteTag token.text.toList))
      else return none) fun _ => True := by
    refine .later (.sees _) fun _ => .ite ?_ (.pure trivial)
    exact .later (.anything (Keeps.take plain_is_text [])) fun _ => .pure trivial
  have ended (fields : List Field) (sited : ∀ field ∈ fields, SitedType all field.type) :
      Finds all (do
        failUnless (← sees fun token => isTerminator token || isMark "\x7d" token)
        return fields) fun fields => ∀ field ∈ fields, SitedType all field.type :=
    .later (.sees _) fun _ => .later (.fail_unless _) fun _ => .pure sited
  refine .either ?_ ?_
  · refine .later (.anything (Keeps.comma_list1 .name depth [])) fun names => ?_
    refine finds.typeExpr.bind fun type sited => .later tagged fun tag => ended _ ?_
    intro field member
    obtain ⟨_, -, rfl⟩ := List.mem_map.1 member
    exact sited
  · refine .later (.skip _) fun isPointer => ?_
    refine (finds_type_name depth).bind fun type sited => .later tagged fun tag => ended _ ?_
    refine List.forall_mem_singleton.2 ?_
    dsimp only
    split
    · exact sited.pointer
    · exact sited

theorem constraint_succ : Finds all (Go.constraint (depth + 1)) fun element =>
    ∀ each ∈ element, SitedElement all each := by
  rw [Go.constraint]
  refine .later (.sees _) fun named => .later (.skip _) fun _ => ?_
  refine finds.typeExpr.bind fun first sited => .later (.skip _) fun more => .ite ?_ ?_
  · exact .later (.anything ((nests depth).constraint [])) fun _ => .pure (by simp)
  · have embedded : ∀ each ∈ if named then some (ElementOf.embedded first) else none,
        SitedElement all each := by
      intro each member
      split at member
      · obtain rfl := Option.some.inj member
        exact sited
      · cases member
    split
    · exact .pure embedded
    · exact .pure embedded
    · exact .pure (by simp)

theorem interface_element_succ (prior : List Token) (before : List Sibling) (token : Token)
    (others : List Token) (result : Option Element) (rest : List Token)
    (reached : SiblingsAt .elements prior before) (whole : all = prior ++ token :: others)
    (read : Go.interfaceElement (depth + 1) (siblingsBefore token before) token.row
      (token :: others) = some (result, rest)) : ∀ each ∈ result, SitedElement all each := by
  rw [Go.interfaceElement] at read
  rcases either_eq_some read with read | read
  · rw [bind_eq_some] at read
    obtain ⟨text, middle, taken, read⟩ := read
    obtain ⟨name, same, named, rfl⟩ := name_eq_some.1 taken
    obtain ⟨rfl, rfl⟩ := List.cons.inj same
    obtain ⟨⟨opening, next, opens⟩, read⟩ := fail_unless_sees_bind read
    obtain ⟨tail, rfl⟩ := List.head?_eq_some_iff.1 next
    rw [bind_eq_some] at read
    obtain ⟨params, middle, found, read⟩ := read
    obtain ⟨rfl, rfl⟩ := Prod.mk.inj (Option.some.inj read)
    rintro each ⟨⟩
    refine ⟨⟨token.site before, .method reached named opens whole, rfl⟩, ?_⟩
    exact (finds.signature _ _ _ ⟨prior ++ [token], by simp [whole]⟩ found).2
  · exact (finds.constraint _ _ _ ⟨prior, whole.symm⟩ read).2

end FindsTypes

theorem finds_types (depth : Nat) : FindsTypes all depth := by
  induction depth with
  | zero => exact finds_types_zero
  | succ depth ih =>
      exact {
        typeExpr := ih.type_expr_succ
        signature := ih.signature_succ
        paramList := ih.param_list_succ
        paramItem := ih.param_item_succ
        fieldDecl := ih.field_decl_succ
        constraint := ih.constraint_succ
        interfaceElement := ih.interface_element_succ }

end EndpointAtlas.Go
