import Mathlib.Data.List.Forall2
import EndpointAtlas.Proofs.Params.Passes
import EndpointAtlas.Proofs.Registration.Lookups

/-!
Where the values of the parameters of an endpoint come from. The type of a parameter gives a first
source, which a placeholder of the path overrides for the first parameter of its name, and the last
well-formed note on that name overrides both.
-/

namespace EndpointAtlas

open Go

def Go.FuncDecl.namedParams (func : FuncDecl) : List (String × TypeExpr) :=
  func.params.filterMap fun param => param.name.map fun name => (name, param.type)

def Go.Shape.source : Shape → ParamSource
  | .record => .body
  | .contract => .responder
  | .other => .query

/-- The source that a type gives to a parameter, by the declaration that a resolver holds of it. -/
inductive TypeGives (contextType : Ident) (resolver : Resolver) (ident : Ident) :
    ParamSource → Prop where
  | context : ident = contextType → TypeGives contextType resolver ident .context
  | predeclared : ident ≠ contextType → ident.isPredeclared = true →
      TypeGives contextType resolver ident .query
  | declared {declaration : Declaration} : ident ≠ contextType → ident.isPredeclared = false →
      resolver.outcome? ident = some (.found declaration) →
        TypeGives contextType resolver ident declaration.shape.source

/-- A parameter as its type alone makes it. -/
def TypedAs (contextType : Ident) (context : Context) (resolver : Resolver)
    (named : String × TypeExpr) (param : Parameter) : Prop :=
  ∃ ident source, context.identify named.2 = .ok ident ∧
    TypeGives contextType resolver ident source ∧ param = ⟨source, ident.display, named.1, none⟩

/-- The source of the first parameter of a name: that of the last well-formed note on the name, or
the path, or what its type gives. -/
def settledSource (pattern : String) (annotations : Annotations) (name : String)
    (source : ParamSource) : ParamSource :=
  match (annotations.sourceNotes name).getLast? with
  | some note => note.source
  | none => if isPlaced pattern name then .path else source

/-- The parameters of an endpoint: one for each named parameter of its function, in order and of the
same type. The first one of a name has the source that notes, path and type settle; a later one
keeps what its type gives. -/
structure Classified (contextType : Ident) (context : Context) (func : FuncDecl) (pattern : String)
    (annotations : Annotations) (resolver : Resolver) (params : List Parameter) : Prop where
  length : params.length = func.namedParams.length
  each : ∀ index name type, func.namedParams[index]? = some (name, type) →
    ∃ param ident source, params[index]? = some param ∧ param.name = name ∧
      context.identify type = .ok ident ∧ param.type = ident.display ∧
      TypeGives contextType resolver ident source ∧
      if name ∈ (func.namedParams.take index).map Prod.fst then
        param.source = source ∧ param.metadata = none
      else
        param.source = settledSource pattern annotations name source ∧
          param.metadata = lastMetadata? (annotations.sourceNotes name)

theorem TypeGives.mono {contextType ident : Ident} {before after : Resolver} {source : ParamSource}
    (gives : TypeGives contextType before ident source)
    (kept : Resolver.KeepsOutcomes before after) : TypeGives contextType after ident source := by
  cases gives with
  | context same => exact .context same
  | predeclared other predeclared => exact .predeclared other predeclared
  | declared other named outcome => exact .declared other named (kept _ _ outcome)

theorem TypedAs.mono {contextType : Ident} {context : Context} {before after : Resolver}
    {named : String × TypeExpr} {param : Parameter}
    (typed : TypedAs contextType context before named param)
    (kept : Resolver.KeepsOutcomes before after) :
    TypedAs contextType context after named param := by
  obtain ⟨ident, source, identified, gives, same⟩ := typed
  exact ⟨ident, source, identified, gives.mono kept, same⟩

theorem exists_of_forall₂ {α β : Type} {related : α → β → Prop} {items : List α} {others : List β}
    (all : List.Forall₂ related items others) {index : Nat} {item : α}
    (held : items[index]? = some item) : ∃ other, others[index]? = some other ∧
      related item other := by
  induction all generalizing index with
  | nil => cases held
  | cons first _ ih =>
      cases index with
      | zero =>
          obtain rfl := Option.some.inj held
          exact ⟨_, rfl, first⟩
      | succ index => exact ih held

theorem map_name_of_typed {contextType : Ident} {context : Context} {resolver : Resolver}
    {named : List (String × TypeExpr)} {params : List Parameter}
    (typed : List.Forall₂ (TypedAs contextType context resolver) named params) :
    params.map (·.name) = named.map Prod.fst := by
  induction typed with
  | nil => rfl
  | cons first _ ih =>
      obtain ⟨ident, source, -, -, rfl⟩ := first
      rw [List.map_cons, List.map_cons, ih]

theorem metadata_of_typed {contextType : Ident} {context : Context} {resolver : Resolver}
    {named : List (String × TypeExpr)} {params : List Parameter}
    (typed : List.Forall₂ (TypedAs contextType context resolver) named params) :
    ∀ param ∈ params, param.metadata = none := by
  induction typed with
  | nil => simp
  | cons first _ ih =>
      obtain ⟨ident, source, -, -, rfl⟩ := first
      exact List.forall_mem_cons.2 ⟨rfl, ih⟩

namespace Assembly

variable {scope : Scope} {state : Assembly}

theorem lookup_continues (ident : Ident) :
    Yields (resolving (Resolver.lookup scope.project ident)) state
      (fun lookup after => Resolver.Continues scope.project state.resolver after.resolver ∧
        (ident.isPredeclared = false → after.resolver.outcome? ident = some lookup))
      fun _ _ => True := by
  have looked := Resolver.lookup_continues scope.project ident state.resolver
  apply (resolving_yields looked).mono
  · exact fun _ _ looked => looked.2
  · exact fun _ _ _ => trivial

theorem require_declaration_continues {ident : Ident} (named : ident.isPredeclared = false) :
    Yields (requireDeclaration scope.project ident) state
      (fun declaration after => Resolver.Continues scope.project state.resolver after.resolver ∧
        after.resolver.outcome? ident = some (.found declaration))
      fun _ _ => True := by
  apply require_declaration_yields (lookup_continues ident)
  case found => exact fun _ _ kept => ⟨kept.1, kept.2 named⟩
  all_goals intros; trivial

/-- The source that is found for a type is the one that it gives, in every state. -/
theorem source_of_type_gives (ident : Ident) : Yields (sourceOfType scope ident) state
    (fun source after => Resolver.Continues scope.project state.resolver after.resolver ∧
      TypeGives scope.contextType after.resolver ident source)
    fun _ _ => True := by
  have persists := Resolver.persists_continues scope.project
  have same := persists.refl state.resolver
  unfold sourceOfType
  by_cases isContext : ident = scope.contextType
  · rw [if_pos isContext]
    exact Yields.pure ⟨same, .context isContext⟩
  rw [if_neg isContext]
  by_cases predeclared : ident.isPredeclared = true
  · rw [if_pos predeclared]
    exact Yields.pure ⟨same, .predeclared isContext predeclared⟩
  rw [if_neg predeclared]
  have named : ident.isPredeclared = false := by simpa using predeclared
  apply (require_declaration_continues named).bind
  intro declaration between kept
  obtain ⟨kept, outcome⟩ := kept
  have gives := fun {after : Assembly}
      (further : Resolver.Continues scope.project between.resolver after.resolver) =>
    TypeGives.declared isContext named (further.kept ident _ outcome)
  cases shape : declaration.shape with
  | record =>
      rw [shape] at gives
      apply Yields.bind (register_type_follows persists scope.typeBound declaration between)
      intro _ after further
      exact Yields.pure ⟨persists.trans kept further, gives further⟩
  | contract =>
      rw [shape] at gives
      apply Yields.bind (register_responder_follows persists declaration between)
      intro _ after further
      exact Yields.pure ⟨persists.trans kept further, gives further⟩
  | other =>
      rw [shape] at gives
      exact Yields.pure ⟨kept, gives (persists.refl between.resolver)⟩

theorem typed_param_typed (context : Context) (func : String) (param : Param) :
    Yields (typedParam scope context func param) state
      (fun value after => Resolver.Continues scope.project state.resolver after.resolver ∧
        List.Forall₂ (TypedAs scope.contextType context after.resolver)
          (param.name.map fun name => (name, param.type)).toList value.toList)
      fun _ _ => True := by
  have same := (Resolver.persists_continues scope.project).refl state.resolver
  unfold typedParam
  cases param.name with
  | none =>
      apply Yields.bind_modify
      exact Yields.pure ⟨same, .nil⟩
  | some name =>
      dsimp only
      cases identified : context.identify param.type with
      | error failure => exact Yields.throw trivial
      | ok ident =>
          apply Yields.bind_pure
          apply (source_of_type_gives ident).bind
          intro source after kept
          have typed : TypedAs scope.contextType context after.resolver (name, param.type)
              ⟨source, ident.display, name, none⟩ :=
            ⟨ident, source, identified, kept.2, rfl⟩
          exact Yields.pure ⟨kept.1, .cons typed .nil⟩

/-- The types of the named parameters make one parameter each. -/
theorem typed_params_typed (context : Context) (func : String) (params : List Param) :
    Yields (params.filterMapM (typedParam scope context func)) state
      (fun typed after => Resolver.Continues scope.project state.resolver after.resolver ∧
        List.Forall₂ (TypedAs scope.contextType context after.resolver)
          (params.filterMap fun param => param.name.map fun name => (name, param.type)) typed)
      fun _ _ => True := by
  have persists := Resolver.persists_continues scope.project
  induction params generalizing state with
  | nil => exact Yields.pure ⟨persists.refl state.resolver, .nil⟩
  | cons param rest ih =>
      rw [List.filterMapM_cons]
      apply (typed_param_typed context func param).bind
      intro value between own
      obtain ⟨kept, typed⟩ := own
      cases value with
      | none =>
          apply ih.mono
          · intro others after later
            refine ⟨persists.trans kept later.1, ?_⟩
            cases named : param.name with
            | none => simpa [named] using later.2
            | some name =>
                rw [named] at typed
                cases typed
          · exact fun _ _ failed => failed
      | some value =>
          apply ih.bind
          intro others after later
          apply Yields.pure
          refine ⟨persists.trans kept later.1, ?_⟩
          cases named : param.name with
          | none =>
              rw [named] at typed
              cases typed
          | some name =>
              rw [named] at typed
              have first := (List.forall₂_cons.1 typed).1.mono later.1.kept
              simpa [named] using List.Forall₂.cons first later.2

def settleParams (pattern : String) (notes : List SourceNote) (params : List Parameter) :
    List Parameter :=
  changeFirsts (fun param => (param.placed pattern).told notes) [] params

theorem source_settled {pattern name : String} {annotations : Annotations} {param : Parameter}
    (named : param.name = name) :
    ((param.placed pattern).told
      ((annotations.get "@Param").filterMap SourceNote.ofArgument?)).source =
        settledSource pattern annotations name param.source := by
  subst named
  rw [Parameter.source_told, Parameter.name_placed]
  unfold settledSource Annotations.sourceNotes
  cases (List.filter _ _).getLast? with
  | some note => rfl
  | none =>
      simp only [Option.map_none, Option.getD_none, Parameter.placed]
      split <;> rfl

theorem metadata_settled {pattern name : String} {annotations : Annotations} {param : Parameter}
    (named : param.name = name) (unset : param.metadata = none) :
    ((param.placed pattern).told
      ((annotations.get "@Param").filterMap SourceNote.ofArgument?)).metadata =
        lastMetadata? (annotations.sourceNotes name) := by
  subst named
  rw [Parameter.metadata_told, Parameter.name_placed]
  rw [Parameter.metadata_placed, unset, Option.or_none]
  rfl

/-- Parameters that their types have made are classified once path and notes have passed. -/
theorem classified_settle_params {contextType : Ident} {context : Context} {func : FuncDecl}
    {resolver : Resolver} {typed : List Parameter} (pattern : String) (annotations : Annotations)
    (made : List.Forall₂ (TypedAs contextType context resolver) func.namedParams typed) :
    Classified contextType context func pattern annotations resolver
      (settleParams pattern ((annotations.get "@Param").filterMap SourceNote.ofArgument?)
        typed) := by
  have keeps : ∀ param : Parameter, ((param.placed pattern).told
      ((annotations.get "@Param").filterMap SourceNote.ofArgument?)).name = param.name := by
    intro param
    rw [Parameter.name_told, Parameter.name_placed]
  constructor
  case length =>
    have names := congrArg List.length (map_name_change_firsts keeps [] typed)
    rw [List.length_map, List.length_map] at names
    exact names.trans made.length_eq.symm
  case each =>
    intro index name type held
    obtain ⟨param, found, ident, source, identified, gives, rfl⟩ := exists_of_forall₂ made held
    have earlier : (typed.take index).map (·.name) =
        (func.namedParams.take index).map Prod.fst := by
      rw [List.map_take, List.map_take, map_name_of_typed made]
    have settled := @get_elem_change_firsts (fun param => (param.placed pattern).told
      ((annotations.get "@Param").filterMap SourceNote.ofArgument?)) [] typed index
    rw [found, earlier, Option.map_some] at settled
    refine ⟨_, ident, source, settled, ?_, identified, ?_, gives, ?_⟩
    · split
      · rfl
      · rw [keeps]
    · split
      · rfl
      · rw [Parameter.type_told]
        unfold Parameter.placed
        split <;> rfl
    · simp only [List.not_mem_nil, false_or]
      split
      · exact ⟨rfl, rfl⟩
      · exact ⟨source_settled rfl, metadata_settled rfl rfl⟩

section Runs

variable {context : Context} {func : FuncDecl} {pattern : String} {annotations : Annotations}

/-- Once all named parameters have their types, path and notes settle them; they fail for the first
note that names none of them. -/
theorem classify_params_yields {typed : List Parameter} {between : Assembly}
    (made : func.params.filterMapM (typedParam scope context func.name) state =
      .ok typed between) :
    Yields (classifyParams scope context func pattern annotations) state
      (fun params after =>
        params = settleParams pattern ((annotations.get "@Param").filterMap SourceNote.ofArgument?)
          typed ∧
          after = between.withWarnings
            ((annotations.get "@Param").filterMap (noteWarning? func.name)) ∧
          ∀ note ∈ annotations.paramNotes, note.name ∈ func.namedParams.map Prod.fst)
      (fun failure _ => ∃ note,
        annotations.paramNotes.find? (fun note => note.name ∉ func.namedParams.map Prod.fst) =
          some note ∧ failure = .unknownParam func.name note.name) := by
  have named := map_name_of_typed ((typed_params_typed context func.name func.params).of_ok made).2
  have marked : (markPathParams pattern typed).map (·.name) =
      func.namedParams.map Prod.fst := by
    rw [mark_path_params_eq, map_name_change_firsts (Parameter.name_placed pattern), named]
    rfl
  apply Yields.bind_of_ok made
  apply (foldl_m_annotate_params_yields func.name _ _ between).mono
  · intro params after kept
    obtain ⟨passed, warned, known⟩ := kept
    rw [marked] at known
    rw [mark_path_params_eq, change_firsts_change_firsts (Parameter.name_placed pattern)] at passed
    exact ⟨passed, warned, known⟩
  · intro failure after failed
    rw [marked] at failed
    exact failed

theorem exists_typed_of_classify_params {params : List Parameter} {after : Assembly}
    (ran : classifyParams scope context func pattern annotations state = .ok params after) :
    ∃ typed between,
      func.params.filterMapM (typedParam scope context func.name) state = .ok typed between := by
  cases made : func.params.filterMapM (typedParam scope context func.name) state with
  | ok typed between => exact ⟨typed, between, rfl⟩
  | error failure between =>
      unfold classifyParams at ran
      simp only [bind, EStateM.bind, made] at ran
      cases ran

theorem classified_of_ok {params : List Parameter} {after : Assembly}
    (ran : classifyParams scope context func pattern annotations state = .ok params after) :
    Classified scope.contextType context func pattern annotations after.resolver params ∧
      Resolver.Continues scope.project state.resolver after.resolver := by
  obtain ⟨typed, between, made⟩ := exists_typed_of_classify_params ran
  obtain ⟨continues, all⟩ := (typed_params_typed context func.name func.params).of_ok made
  obtain ⟨rfl, rfl, -⟩ := (classify_params_yields made).of_ok ran
  exact ⟨classified_settle_params pattern annotations all, continues⟩

end Runs

/-- In every state, the parameters of an endpoint are classified where the classification ends, by
declarations that are those of the project if the resolver holds no others; and where the types of
all named parameters can be classified, it fails exactly for a note that names none of them. -/
theorem classify_params_classified (scope : Scope) (context : Context) (func : FuncDecl)
    (pattern : String) (annotations : Annotations) (state : Assembly) :
    (∀ params after, classifyParams scope context func pattern annotations state =
      .ok params after →
        Classified scope.contextType context func pattern annotations after.resolver params ∧
          (Resolver.Remembers scope.project state.resolver →
            Resolver.Remembers scope.project after.resolver)) ∧
      ∀ typed between, func.params.filterMapM (typedParam scope context func.name) state =
        .ok typed between → ∀ failure,
          (∃ after, classifyParams scope context func pattern annotations state =
            .error failure after) ↔
          ∃ note, annotations.paramNotes.find?
            (fun note => note.name ∉ func.namedParams.map Prod.fst) = some note ∧
              failure = .unknownParam func.name note.name := by
  constructor
  · intro params after ran
    obtain ⟨classified, continues⟩ := classified_of_ok ran
    exact ⟨classified, continues.remembers⟩
  · intro typed between made failure
    have yields := @classify_params_yields scope state context func pattern annotations typed
      between made
    constructor
    · intro failed
      obtain ⟨after, ran⟩ := failed
      exact yields.of_error ran
    · intro stray
      obtain ⟨note, found, rfl⟩ := stray
      cases ran : classifyParams scope context func pattern annotations state with
      | ok params after =>
          have known := (yields.of_ok ran).2.2 note (List.mem_of_find?_eq_some found)
          have unknown := List.find?_some found
          simp [known] at unknown
      | error other after =>
          obtain ⟨first, foundFirst, rfl⟩ := yields.of_error ran
          rw [found] at foundFirst
          rw [Option.some.inj foundFirst]
          exact ⟨after, rfl⟩

def handlerScope : Scope :=
  ⟨⟨⟨[(["a.go"], .file (Text.Glyph.ofString ("package m\ntype A struct \x7b\x7d\n" ++
    "type R interface \x7b Done() \x7d\n")) false)], by decide⟩, ⟨"/"⟩, "m", false⟩,
    ⟨"context", "Context"⟩, 9⟩

def handlerContext : Context := ⟨"m", Table.empty.insert "context" "context"⟩

def handler : FuncDecl :=
  ⟨"Get", none, none, [⟨some "c", .qualified "context" "Context"⟩, ⟨some "a", .ident "A"⟩,
    ⟨none, .ident "A"⟩, ⟨some "r", .ident "R"⟩, ⟨some "a", .ident "int"⟩,
    ⟨some "id", .ident "string"⟩]⟩

def handlerNotes : Annotations :=
  .ofDoc (some
    ["// @Param r Header X-R", "// @Param id Nowhere", "// @Param id", "// @Param r Query"])

def strayNotes : Annotations := .ofDoc (some ["// @Param a Body", "// @Param b Nowhere"])

/-- The note on the contract overrides its type, the path the record, and a note that names no
parameter fails whatever its source. -/
theorem classified_handler :
    (∃ params after,
      classifyParams handlerScope handlerContext handler "/x/{a}" handlerNotes .initial =
        .ok params after ∧
      params.map (·.source) = [.context, .path, .query, .query, .query] ∧
      Classified handlerScope.contextType handlerContext handler "/x/{a}" handlerNotes
        after.resolver params) ∧
      ∃ after, classifyParams handlerScope handlerContext handler "/x/{a}" strayNotes .initial =
        .error (.unknownParam "Get" "b") after := by
  have sources : ((classifyParams handlerScope handlerContext handler "/x/{a}"
      handlerNotes).run' .initial).map (·.map (·.source)) =
        some [.context, .path, .query, .query, .query] := by decide +kernel
  have typed : ((handler.params.filterMapM (typedParam handlerScope handlerContext
      handler.name)).run' .initial).map (·.map (·.source)) =
        some [.context, .body, .responder, .query, .query] := by decide +kernel
  obtain ⟨params, after, ran, shown⟩ := exists_ok_of_run' sources
  obtain ⟨made, between, ranTyped, -⟩ := exists_ok_of_run' typed
  have classified := classify_params_classified handlerScope handlerContext handler "/x/{a}"
  constructor
  · exact ⟨params, after, ran, shown, ((classified handlerNotes .initial).1 params after ran).1⟩
  · apply ((classified strayNotes .initial).2 made between ranTyped _).2
    exact ⟨⟨"b", "Nowhere", none⟩, by decide +kernel, rfl⟩

end Assembly

end EndpointAtlas
