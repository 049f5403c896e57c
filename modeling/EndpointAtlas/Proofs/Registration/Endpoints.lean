import EndpointAtlas.Assembly.Endpoints
import EndpointAtlas.Proofs.Registration.Responders

/-!
Adding controllers and endpoints. What a declaration adds to the table of controllers depends on
the project and the table alone; what it adds to types and responders is in the territory, and the
types of its parameters are registered when it ends.
-/

namespace EndpointAtlas

open Go

namespace Project

def source? (project : Project) (contextType ident : Ident) : Option ParamSource :=
  if ident = contextType then some .context
  else if ident.isPredeclared then some .query
  else
    match project.outcome? ident with
    | some (.found declaration) =>
        match declaration.shape with
        | .record => some .body
        | .contract => some .responder
        | .other => some .query
    | _ => none

def param? (project : Project) (contextType : Ident) (context : Context) (param : Param) :
    Option (Option Parameter) :=
  match param.name with
  | none => some none
  | some name =>
      match context.identify param.type with
      | .error _ => none
      | .ok ident =>
          (project.source? contextType ident).map fun source =>
            some ⟨source, ident.display, name, none⟩

def annotated? (params : List Parameter) (argument : String) : Option (List Parameter) :=
  match ParamNote.ofArgument? argument with
  | none => some params
  | some note =>
      if params.any (·.name = note.name) then
        match ParamSource.ofName? note.source with
        | none => some params
        | some source => some (changeParam note.name (·.noted source note.metadata) params)
      else none

def params? (project : Project) (contextType : Ident) (context : Context) (func : FuncDecl)
    (pattern : String) (annotations : Annotations) : Option (List Parameter) :=
  (func.params.filterMapM (project.param? contextType context)).bind fun params =>
    (annotations.get "@Param").foldlM annotated? (markPathParams pattern params)

def route? (argument : String) : Option (String × String) :=
  match (Text.words argument.toList).map String.ofList with
  | method :: path :: _ => some (method, path)
  | _ => none

def resource? (project : Project) (contextType : Ident) (file : ScannedFile) (func : FuncDecl)
    (argument : String) : Option Resource :=
  let annotations := Annotations.ofDoc func.doc
  (route? argument).bind fun (method, path) =>
    (project.params? contextType file.context func path annotations).map fun params =>
      ⟨file.packagePath, file.fileName, func.name, method, path, params,
        annotations.nonemptyFirst? "@Summary", detailsOf annotations, tagsOf annotations⟩

end Project

def owns (controllers : Table Controller) (file : ScannedFile) (name : String) : Bool :=
  (controllers.get? name).any (·.package = file.packagePath)

def withResource (controllers : Table Controller) (owner name : String) (resource : Resource) :
    Table Controller :=
  controllers.modify owner fun controller =>
    { controller with resources := controller.resources.insert name resource }

def isController (spec : TypeSpec) : Bool :=
  spec.type.shape = .record && (Annotations.ofDoc spec.doc).contains "@Controller"

def controllerOf (file : ScannedFile) (spec : TypeSpec) : Controller :=
  ⟨file.packagePath, file.path, spec.name, "",
    ((Annotations.ofDoc spec.doc).first? "@Controller").getD "", .empty⟩

/-- The controllers after a type declaration; none if its name is taken. -/
def withController (controllers : Table Controller) (declared : ScannedFile × TypeSpec) :
    Option (Table Controller) :=
  let (file, spec) := declared
  if isController spec then
    if controllers.contains spec.name then none
    else some (controllers.insert spec.name (controllerOf file spec))
  else some controllers

/-- The controllers after a function; none if it is at fault or has no owner. -/
def withEndpoint (project : Project) (contextType : Ident) (controllers : Table Controller)
    (declared : ScannedFile × FuncDecl) : Option (Table Controller) :=
  let (file, func) := declared
  match (Annotations.ofDoc func.doc).get "@Resource" with
  | [] => some controllers
  | argument :: _ =>
      if owns controllers file (receiverName func) then
        (project.resource? contextType file func argument).map fun resource =>
          withResource controllers (receiverName func) func.name resource
      else none

def declaredTypes (files : List ScannedFile) : List (ScannedFile × TypeSpec) :=
  files.flatMap fun file => file.source.types.map (file, ·)

def declaredFuncs (files : List ScannedFile) : List (ScannedFile × FuncDecl) :=
  files.flatMap fun file => file.source.funcs.map (file, ·)

/-- The controllers of some files with their endpoints; none if one of them is at fault. -/
def controllers? (project : Project) (contextType : Ident) (files : List ScannedFile) :
    Option (Table Controller) :=
  ((declaredTypes files).foldlM withController .empty).bind fun controllers =>
    (declaredFuncs files).foldlM (withEndpoint project contextType) controllers

/-- Whether a parameter of an endpoint names a declaration, which is not that of a context. -/
def Handles (project : Project) (contextType : Ident) (context : Context) (param : Param)
    (target : Declaration) : Prop :=
  param.name.isSome = true ∧ target.ident ≠ contextType ∧ project.Names context param.type target

theorem handles_iff {project : Project} {contextType ident : Ident} {context : Context}
    {param : Param} (named : param.name.isSome = true)
    (identified : context.identify param.type = .ok ident) {target : Declaration} :
    Handles project contextType context param target ↔
      ident ≠ contextType ∧ project.outcome? ident = some (.found target) := by
  rw [Handles, Project.names_iff identified]
  constructor
  · rintro ⟨-, other, outcome⟩
    obtain rfl := Project.ident_of_found outcome
    exact ⟨other, outcome⟩
  · rintro ⟨other, outcome⟩
    obtain rfl := Project.ident_of_found outcome
    exact ⟨named, other, outcome⟩

def isEndpoint (func : FuncDecl) : Bool :=
  !((Annotations.ofDoc func.doc).get "@Resource").isEmpty

namespace Assembly

variable {project : Project} {territory : Territory project} {contextType : Ident}

def HandledSeen (project : Project) (contextType : Ident) (context : Context) (param : Param)
    (state : Assembly) : Prop :=
  ∀ target, Handles project contextType context param target →
    (target.shape = .record → state.Registered target) ∧
      (target.shape = .contract → state.Responds target)

theorem HandledSeen.mono {context : Context} {param : Param} {before after : Assembly}
    (seen : HandledSeen project contextType context param before) (retains : Retains before after) :
    HandledSeen project contextType context param after :=
  fun target handles => ⟨fun isRecord => retains.registered ((seen target handles).1 isRecord),
    fun isContract => retains.responds ((seen target handles).2 isContract)⟩

def HandledInside (territory : Territory project) (contextType : Ident) (context : Context)
    (param : Param) : Prop :=
  ∀ target, Handles project contextType context param target →
    (target.shape = .record → territory.types target) ∧
      (target.shape = .contract → territory.responders target)

/-- Why a step on an endpoint may fail: for what the territory holds, or for a reason of its own. -/
def Faulty (territory : Territory project) (own : Prop) : Prop :=
  (¬ territory.HasSchemas ∨ ¬ territory.HasResponses) ∨ own

section Params

variable (context : Context) {state : Assembly}

/-- A parameter that names one declaration is seen once that one is registered as its shape asks. -/
theorem HandledSeen.of_found {param : Param} {ident : Ident} {declaration : Declaration}
    (named : param.name.isSome = true) (identified : context.identify param.type = .ok ident)
    (outcome : project.outcome? ident = some (.found declaration))
    (isRecord : declaration.shape = .record → state.Registered declaration)
    (isContract : declaration.shape = .contract → state.Responds declaration) :
    HandledSeen project contextType context param state := by
  intro target handles
  have found := ((handles_iff named identified).1 handles).2
  obtain rfl : declaration = target :=
    Lookup.found.inj (Option.some.inj (outcome.symm.trans found))
  exact ⟨isRecord, isContract⟩

theorem source_of_type_advances (consistent : Consistent territory state)
    (atRest : state.inProgress = []) {param : Param} {ident : Ident}
    (named : param.name.isSome = true) (identified : context.identify param.type = .ok ident)
    (inside : HandledInside territory contextType context param) :
    Advances territory (sourceOfType (territory.scope contextType) ident) state
      (fun source after => project.source? contextType ident = some source ∧
        HandledSeen project contextType context param after)
      (Faulty territory (project.source? contextType ident = none)) := by
  unfold sourceOfType Project.source?
  by_cases isContext : ident = contextType
  · simp only [isContext, Territory.scope, if_true]
    refine Advances.pure consistent ⟨rfl, fun target handles => ?_⟩
    exact absurd isContext ((handles_iff named identified).1 handles).1
  by_cases predeclared : ident.isPredeclared = true
  · simp only [isContext, Territory.scope, predeclared, if_true, if_false]
    refine Advances.pure consistent ⟨rfl, fun target handles => ?_⟩
    have outcome := ((handles_iff named identified).1 handles).2
    rw [Project.outcome_of_is_predeclared predeclared] at outcome
    cases outcome
  simp only [isContext, predeclared, Bool.false_eq_true, Territory.scope, if_false]
  have required := require_declaration_advances consistent ident
  refine (required.failing ?_).bind
    fun declaration after consistentAfter extended outcome => ?_
  · intro absent
    refine .inr ?_
    split
    · rename_i found
      rw [finds_of_found found] at absent
      cases absent
    · rfl
  simp only [outcome]
  have handles : Handles project contextType context param declaration :=
    (handles_iff named identified).2 ⟨isContext, outcome⟩
  have atRestAfter : after.inProgress = [] := extended.inProgress.trans atRest
  cases shape : declaration.shape with
  | record =>
      have registered := register_type_advances territory.bound declaration after
        ((inside declaration handles).1 shape) consistentAfter
        (Nat.lt_of_lt_of_le territory.room (Nat.le_add_right _ _))
      refine (registered.failing fun unshown => .inl (.inl unshown)).bind
        fun _ last consistentLast extendedLast seen => ?_
      have atRestLast : last.inProgress = [] := extendedLast.inProgress.trans atRestAfter
      rw [Seen, atRestLast] at seen
      exact Advances.pure consistentLast ⟨rfl, .of_found context named identified outcome
        (fun _ => by simpa using seen) (by simp [shape])⟩
  | contract =>
      have registered := register_responder_advances contextType
        ((inside declaration handles).2 shape) consistentAfter atRestAfter
      apply (registered.failing .inl).bind
      intro _ last consistentLast _ responds
      exact Advances.pure consistentLast ⟨rfl, .of_found context named identified outcome
        (by simp [shape]) fun _ => responds⟩
  | other =>
      exact Advances.pure consistentAfter ⟨rfl, .of_found context named identified outcome
        (by simp [shape]) (by simp [shape])⟩

theorem typed_param_advances (func : String) (param : Param)
    (consistent : Consistent territory state) (atRest : state.inProgress = [])
    (inside : HandledInside territory contextType context param) :
    Advances territory (typedParam (territory.scope contextType) context func param) state
      (fun value after => project.param? contextType context param = some value ∧
        HandledSeen project contextType context param after)
      (Faulty territory (project.param? contextType context param = none)) := by
  unfold typedParam Project.param?
  cases called : param.name with
  | none =>
      apply (warn_advances consistent _).bind
      intro _ after consistentAfter _ _
      exact Advances.pure consistentAfter
        ⟨rfl, fun target handles => by simp [Handles, called] at handles⟩
  | some name =>
      dsimp only
      refine Advances.bind_of_except consistent (fun ident identified => ?_)
        fun failure failed => by
        rw [failed]
        exact .inr rfl
      have source := source_of_type_advances context consistent atRest (by simp [called]) identified
        inside
      rw [identified]
      refine (source.failing ?_).bind
        fun value after consistentAfter _ kept => ?_
      · exact fun failed => failed.imp id fun absent => by simp [absent]
      · exact Advances.pure consistentAfter ⟨by simp [kept.1], kept.2⟩

theorem annotate_params_advances (func : String) (params : List Parameter) (argument : String)
    (consistent : Consistent territory state) :
    Advances territory (annotateParams func params argument) state
      (fun value _ => Project.annotated? params argument = some value)
      (Project.annotated? params argument = none) := by
  unfold annotateParams Project.annotated?
  cases ParamNote.ofArgument? argument with
  | none =>
      apply (warn_advances consistent _).bind
      intro _ after consistentAfter _ _
      exact Advances.pure consistentAfter rfl
  | some note =>
      dsimp only
      by_cases known : params.any (·.name = note.name) = true
      · simp only [known, if_true]
        cases ParamSource.ofName? note.source with
        | none =>
            apply (warn_advances consistent _).bind
            intro _ after consistentAfter _ _
            exact Advances.pure consistentAfter rfl
        | some source => exact Advances.pure consistent rfl
      · simp only [known]
        exact Advances.throw consistent rfl

theorem classify_params_advances (func : FuncDecl) (pattern : String) (annotations : Annotations)
    (consistent : Consistent territory state) (atRest : state.inProgress = [])
    (inside : ∀ param ∈ func.params, HandledInside territory contextType context param) :
    Advances territory
      (classifyParams (territory.scope contextType) context func pattern annotations) state
      (fun params after =>
        project.params? contextType context func pattern annotations = some params ∧
          ∀ param ∈ func.params, HandledSeen project contextType context param after)
      (Faulty territory (project.params? contextType context func pattern annotations = none)) := by
  unfold classifyParams Project.params?
  have typed := Advances.filter_map_m func.params
    (HandledSeen project contextType context) consistent
    (fun _ _ _ extended seen => seen.mono extended.toRetains)
    fun param member between consistentBetween extended =>
      (typed_param_advances context func.name param consistentBetween
        (extended.inProgress.trans atRest) (inside param member)).failing fun failed =>
          failed.imp id fun absent => filter_map_m_eq_none member absent
  refine (typed.failing ?_).bind
    fun params between consistentBetween _ told => ?_
  · exact fun failed => failed.imp id fun absent => by simp [absent]
  · obtain ⟨shown, seen⟩ := told
    rw [shown, Option.bind_some]
    have annotated := Advances.foldl_m (annotations.get "@Param") Project.annotated?
      (markPathParams pattern params) consistentBetween
      fun argument _ total after consistentAfter =>
        annotate_params_advances func.name total argument consistentAfter
    exact annotated.mono (fun value after _ extended own =>
      ⟨own, fun param member => (seen param member).mono extended.toRetains⟩) .inr

end Params

/-- A step that ends with a consistent assembly whose controllers are those of a change, or fails
for what the territory holds or where the change does. -/
def Changes (territory : Territory project) (step : Assemble Unit) (state : Assembly)
    (changed : Option (Table Controller)) (told : Assembly → Prop) : Prop :=
  Yields step state
    (fun _ after => Consistent territory after ∧ Retains state after ∧
      changed = some after.document.controllers ∧ told after)
    (fun _ after => after.cutShort = false ∧ Faulty territory (changed = none))

theorem Advances.changes {α : Type} {step : Assemble α} {next : α → Assemble Unit}
    {state : Assembly} {fact : α → Assembly → Prop} {reason : Prop}
    {changed : Option (Table Controller)} {told : Assembly → Prop}
    (first : Advances territory step state fact reason)
    (failing : reason → Faulty territory (changed = none))
    (second : ∀ value between, Consistent territory between → Extends state between →
      fact value between → Changes territory (next value) between changed told) :
    Changes territory (step >>= next) state changed told := by
  refine Yields.bind (Yields.mono first (fun _ _ kept => kept)
    fun _ _ failed => ⟨failed.1, failing failed.2⟩) ?_
  rintro value between ⟨consistent, extended, holds⟩
  refine Yields.mono (second value between consistent extended holds) ?_ fun _ _ failed => failed
  rintro _ after ⟨consistentAfter, retains, equal, tells⟩
  exact ⟨consistentAfter, extended.toRetains.trans retains, equal, tells⟩

theorem for_m_changes {α : Type} (items : List α) (told : α → Assembly → Prop)
    {step : α → Assemble Unit} {change : Table Controller → α → Option (Table Controller)}
    {state : Assembly} (consistent : Consistent territory state)
    (stays : ∀ item before after, Retains before after → told item before → told item after)
    (round : ∀ item ∈ items, ∀ between, Consistent territory between → Retains state between →
      Changes territory (step item) between (change between.document.controllers item)
        (told item)) :
    Changes territory (items.forM step) state
      (items.foldlM change state.document.controllers)
      (fun after => ∀ item ∈ items, told item after) := by
  induction items generalizing state with
  | nil => exact Yields.pure ⟨consistent, .refl state, rfl, by simp⟩
  | cons item rest ih =>
      rw [List.forM_eq_forM, List.forM_cons, List.foldlM_cons]
      have first := round item List.mem_cons_self state consistent (.refl state)
      refine Yields.bind (first.mono (fun _ _ kept => kept) fun _ _ failed => ?_) ?_
      · exact ⟨failed.1, failed.2.imp id fun absent => by simp [absent]⟩
      rintro _ between ⟨consistentBetween, retains, changed, own⟩
      have later := ih consistentBetween fun other member after consistentAfter retainsAfter =>
        round other (List.mem_cons_of_mem _ member) after consistentAfter
          (retains.trans retainsAfter)
      rw [changed]
      refine later.mono ?_ fun _ _ failed => failed
      rintro _ after ⟨consistentAfter, retainsAfter, changedAfter, others⟩
      refine ⟨consistentAfter, retains.trans retainsAfter, changedAfter, fun other member => ?_⟩
      rcases List.mem_cons.1 member with rfl | further
      · exact stays other between after retainsAfter own
      · exact others other further

section Declarations

variable (file : ScannedFile) (func : FuncDecl) {state : Assembly}

theorem Consistent.with_controllers (consistent : Consistent territory state)
    (controllers : Table Controller) :
    Consistent territory { state with document := { state.document with controllers } } :=
  { consistent with }

theorem retains_with_controllers (state : Assembly) (controllers : Table Controller) :
    Retains state { state with document := { state.document with controllers } } :=
  ⟨fun _ _ held => held, fun _ _ held => held, rfl, rfl⟩

theorem add_controller_changes (consistent : Consistent territory state) (spec : TypeSpec) :
    Changes territory (addController file spec) state
      (withController state.document.controllers (file, spec)) (fun _ => True) := by
  unfold addController withController isController
  dsimp only
  split
  · rename_i annotated
    apply Yields.bind_get
    unfold Table.contains
    cases known : state.document.controllers.get? spec.name with
    | some existing => exact Yields.throw ⟨consistent.whole, .inr rfl⟩
    | none =>
        exact Yields.modify
          ⟨consistent.with_controllers _, retains_with_controllers state _, rfl, trivial⟩
  · exact Yields.pure ⟨consistent, .refl state, rfl, trivial⟩

theorem route_of_advances (name argument : String) (consistent : Consistent territory state) :
    Advances territory (routeOf name argument) state
      (fun route _ => Project.route? argument = some route) (Project.route? argument = none) := by
  unfold routeOf Project.route?
  rcases (Text.words argument.toList).map String.ofList with _ | ⟨method, _ | ⟨path, extra⟩⟩
  · exact Advances.throw consistent rfl
  · exact Advances.throw consistent rfl
  · by_cases alone : extra.isEmpty = true
    · simp only [alone, if_true]
      exact Advances.pure consistent rfl
    · simp only [alone]
      apply (warn_advances consistent _).bind
      intro _ after consistentAfter _ _
      exact Advances.pure consistentAfter rfl

theorem owner_of_advances (consistent : Consistent territory state) :
    Advances territory (ownerOf file func) state
      (fun owner _ => owner = receiverName func ∧
        owns state.document.controllers file (receiverName func) = true)
      (owns state.document.controllers file (receiverName func) = false) := by
  unfold ownerOf owns
  apply Yields.bind_get
  cases known : state.document.controllers.get? (receiverName func) with
  | none => exact Advances.throw consistent rfl
  | some controller =>
      by_cases same : controller.package = file.packagePath
      · simp only [same, if_true]
        exact Advances.pure consistent ⟨rfl, by simp [same]⟩
      · simp only [same, if_false]
        exact Advances.throw consistent (by simp [same])

theorem unless_bind {α : Type} {condition : Prop} [Decidable condition] (step : Assemble PUnit)
    (next : Assemble α) : (if condition then next else step >>= fun _ => next) =
      (if condition then pure ⟨⟩ else step) >>= fun _ => next := by
  split <;> simp

theorem add_resource_changes (consistent : Consistent territory state)
    (atRest : state.inProgress = [])
    (inside : isEndpoint func = true → ∀ param ∈ func.params,
      HandledInside territory contextType file.context param) :
    Changes territory (addResource (territory.scope contextType) file func) state
      (withEndpoint project contextType state.document.controllers (file, func))
      (fun after => isEndpoint func = true → ∀ param ∈ func.params,
        HandledSeen project contextType file.context param after) := by
  unfold addResource withEndpoint isEndpoint
  dsimp only
  cases annotated : (Annotations.ofDoc func.doc).get "@Resource" with
  | nil => exact Yields.pure ⟨consistent, .refl state, rfl, by simp⟩
  | cons argument others =>
      dsimp only
      have warned : Advances territory (if others.isEmpty then pure PUnit.unit
          else warn (.multipleResources func.name)) state (fun _ _ => True) False := by
        split
        · exact Advances.pure consistent trivial
        · exact warn_advances consistent _
      rw [unless_bind]
      apply warned.changes False.elim
      intro _ first consistentFirst extendedFirst _
      have routed := route_of_advances func.name argument consistentFirst
      refine routed.changes (fun absent => .inr ?_)
        fun route second consistentSecond extendedSecond routedAs => ?_
      · simp [Project.resource?, absent]
      obtain ⟨method, path⟩ := route
      have owned := owner_of_advances file func consistentSecond
      have controllers := extendedSecond.controllers.trans extendedFirst.controllers
      rw [controllers] at owned
      refine owned.changes (fun absent => .inr ?_)
        fun owner third consistentThird extendedThird told => ?_
      · simp [absent]
      obtain ⟨rfl, owned⟩ := told
      have progress : third.inProgress = [] :=
        extendedThird.inProgress.trans (extendedSecond.inProgress.trans
          (extendedFirst.inProgress.trans atRest))
      have classified := classify_params_advances file.context func path
        (Annotations.ofDoc func.doc) consistentThird progress
        (inside (by simp [isEndpoint, annotated]))
      refine classified.changes (fun failed => failed.imp id fun absent => ?_)
        fun params last consistentLast extendedLast told => ?_
      · simp [Project.resource?, routedAs, absent]
      obtain ⟨shown, seen⟩ := told
      refine Yields.modify
        ⟨consistentLast.with_controllers _, retains_with_controllers last _, ?_, fun _ => seen⟩
      simp only [owned, if_true, Project.resource?, routedAs, shown, Option.bind_some,
        Option.map_some]
      rw [extendedLast.controllers, extendedThird.controllers, controllers]
      rfl

end Declarations

theorem for_m_parts {α : Type} (files : List ScannedFile) (parts : ScannedFile → List α)
    (step : ScannedFile → α → Assemble Unit) :
    (files.forM fun file => (parts file).forM (step file)) =
      (files.flatMap fun file => (parts file).map (file, ·)).forM
        fun part => step part.1 part.2 := by
  induction files with
  | nil => rfl
  | cons file rest ih =>
      simp only [List.forM_eq_forM] at ih ⊢
      rw [List.forM_cons, List.flatMap_cons, List.forM_append, List.forM_map, ih]

theorem consistent_initial (territory : Territory project) : Consistent territory initial where
  remembers := Resolver.remembers_initial project
  whole := rfl
  held := Universe.holds_nil
  types := by simp [initial, Document.empty]
  closed := by simp [initial, Document.empty, Registered]
  responders := by simp [initial, Document.empty]
  answered := by simp [initial, Document.empty, Responds, Table.contains]

/-- The controllers and endpoints of some files, from an assembly that holds none. -/
theorem add_files_changes {state : Assembly} (files : List ScannedFile)
    (consistent : Consistent territory state) (atRest : state.inProgress = [])
    (empty : state.document.controllers = .empty)
    (inside : ∀ file ∈ files, ∀ func ∈ file.source.funcs, isEndpoint func = true →
      ∀ param ∈ func.params, HandledInside territory contextType file.context param) :
    Changes territory (addFiles (territory.scope contextType) files) state
      (controllers? project contextType files)
      (fun after => ∀ file ∈ files, ∀ func ∈ file.source.funcs, isEndpoint func = true →
        ∀ param ∈ func.params, HandledSeen project contextType file.context param after) := by
  unfold addFiles controllers?
  rw [for_m_parts, for_m_parts]
  have first := for_m_changes (declaredTypes files) (fun _ _ => True) consistent
    (fun _ _ _ _ _ => trivial) fun declared _ between consistentBetween _ =>
      add_controller_changes declared.1 consistentBetween declared.2
  rw [empty] at first
  refine Yields.bind (first.mono (fun _ _ kept => kept) fun _ _ failed => ?_) ?_
  · exact ⟨failed.1, failed.2.imp id fun absent => by simp [absent]⟩
  rintro _ between ⟨consistentBetween, retains, controllers, -⟩
  rw [controllers, Option.bind_some]
  have members : ∀ declared ∈ declaredFuncs files,
      declared.1 ∈ files ∧ declared.2 ∈ declared.1.source.funcs := by
    intro declared member
    obtain ⟨file, listed, own⟩ := List.mem_flatMap.1 member
    obtain ⟨func, within, rfl⟩ := List.mem_map.1 own
    exact ⟨listed, within⟩
  have second := for_m_changes (declaredFuncs files)
    (fun declared after => isEndpoint declared.2 = true → ∀ param ∈ declared.2.params,
      HandledSeen project contextType declared.1.context param after) consistentBetween
    (fun _ _ _ retains seen annotated param member => (seen annotated param member).mono retains)
    fun declared member after consistentAfter retainsAfter =>
      add_resource_changes declared.1 declared.2 consistentAfter
        (retainsAfter.inProgress.trans (retains.inProgress.trans atRest))
        (inside declared.1 (members declared member).1 declared.2 (members declared member).2)
  refine second.mono ?_ fun _ _ failed => failed
  rintro _ after ⟨consistentAfter, retainsAfter, changed, seen⟩
  refine ⟨consistentAfter, retains.trans retainsAfter, changed, fun file listed func within => ?_⟩
  exact seen (file, func)
    (List.mem_flatMap.2 ⟨file, listed, List.mem_map_of_mem within⟩)

end Assembly

end EndpointAtlas
