import EndpointAtlas.Analysis
import EndpointAtlas.Proofs.Registration.Endpoints

/-!
The types of a document. They are the types that can be reached from the records in the parameters
of endpoints and responses, each with the schema of its own declaration; and the registration of
them ends by itself, however the types refer to each other.
-/

namespace EndpointAtlas

open Go

/-- A declaration that a named parameter of an endpoint names, other than that of contexts. -/
def Handled (project : Project) (contextType : Ident) (files : List ScannedFile)
    (target : Declaration) : Prop :=
  ∃ file ∈ files, ∃ func ∈ file.source.funcs, isEndpoint func = true ∧
    ∃ param ∈ func.params, Handles project contextType file.context param target

def Answered (project : Project) (contextType : Ident) (files : List ScannedFile)
    (contract : Declaration) : Prop :=
  Handled project contextType files contract ∧ contract.shape = .contract

/-- The records that registration starts from: those in the parameters of endpoints, and those in
the parameters of the responses of a contract. -/
inductive Root (project : Project) (contextType : Ident) (files : List ScannedFile) :
    Declaration → Prop where
  | handled {target : Declaration} :
      Handled project contextType files target → target.shape = .record →
        Root project contextType files target
  | answered {contract target : Declaration} :
      Answered project contextType files contract → project.Answers contract target →
        target.shape = .record → Root project contextType files target

/-- The types that can be reached from a root by references. -/
def Reachable (project : Project) (contextType : Ident) (files : List ScannedFile)
    (target : Declaration) : Prop :=
  ∃ root, Root project contextType files root ∧ Relation.ReflTransGen project.Refers root target

section

variable {project : Project} {contextType : Ident} {files : List ScannedFile}
  {target contract : Declaration}

theorem Handled.found (handled : Handled project contextType files target) :
    project.Found target := by
  obtain ⟨_, _, _, _, _, _, _, _, _, names⟩ := handled
  exact names.found

theorem Handled.inside (handled : Handled project contextType files target) :
    target.ident ∈ project.identsOf files := by
  obtain ⟨file, listed, _, _, _, _, _, _, _, names⟩ := handled
  exact names.mem_idents_of (Project.within_of_mem listed)

theorem HasMethod.inside (all : Universe project) {placed : PlacedMethod}
    (has : HasMethod project contract placed) (found : project.Found contract)
    (inside : contract.ident ∈ all.idents) {named : TypeExpr}
    (names : project.Names placed.context named target) : target.ident ∈ all.idents := by
  induction has with
  | own _ => exact all.closed _ found inside named target names
  | embedded _ embeds _ ih =>
      exact ih embeds.found (all.closed _ found inside _ _ embeds) names

theorem Root.found (root : Root project contextType files target) : project.Found target := by
  cases root with
  | handled handled _ => exact handled.found
  | answered _ answers _ =>
      obtain ⟨_, _, _, _, _, names⟩ := answers
      exact names.found

theorem Root.inside (root : Root project contextType files target) :
    target.ident ∈ project.identsOf files := by
  cases root with
  | handled handled _ => exact handled.inside
  | answered answered answers _ =>
      obtain ⟨_, has, _, _, _, names⟩ := answers
      exact has.inside (project.universeOf files) answered.1.found answered.1.inside names

theorem Root.is_record (root : Root project contextType files target) : target.shape = .record := by
  cases root with
  | handled _ isRecord => exact isRecord
  | answered _ _ isRecord => exact isRecord

theorem Reachable.found (reachable : Reachable project contextType files target) :
    project.Found target := by
  obtain ⟨root, isRoot, path⟩ := reachable
  cases path with
  | refl => exact isRoot.found
  | tail _ refers =>
      obtain ⟨_, _, names, _⟩ := refers
      exact names.found

theorem Reachable.inside (reachable : Reachable project contextType files target) :
    target.ident ∈ project.identsOf files := by
  obtain ⟨root, isRoot, path⟩ := reachable
  induction path with
  | refl => exact isRoot.inside
  | tail path refers ih =>
      obtain ⟨named, _, names, _⟩ := refers
      exact (project.universeOf files).closed _ (Reachable.found ⟨root, isRoot, path⟩) ih _ _ names

theorem Reachable.no_contract (reachable : Reachable project contextType files target) :
    target.shape ≠ .contract := by
  obtain ⟨root, isRoot, path⟩ := reachable
  cases path with
  | refl => simp [isRoot.is_record]
  | tail _ refers =>
      obtain ⟨_, _, _, noContract⟩ := refers
      exact noContract

end

def territoryOf (project : Project) (contextType : Ident) (files : List ScannedFile) :
    Territory project where
  toUniverse := project.universeOf files
  bound := project.typeBound files
  types := Reachable project contextType files
  responders := Answered project contextType files
  room := project.length_idents_of_lt files
  found := fun _ known => known.elim Reachable.found fun answered => answered.1.found
  inside := fun _ known => known.elim Reachable.inside fun answered => answered.1.inside
  noContract := fun _ reachable => reachable.no_contract
  contract := fun _ answered => answered.2
  refers := fun _ _ ⟨root, isRoot, path⟩ refers => ⟨root, isRoot, path.tail refers⟩
  answers := fun _ target answered answers isRecord =>
    ⟨target, .answered answered answers isRecord, .refl⟩

namespace Assembly

variable {project : Project} {contextType : Ident} {files : List ScannedFile}

theorem handled_inside {file : ScannedFile} (listed : file ∈ files) {func : FuncDecl}
    (within : func ∈ file.source.funcs) (annotated : isEndpoint func = true) {param : Param}
    (member : param ∈ func.params) :
    HandledInside (territoryOf project contextType files) contextType file.context param := by
  intro target handles
  have handled : Handled project contextType files target :=
    ⟨file, listed, func, within, annotated, param, member, handles⟩
  exact ⟨fun isRecord => ⟨target, .handled handled isRecord, .refl⟩,
    fun isContract => ⟨handled, isContract⟩⟩

/-- An assembly of some files in which nothing is left to be done. -/
structure Complete (project : Project) (contextType : Ident) (files : List ScannedFile)
    (state : Assembly) : Prop where
  consistent : Consistent (territoryOf project contextType files) state
  atRest : state.inProgress = []
  imports : state.document.imports = []
  controllers : controllers? project contextType files = some state.document.controllers
  handled : ∀ target, Handled project contextType files target →
    (target.shape = .record → state.Registered target) ∧
      (target.shape = .contract → state.Responds target)

theorem add_files_completes {state : Assembly}
    (consistent : Consistent (territoryOf project contextType files) state)
    (atRest : state.inProgress = []) (empty : state.document = .empty) :
    Yields (addFiles ⟨project, contextType, project.typeBound files⟩ files) state
      (fun _ after => Complete project contextType files after)
      (fun _ after => after.cutShort = false ∧ Faulty (territoryOf project contextType files)
        (controllers? project contextType files = none)) := by
  have changes := add_files_changes files consistent atRest (by rw [empty]; rfl)
    fun file listed func within annotated param member =>
      handled_inside listed within annotated member
  refine changes.mono ?_ fun _ _ failed => failed
  rintro _ after ⟨consistentAfter, retains, controllers, seen⟩
  refine ⟨consistentAfter, retains.inProgress.trans atRest, ?_, controllers, ?_⟩
  · rw [retains.imports, empty]
    rfl
  · rintro target ⟨file, listed, func, within, annotated, param, member, handles⟩
    exact seen file listed func within annotated param member target handles

namespace Complete

variable {state : Assembly} (complete : Complete project contextType files state)

include complete

theorem registered {target : Declaration} (reachable : Reachable project contextType files target) :
    state.Registered target := by
  obtain ⟨root, isRoot, path⟩ := reachable
  induction path with
  | refl =>
      cases isRoot with
      | handled handled isRecord => exact (complete.handled _ handled).1 isRecord
      | answered answered answers isRecord =>
          exact complete.consistent.answered _ _ answered
            ((complete.handled _ answered.1).2 answered.2) answers isRecord
  | tail path refers ih =>
      have seen := complete.consistent.closed _ _ ⟨root, isRoot, path⟩ ih refers
      rw [Seen, complete.atRest] at seen
      simpa using seen

theorem types_iff {key : String} {type : TypeSchema} :
    state.document.types.get? key = some type ↔ ∃ declaration,
      Reachable project contextType files declaration ∧ key = declaration.ident.display ∧
        type = declaration.entry := by
  constructor
  · intro held
    obtain ⟨declaration, reachable, -, shown, entry⟩ := complete.consistent.types key type held
    exact ⟨declaration, reachable, shown, entry⟩
  · rintro ⟨declaration, reachable, rfl, rfl⟩
    exact complete.registered reachable

theorem contains_iff {key : String} : state.document.types.contains key = true ↔
    ∃ declaration, Reachable project contextType files declaration ∧
      declaration.ident.display = key := by
  simp only [Table.contains, Option.isSome_iff_exists, complete.types_iff]
  constructor
  · rintro ⟨_, declaration, reachable, shown, -⟩
    exact ⟨declaration, reachable, shown.symm⟩
  · rintro ⟨declaration, reachable, shown⟩
    exact ⟨_, declaration, reachable, shown.symm, rfl⟩

theorem sound : (territoryOf project contextType files).HasSchemas := by
  intro declaration reachable
  obtain ⟨other, reachableOther, sound, shown, -⟩ :=
    complete.consistent.types _ _ (complete.registered reachable)
  obtain rfl := reachableOther.found.eq_of_display reachable.found shown.symm
  exact sound

theorem schema {declaration : Declaration}
    (reachable : Reachable project contextType files declaration) :
    ∃ after, schemaFor project (registerType project (project.typeBound files)) declaration.context
      declaration.spec.type .initial =
        .ok (declaration.context.schemaOf declaration.spec.type) after := by
  have registers : Registers (territoryOf project contextType files)
      (registerType project (project.typeBound files)) [] := by
    intro other state inside consistent atRest
    apply register_type_advances _ other state inside consistent
    exact Nat.lt_of_lt_of_le (project.length_idents_of_lt files) (Nat.le_add_right _ _)
  have advances := schema_for_shows registers declaration.spec.type
    (fun named target mentions names shown => (territoryOf project contextType files).refers _ _
      reachable ⟨named, mentions, names, shown⟩) (consistent_initial _) rfl
  obtain ⟨value, after, ran, -, -, rfl, -⟩ := Yields.exists_ok (Yields.mono advances
    (fun _ _ kept => kept) fun _ _ failed => by
      rcases failed.2 with unshown | ⟨named, mentions, unsettled⟩
      · exact unshown complete.sound
      · exact unsettled (complete.sound _ reachable named mentions))
  exact ⟨after, ran⟩

theorem responds_iff {key : String} : state.document.responders.contains key = true ↔
    ∃ contract, Answered project contextType files contract ∧ contract.ident.display = key := by
  constructor
  · intro known
    obtain ⟨responder, held⟩ := Option.isSome_iff_exists.1 known
    obtain ⟨contract, answered, shown, -⟩ := complete.consistent.responders key responder held
    exact ⟨contract, answered, shown.symm⟩
  · rintro ⟨contract, answered, rfl⟩
    exact (complete.handled contract answered.1).2 answered.2

end Complete

def lastOf {α : Type} : EStateM.Result Failure Assembly α → Assembly
  | .ok _ assembly => assembly
  | .error _ assembly => assembly

end Assembly

open Assembly

/-- An analysis that succeeds has gone through all files, and one that fails was not cut short. -/
theorem analysis_completes (tree : Tree) (options : AnalysisOptions) :
    Yields (analysis tree options) .initial
      (fun document after => ∃ files, options.scannedFiles tree = .ok files ∧
        Complete (options.project tree) options.contextType files after ∧
          document = after.document.withAliases)
      (fun _ after => after.cutShort = false) := by
  unfold analysis
  cases scanned : options.scannedFiles tree with
  | error failure => exact Yields.throw rfl
  | ok files =>
      have added : ∀ state, Consistent (territoryOf (options.project tree) options.contextType
          files) state → state.inProgress = [] → state.document = .empty →
          Yields (do
            addFiles (options.scope tree files) files
            return (← get).document.withAliases) state
            (fun document after => ∃ scanned, Except.ok (ε := Failure) files = .ok scanned ∧
              Complete (options.project tree) options.contextType scanned after ∧
                document = after.document.withAliases)
            (fun _ after => after.cutShort = false) := by
        intro state consistent atRest empty
        refine Yields.bind ((add_files_completes consistent atRest empty).mono
          (fun _ _ kept => kept)
          fun _ _ failed => failed.1) fun _ after complete => ?_
        exact Yields.bind_get (Yields.pure ⟨files, rfl, complete, rfl⟩)
      have consistent := consistent_initial
        (territoryOf (options.project tree) options.contextType files)
      apply Yields.bind_pure
      split
      · exact Yields.bind_modify (added _ { consistent with } rfl rfl)
      · exact added _ consistent rfl rfl

theorem completes_of_analyze {tree : Tree} {options : AnalysisOptions} {document : Document}
    (succeeds : (analyze tree options).1 = .ok document) :
    ∃ files after, options.scannedFiles tree = .ok files ∧
      Complete (options.project tree) options.contextType files after ∧
        document = after.document.withAliases := by
  unfold analyze at succeeds
  cases ran : analysis tree options .initial with
  | error failure after =>
      rw [ran] at succeeds
      cases succeeds
  | ok found after =>
      rw [ran] at succeeds
      obtain rfl := Except.ok.inj succeeds
      obtain ⟨files, scanned, complete, assembled⟩ := (analysis_completes tree options).of_ok ran
      exact ⟨files, after, scanned, complete, assembled⟩

@[simp] theorem name_with_alias (key : String) (type : TypeSchema) :
    (type.withAlias key).name = type.name := by
  unfold TypeSchema.withAlias
  split <;> rfl

@[simp] theorem schema_with_alias (key : String) (type : TypeSchema) :
    (type.withAlias key).schema = type.schema := by
  unfold TypeSchema.withAlias
  split <;> rfl

/-- The registration of the types of a project is never cut short by its bound, whatever they refer
to; and where the analysis succeeds, its types are those that can be reached, its responders are the
contracts in the parameters of endpoints, and the schema of a type is the one that its declaration
has where nothing has been registered. -/
theorem types_of_analyze (tree : Tree) (options : AnalysisOptions) :
    (lastOf (analysis tree options .initial)).cutShort = false ∧
      ∀ document, (analyze tree options).1 = .ok document →
        ∃ files, options.scannedFiles tree = .ok files ∧
          let project := options.project tree
          (∀ key, key ∈ document.types.keys ↔ ∃ declaration,
            Reachable project options.contextType files declaration ∧
              declaration.ident.display = key) ∧
          (∀ key, key ∈ document.responders.keys ↔ ∃ contract,
            Answered project options.contextType files contract ∧
              contract.ident.display = key) ∧
          ∀ declaration, Reachable project options.contextType files declaration →
            ∃ type schema after, document.types.get? declaration.ident.display = some type ∧
              type.name = declaration.spec.name ∧ type.schema = some schema ∧
              schemaFor project (registerType project (project.typeBound files)) declaration.context
                declaration.spec.type .initial = .ok schema after := by
  refine ⟨?_, fun document succeeds => ?_⟩
  · have completes := analysis_completes tree options
    cases ran : analysis tree options .initial with
    | ok document after =>
        obtain ⟨_, _, complete, _⟩ := completes.of_ok ran
        exact complete.consistent.whole
    | error failure after => exact completes.of_error ran
  · obtain ⟨files, after, scanned, complete, rfl⟩ := completes_of_analyze succeeds
    refine ⟨files, scanned, fun key => ?_, fun key => ?_, fun declaration reachable => ?_⟩
    · rw [← complete.contains_iff, ← Table.contains_iff_mem_keys]
      simp [Document.withAliases, Table.contains, Table.get_map_values]
    · rw [← complete.responds_iff, Table.contains_iff_mem_keys]
      rfl
    · obtain ⟨last, schema⟩ := complete.schema reachable
      have held : after.document.types.get? declaration.ident.display = some declaration.entry :=
        complete.registered reachable
      refine ⟨declaration.entry.withAlias declaration.ident.display, _, last, ?_,
        name_with_alias _ _, schema_with_alias _ _, schema⟩
      simp [Document.withAliases, Table.get_map_values, held]

def mutualTree : Tree :=
  ⟨[(["a.go"], .file (Text.Glyph.ofString ("package m\n// @Controller\ntype C struct \x7b\x7d\n" ++
    "type A struct \x7b Next *B \x7d\n" ++
    "type B struct \x7b Back []A; Skipped Hidden \x60json:\"-\"\x60 \x7d\n" ++
    "type Hidden struct \x7b\x7d\n// @Resource GET /a\n" ++
    "func (c C) Get(a A) \x7b\x7d\n")) false)], by decide⟩

def mutualOptions : AnalysisOptions := ⟨⟨"/"⟩, "m", [], [], false, ⟨"context", "Context"⟩⟩

theorem types_of_mutual_tree : ∃ document files,
    (analyze mutualTree mutualOptions).1 = .ok document ∧
      mutualOptions.scannedFiles mutualTree = .ok files ∧
        ∀ key, key ∈ ["m A", "m B"] ↔ ∃ declaration,
          Reachable (mutualOptions.project mutualTree) mutualOptions.contextType files declaration ∧
            declaration.ident.display = key := by
  have keys : (analyze mutualTree mutualOptions).1.toOption.map (·.types.keys) =
      some ["m A", "m B"] := by decide +kernel
  cases succeeds : (analyze mutualTree mutualOptions).1 with
  | error failure =>
      rw [succeeds] at keys
      cases keys
  | ok document =>
      obtain ⟨files, scanned, types, -⟩ :=
        (types_of_analyze mutualTree mutualOptions).2 document succeeds
      refine ⟨document, files, rfl, scanned, fun key => ?_⟩
      rw [succeeds] at keys
      have same : document.types.keys = ["m A", "m B"] := Option.some.inj keys
      rw [← types key, same]

end EndpointAtlas
