import EndpointAtlas.Proofs.Registration.Reachable

/-!
The order of files. A document depends on which files there are and not on their order, as long as
no two endpoints of one receiver have one name.
-/

namespace EndpointAtlas

open Go

/-- A loop gives the same in any order of items of which any two may change places. -/
theorem foldl_m_perm {α β : Type} {step : β → α → Option β} (related : α → α → Prop)
    (symmetric : ∀ {first second}, related first second → related second first)
    (commutes : ∀ first second total, related first second →
      (step total first).bind (step · second) = (step total second).bind (step · first))
    {items others : List α} (perm : items.Perm others) (pairs : items.Pairwise related)
    (total : β) : items.foldlM step total = others.foldlM step total := by
  induction perm generalizing total with
  | nil => rfl
  | cons item _ ih =>
      rw [List.foldlM_cons, List.foldlM_cons]
      congr 1
      funext next
      exact ih (List.pairwise_cons.1 pairs).2 next
  | swap first second rest =>
      have apart := (List.pairwise_cons.1 pairs).1 first List.mem_cons_self
      have swapped := commutes second first total apart
      simp only [List.foldlM_cons, Option.bind_eq_bind] at swapped ⊢
      rw [← Option.bind_assoc, ← Option.bind_assoc, swapped]
  | trans earlier _ ihFirst ihSecond =>
      rw [ihFirst pairs, ihSecond (earlier.pairwise pairs symmetric)]

theorem with_controller_comm (controllers : Table Controller)
    (first second : ScannedFile × TypeSpec) :
    (withController controllers first).bind (withController · second) =
      (withController controllers second).bind (withController · first) := by
  obtain ⟨file, spec⟩ := first
  obtain ⟨other, type⟩ := second
  unfold withController Table.contains
  dsimp only
  cases isController spec with
  | false => simp
  | true =>
      cases isController type with
      | false => simp
      | true =>
          by_cases same : spec.name = type.name
          · cases known : controllers.get? type.name <;> simp [same, known, Table.get_insert]
          · have other : ¬ type.name = spec.name := fun equal => same equal.symm
            cases known : controllers.get? spec.name <;>
              cases knownOther : controllers.get? type.name <;>
              simp [known, knownOther, same, other, Table.get_insert, Table.insert_comm _ same]

theorem owns_with_resource (controllers : Table Controller) (owner name other : String)
    (resource : Resource) (file : ScannedFile) :
    owns (withResource controllers owner name resource) file other =
      owns controllers file other := by
  unfold owns withResource
  rw [Table.get_modify]
  split
  · rename_i same
    subst same
    cases controllers.get? other <;> rfl
  · rfl

theorem with_resource_comm (controllers : Table Controller) {owner other name label : String}
    (distinct : owner = other → name ≠ label) (first second : Resource) :
    withResource (withResource controllers owner name first) other label second =
      withResource (withResource controllers other label second) owner name first := by
  unfold withResource
  apply Table.ext_get
  intro key
  simp only [Table.get_modify]
  by_cases same : owner = other
  · subst same
    by_cases here : key = owner
    · cases controllers.get? owner with
      | none => simp [here]
      | some controller => simp [here, Table.insert_comm _ (distinct rfl)]
    · simp [here]
  · by_cases isOwner : key = owner
    · subst isOwner
      simp [same]
    · simp [isOwner, Ne.symm same]

/-- Whether two functions, where both are endpoints of one receiver, have different names. -/
def Apart (first second : ScannedFile × FuncDecl) : Prop :=
  isEndpoint first.2 = true → isEndpoint second.2 = true →
    receiverName first.2 = receiverName second.2 → first.2.name ≠ second.2.name

instance (first second : ScannedFile × FuncDecl) : Decidable (Apart first second) :=
  inferInstanceAs (Decidable (_ → _ → _ → _))

theorem Apart.symm {first second : ScannedFile × FuncDecl} (apart : Apart first second) :
    Apart second first :=
  fun endpointSecond endpointFirst same equal =>
    apart endpointFirst endpointSecond same.symm equal.symm

theorem with_endpoint_comm (project : Project) (contextType : Ident)
    (controllers : Table Controller)
    (first second : ScannedFile × FuncDecl) (apart : Apart first second) :
    (withEndpoint project contextType controllers first).bind
        (withEndpoint project contextType · second) =
      (withEndpoint project contextType controllers second).bind
        (withEndpoint project contextType · first) := by
  obtain ⟨file, func⟩ := first
  obtain ⟨other, handler⟩ := second
  unfold Apart isEndpoint at apart
  unfold withEndpoint
  dsimp only at apart ⊢
  cases annotated : (Annotations.ofDoc func.doc).get "@Resource" with
  | nil => cases (Annotations.ofDoc handler.doc).get "@Resource" <;> simp
  | cons argument arguments =>
      cases annotatedOther : (Annotations.ofDoc handler.doc).get "@Resource" with
      | nil => simp
      | cons text texts =>
          rw [annotated, annotatedOther] at apart
          have distinct := apart rfl rfl
          dsimp only
          cases owned : owns controllers file (receiverName func) <;>
            cases ownedOther : owns controllers other (receiverName handler) <;>
            cases project.resource? contextType file func argument <;>
            cases project.resource? contextType other handler text <;>
            simp [owned, ownedOther, owns_with_resource, with_resource_comm _ distinct]

section

variable {project : Project} {contextType : Ident} {files others : List ScannedFile}

theorem controllers_perm (perm : files.Perm others)
    (apart : (declaredFuncs files).Pairwise Apart) :
    controllers? project contextType files = controllers? project contextType others := by
  have types : (declaredTypes files).foldlM withController .empty =
      (declaredTypes others).foldlM withController .empty :=
    foldl_m_perm (fun _ _ => True) (fun _ => trivial)
      (fun first second total _ => with_controller_comm total first second)
      (perm.flatMap_right _) (List.pairwise_of_forall fun _ _ => trivial) _
  have funcs : ∀ controllers, (declaredFuncs files).foldlM (withEndpoint project contextType)
      controllers = (declaredFuncs others).foldlM (withEndpoint project contextType) controllers :=
    foldl_m_perm Apart Apart.symm
      (fun first second total => with_endpoint_comm project contextType total first second)
      (perm.flatMap_right _) apart
  rw [controllers?, controllers?, types]
  simp only [funcs]

theorem handled_perm (perm : files.Perm others) :
    Handled project contextType files = Handled project contextType others := by
  funext target
  simp only [Handled, perm.mem_iff]

theorem answered_perm (perm : files.Perm others) :
    Answered project contextType files = Answered project contextType others := by
  funext contract
  rw [Answered, Answered, handled_perm perm]

theorem Root.perm (perm : files.Perm others) {target : Declaration}
    (root : Root project contextType files target) : Root project contextType others target := by
  cases root with
  | handled handled isRecord => exact .handled (handled_perm perm ▸ handled) isRecord
  | answered answered answers isRecord =>
      exact .answered (answered_perm perm ▸ answered) answers isRecord

theorem reachable_perm (perm : files.Perm others) :
    Reachable project contextType files = Reachable project contextType others := by
  funext target
  refine propext ⟨?_, ?_⟩
  · rintro ⟨root, isRoot, path⟩
    exact ⟨root, isRoot.perm perm, path⟩
  · rintro ⟨root, isRoot, path⟩
    exact ⟨root, isRoot.perm perm.symm, path⟩

theorem type_bound_perm (project : Project) (perm : files.Perm others) :
    project.typeBound files = project.typeBound others := by
  unfold Project.typeBound
  simp only [List.length_append, (perm.flatMap_right _).length_eq]

end

namespace Assembly

section

variable {project : Project} {contextType : Ident} {files : List ScannedFile} {state : Assembly}
  (complete : Complete project contextType files state)

include complete

theorem Complete.responders_iff {key : String} {responder : Responder} :
    state.document.responders.get? key = some responder ↔ ∃ contract,
      Answered project contextType files contract ∧ key = contract.ident.display ∧
        project.responder? (project.typeBound files) contract = some responder := by
  constructor
  · exact complete.consistent.responders key responder
  · rintro ⟨contract, answered, rfl, shown⟩
    obtain ⟨held, holds⟩ :=
      Option.isSome_iff_exists.1 ((complete.handled contract answered.1).2 answered.2)
    obtain ⟨other, answeredOther, same, answer⟩ := complete.consistent.responders _ _ holds
    obtain rfl := answered.1.found.eq_of_display answeredOther.1.found same
    rw [holds, ← answer]
    exact shown

theorem Complete.responses : (territoryOf project contextType files).HasResponses := by
  intro contract answered
  obtain ⟨held, holds⟩ :=
    Option.isSome_iff_exists.1 ((complete.handled contract answered.1).2 answered.2)
  obtain ⟨other, answeredOther, same, answer⟩ := complete.consistent.responders _ _ holds
  obtain rfl := answered.1.found.eq_of_display answeredOther.1.found same
  exact Option.isSome_iff_exists.2 ⟨held, answer⟩

end

end Assembly

/-- The document of some files, in the order in which they are given; none if one is at fault. -/
def documentOf? (tree : Tree) (options : AnalysisOptions) (files : List ScannedFile) :
    Option Document :=
  match Assembly.addFiles (options.scope tree files) files .initial with
  | .ok _ assembly => some assembly.document.withAliases
  | .error _ _ => none

/-- The document of an analysis is that of the files it scans. -/
theorem analyze_eq_document_of (tree : Tree) (options : AnalysisOptions) :
    (analyze tree options).1.toOption =
      (options.scannedFiles tree).toOption.bind (documentOf? tree options) := by
  unfold analyze analysis documentOf?
  simp only [bind, EStateM.bind]
  cases options.scannedFiles tree with
  | error failure => rfl
  | ok files =>
      cases files with
      | nil => rfl
      | cons file rest =>
          simp only [Assembly.ofExcept, pure, EStateM.pure, List.isEmpty_cons, Bool.false_eq_true,
            if_false, EStateM.bind, Except.toOption, Option.bind_some]
          cases Assembly.addFiles (options.scope tree (file :: rest)) (file :: rest)
            .initial <;> rfl

open Assembly

section

variable {project : Project} {contextType : Ident} {files others : List ScannedFile}
  {state after : Assembly}

theorem Assembly.Complete.not_faulty (complete : Complete project contextType files state)
    (perm : files.Perm others) (apart : (declaredFuncs files).Pairwise Apart) :
    ¬ Faulty (territoryOf project contextType others)
      (controllers? project contextType others = none) := by
  rintro ((unsound | unanswered) | absent)
  · apply unsound
    intro declaration (reachable : Reachable project contextType others declaration)
    rw [← reachable_perm perm] at reachable
    exact complete.sound declaration reachable
  · apply unanswered
    intro contract (answered : Answered project contextType others contract)
    rw [← answered_perm perm] at answered
    have shown := complete.responses contract answered
    show (project.responder? (project.typeBound others) contract).isSome = true
    rw [← type_bound_perm project perm]
    exact shown
  · rw [← controllers_perm perm apart, complete.controllers] at absent
    cases absent

theorem Assembly.Complete.document_eq (complete : Complete project contextType files state)
    (other : Complete project contextType others after) (perm : files.Perm others)
    (apart : (declaredFuncs files).Pairwise Apart) : state.document = after.document := by
  have types : state.document.types = after.document.types := by
    refine Table.ext_get fun key => Option.ext fun type => ?_
    rw [complete.types_iff, other.types_iff, reachable_perm perm]
  have responders : state.document.responders = after.document.responders := by
    refine Table.ext_get fun key => Option.ext fun responder => ?_
    rw [complete.responders_iff, other.responders_iff, answered_perm perm,
      type_bound_perm project perm]
  have controllers : state.document.controllers = after.document.controllers := by
    apply Option.some.inj
    rw [← complete.controllers, ← other.controllers, controllers_perm perm apart]
  have imports := complete.imports.trans other.imports.symm
  cases documented : state.document
  cases documentedOther : after.document
  simp_all

end

theorem add_files_initial_completes (tree : Tree) (options : AnalysisOptions)
    (files : List ScannedFile) :
    Yields (addFiles (options.scope tree files) files) .initial
      (fun _ after => Complete (options.project tree) options.contextType files after)
      (fun _ after => after.cutShort = false ∧
        Faulty (territoryOf (options.project tree) options.contextType files)
          (controllers? (options.project tree) options.contextType files = none)) :=
  add_files_completes (consistent_initial _) rfl rfl

/-- The order of the files decides neither whether there is a document nor what it is. -/
theorem document_of_perm (tree : Tree) (options : AnalysisOptions) {files others : List ScannedFile}
    (perm : files.Perm others) (apart : (declaredFuncs files).Pairwise Apart) :
    documentOf? tree options files = documentOf? tree options others := by
  have first := add_files_initial_completes tree options files
  have second := add_files_initial_completes tree options others
  unfold documentOf?
  cases ran : addFiles (options.scope tree files) files .initial with
  | ok _ state =>
      have complete := first.of_ok ran
      cases ranOther : addFiles (options.scope tree others) others .initial with
      | ok _ after =>
          dsimp only
          rw [complete.document_eq (second.of_ok ranOther) perm apart]
      | error failure after =>
          exact absurd (second.of_error ranOther).2 (complete.not_faulty perm apart)
  | error failure state =>
      cases ranOther : addFiles (options.scope tree others) others .initial with
      | ok _ after =>
          have apartOther : (declaredFuncs others).Pairwise Apart :=
            (perm.flatMap_right _).pairwise apart Apart.symm
          exact absurd (first.of_error ran).2
            ((second.of_ok ranOther).not_faulty perm.symm apartOther)
      | error other after => rfl

def scatteredTree : Tree :=
  ⟨[(["a.go"], .file (Text.Glyph.ofString ("package m\n// @Controller\n" ++
      "type C struct \x7b\x7d\n")) false),
    (["b.go"], .file (Text.Glyph.ofString ("package m\n// @Resource GET /a\n" ++
      "func (c C) Get(a A) \x7b\x7d\n// @Resource PUT /a\nfunc (c C) Put(a A) \x7b\x7d\n")) false),
    (["c.go"], .file (Text.Glyph.ofString "package m\ntype A struct \x7b Next *A \x7d\n") false)],
    by decide⟩

def scatteredFiles : List ScannedFile :=
  ((mutualOptions.scannedFiles scatteredTree).toOption).getD []

theorem document_of_scattered_files : (declaredFuncs scatteredFiles).Pairwise Apart ∧
    (documentOf? scatteredTree mutualOptions scatteredFiles).isSome = true ∧
      documentOf? scatteredTree mutualOptions scatteredFiles =
        documentOf? scatteredTree mutualOptions scatteredFiles.reverse :=
  ⟨by decide +kernel, by decide +kernel,
    document_of_perm scatteredTree mutualOptions (List.reverse_perm scatteredFiles).symm
      (by decide +kernel)⟩

end EndpointAtlas
