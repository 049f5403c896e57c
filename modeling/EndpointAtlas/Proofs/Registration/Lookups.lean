import EndpointAtlas.Assembly.Params
import EndpointAtlas.Proofs.Registration.Embedding

/-!
What an assembly does to its resolver. Every step changes the resolver by look-ups alone, so that
what a look-up keeps is kept by the whole step, whatever has been assembled before.
-/

namespace EndpointAtlas

open Go

namespace Resolver

/-- A relation between a resolver and what any number of look-ups make of it. -/
structure Persists (project : Project) (relation : Resolver → Resolver → Prop) : Prop where
  refl : ∀ resolver, relation resolver resolver
  trans : ∀ {before between after}, relation before between → relation between after →
    relation before after
  lookup : ∀ ident resolver, Yields (Resolver.lookup project ident) resolver
    (fun _ after => relation resolver after) fun _ _ => True

def KeepsOutcomes (before after : Resolver) : Prop :=
  ∀ ident lookup, before.outcome? ident = some lookup → after.outcome? ident = some lookup

theorem keeps_outcomes_record (resolver : Resolver) (ident : Ident) (lookup : Lookup) :
    KeepsOutcomes resolver (resolver.record ident lookup) := by
  intro other kept held
  rw [outcome_record, held]
  rfl

/-- What remains of a look-up when its package has been read holds the outcome that it gives. -/
theorem answer_holds {before resolver : Resolver} (ident : Ident)
    (kept : KeepsOutcomes before resolver) :
    Yields (do
        match (← get).outcome? ident with
        | some lookup => return lookup
        | none =>
            modify (·.record ident .missing)
            return .missing : Resolve Lookup) resolver
      (fun lookup after => KeepsOutcomes before after ∧ after.outcome? ident = some lookup)
      fun _ _ => True := by
  apply Yields.bind_get
  split
  · rename_i lookup held
    exact Yields.pure ⟨kept, held⟩
  · rename_i unheld
    apply Yields.bind_modify
    apply Yields.pure
    constructor
    · intro other lookup held
      exact keeps_outcomes_record resolver ident .missing other lookup (kept other lookup held)
    · simp [outcome_record, unheld]

/-- A look-up forgets nothing and holds the outcome that it gives, also in a resolver that has
failed before. -/
theorem lookup_holds (project : Project) (ident : Ident) (resolver : Resolver) :
    Yields (Resolver.lookup project ident) resolver
      (fun lookup after => KeepsOutcomes resolver after ∧
        (ident.isPredeclared = false → after.outcome? ident = some lookup))
      fun _ _ => True := by
  have same : KeepsOutcomes resolver resolver := fun _ _ held => held
  unfold Resolver.lookup
  split
  · rename_i predeclared
    exact Yields.pure ⟨same, by simp [predeclared]⟩
  · apply Yields.bind_get
    split
    · rename_i lookup held
      exact Yields.pure ⟨same, fun _ => held⟩
    · rename_i unheld
      split
      · apply Yields.bind_modify
        apply Yields.pure
        constructor
        · exact keeps_outcomes_record resolver ident .external
        · simp [outcome_record, unheld]
      · apply Yields.bind_get
        dsimp only
        split
        · apply (answer_holds ident same).mono
          · exact fun _ _ holds => ⟨holds.1, fun _ => holds.2⟩
          · exact fun _ _ failed => failed
        · apply Yields.bind (load_package_yields.mono (fun _ _ added => added) fun _ _ _ => trivial)
          intro _ between added
          have kept : KeepsOutcomes resolver between := fun _ _ held => added.kept held
          apply (answer_holds ident kept).mono
          · exact fun _ _ holds => ⟨holds.1, fun _ => holds.2⟩
          · exact fun _ _ failed => failed

/-- Whether a resolver holds all that another one does, and of the project if that one did. -/
structure Continues (project : Project) (before after : Resolver) : Prop where
  kept : KeepsOutcomes before after
  remembers : Remembers project before → Remembers project after

theorem lookup_continues (project : Project) (ident : Ident) (resolver : Resolver) :
    Yields (Resolver.lookup project ident) resolver
      (fun lookup after => Continues project resolver after ∧
        (ident.isPredeclared = false → after.outcome? ident = some lookup))
      fun _ _ => True := by
  have holds := lookup_holds project ident resolver
  unfold Yields
  cases ran : Resolver.lookup project ident resolver with
  | ok lookup after =>
      obtain ⟨kept, outcome⟩ := holds.of_ok ran
      refine ⟨⟨kept, fun remembers => ?_⟩, outcome⟩
      exact ((lookup_yields ident remembers).of_ok ran).2.remembers
  | error failure after => trivial

theorem persists_continues (project : Project) : Persists project (Continues project) where
  refl := fun _ => ⟨fun _ _ held => held, fun remembers => remembers⟩
  trans := fun first second =>
    ⟨fun ident lookup held => second.kept ident lookup (first.kept ident lookup held),
      fun remembers => second.remembers (first.remembers remembers)⟩
  lookup := fun ident resolver =>
    (lookup_continues project ident resolver).mono (fun _ _ holds => holds.1)
      fun _ _ failed => failed

end Resolver

namespace Assembly

def Follows (relation : Resolver → Resolver → Prop) {α : Type} (step : Assemble α) : Prop :=
  ∀ state, Yields step state (fun _ after => relation state.resolver after.resolver)
    fun _ _ => True

variable {project : Project} {relation : Resolver → Resolver → Prop} {α β : Type}

namespace Follows

protected theorem throw (failure : Failure) : Follows relation (throw failure : Assemble α) :=
  fun _ => Yields.throw trivial

theorem bind_get {next : Assembly → Assemble α}
    (continued : ∀ state, Follows relation (next state)) :
    Follows relation ((get : Assemble Assembly) >>= next) :=
  fun state => Yields.bind_get (continued state state)

end Follows

section

variable (persists : Resolver.Persists project relation)

include persists

namespace Follows

protected theorem pure (value : α) : Follows relation (pure value : Assemble α) :=
  fun state => Yields.pure (persists.refl state.resolver)

protected theorem modify {change : Assembly → Assembly}
    (same : ∀ state, (change state).resolver = state.resolver) :
    Follows relation (modify change : Assemble PUnit) := by
  intro state
  apply Yields.modify
  rw [same]
  exact persists.refl state.resolver

protected theorem bind {step : Assemble α} {next : α → Assemble β} (first : Follows relation step)
    (second : ∀ value, Follows relation (next value)) : Follows relation (step >>= next) := by
  intro state
  apply (first state).bind
  intro value between follows
  apply (second value between).mono
  · exact fun _ _ further => persists.trans follows further
  · exact fun _ _ failed => failed

protected theorem map {step : Assemble α} (change : α → β) (follows : Follows relation step) :
    Follows relation (change <$> step) := by
  rw [← bind_pure_comp]
  exact Follows.bind persists follows fun value => Follows.pure persists (change value)

protected theorem of_except (result : Except Failure α) : Follows relation (ofExcept result) := by
  cases result with
  | ok value => exact Follows.pure persists value
  | error failure => exact Follows.throw failure

protected theorem map_m {step : α → Assemble β} (items : List α)
    (round : ∀ item, Follows relation (step item)) : Follows relation (items.mapM step) := by
  induction items with
  | nil => exact Follows.pure persists []
  | cons item rest ih =>
      rw [List.mapM_cons]
      apply Follows.bind persists (round item)
      intro value
      apply Follows.bind persists ih
      intro values
      exact Follows.pure persists _

protected theorem filter_map_m {step : α → Assemble (Option β)} (items : List α)
    (round : ∀ item, Follows relation (step item)) : Follows relation (items.filterMapM step) := by
  induction items with
  | nil => exact Follows.pure persists []
  | cons item rest ih =>
      rw [List.filterMapM_cons]
      apply Follows.bind persists (round item)
      intro value
      cases value with
      | none => exact ih
      | some value =>
          apply Follows.bind persists ih
          intro values
          exact Follows.pure persists _

end Follows

theorem lookup_follows (ident : Ident) :
    Follows relation (resolving (Resolver.lookup project ident)) := by
  intro state
  apply (resolving_yields (persists.lookup ident state.resolver)).mono
  · exact fun _ _ looked => looked.2
  · exact fun _ _ _ => trivial

theorem warn_follows (warning : Warning) : Follows relation (warn warning) :=
  Follows.modify persists fun _ => rfl

theorem revise_follows (change : Document → Document) : Follows relation (revise change) :=
  Follows.modify persists fun _ => rfl

theorem cut_off_follows : Follows relation cutOff := Follows.modify persists fun _ => rfl

theorem leave_follows (ident : Ident) : Follows relation (leave ident) :=
  Follows.modify persists fun _ => rfl

theorem enter_follows (ident : Ident) : Follows relation (enter ident) := by
  unfold enter
  apply Follows.bind_get
  intro state
  split
  · exact Follows.pure persists false
  · apply Follows.bind persists
    · exact Follows.modify persists fun _ => rfl
    · exact fun _ => Follows.pure persists true

theorem require_declaration_follows (ident : Ident) :
    Follows relation (requireDeclaration project ident) := by
  intro state
  apply require_declaration_yields (lookup_follows persists ident state)
  case found => exact fun _ _ follows => follows
  all_goals intros; trivial

theorem elements_follows (element : TypeExpr) {step : Assemble Schema}
    (follows : Follows relation step) : Follows relation
      (if isByte element then pure (.ofKind "string") else Schema.arrayOf <$> step) := by
  split
  · exact Follows.pure persists _
  · exact Follows.map persists _ follows

section Schemas

variable {register : Declaration → Assemble Unit} (context : Context)

theorem named_schema_follows (registers : ∀ declaration, Follows relation (register declaration))
    (named : TypeExpr) : Follows relation (namedSchema project register context named) := by
  unfold namedSchema
  apply Follows.bind persists (Follows.of_except persists _)
  intro ident
  split
  · exact Follows.pure persists _
  · apply Follows.bind persists (lookup_follows persists ident)
    intro lookup
    cases lookup with
    | found declaration =>
        dsimp only
        split
        · exact Follows.pure persists _
        · apply Follows.bind persists (registers declaration)
          exact fun _ => Follows.pure persists _
    | missing => exact Follows.throw (.typeNotFound ident)
    | external =>
        apply Follows.bind persists (warn_follows persists _)
        exact fun _ => Follows.pure persists _

mutual

theorem schema_for_follows (registers : ∀ declaration, Follows relation (register declaration))
    (type : TypeExpr) : Follows relation (schemaFor project register context type) := by
  cases type with
  | struct fields =>
      unfold schemaFor
      exact Follows.map persists _ (properties_for_follows registers fields)
  | pointer target =>
      unfold schemaFor
      exact schema_for_follows registers target
  | slice element =>
      unfold schemaFor
      exact elements_follows persists element (schema_for_follows registers element)
  | array element =>
      unfold schemaFor
      exact elements_follows persists element (schema_for_follows registers element)
  | map key value =>
      unfold schemaFor
      exact Follows.pure persists _
  | interface elements =>
      unfold schemaFor
      exact Follows.pure persists _
  | other text =>
      unfold schemaFor
      exact Follows.pure persists _
  | ident name =>
      unfold schemaFor
      exact named_schema_follows persists context registers _
  | qualified package name =>
      unfold schemaFor
      exact named_schema_follows persists context registers _

theorem properties_for_follows (registers : ∀ declaration, Follows relation (register declaration))
    (fields : List Field) : Follows relation (propertiesFor project register context fields) := by
  cases fields with
  | nil =>
      unfold propertiesFor
      exact Follows.pure persists _
  | cons field rest =>
      obtain ⟨name, type, tag⟩ := field
      unfold propertiesFor
      cases fieldLabel? name type tag with
      | none => exact properties_for_follows registers rest
      | some label =>
          apply Follows.bind persists (schema_for_follows registers type)
          intro schema
          apply Follows.bind persists (properties_for_follows registers rest)
          exact fun _ => Follows.pure persists _

end

end Schemas

theorem register_type_follows (bound : Nat) (declaration : Declaration) :
    Follows relation (registerType project bound declaration) := by
  induction bound generalizing declaration with
  | zero => exact cut_off_follows persists
  | succ bound ih =>
      unfold registerType
      apply Follows.bind_get
      intro state
      split
      · exact Follows.pure persists _
      · apply Follows.bind persists (enter_follows persists _)
        intro entered
        cases entered with
        | false => exact Follows.pure persists _
        | true =>
            apply Follows.bind persists (schema_for_follows persists _ ih _)
            intro schema
            apply Follows.bind persists (revise_follows persists _)
            exact fun _ => leave_follows persists _

theorem embedded_contract_follows (contract : Declaration) (ident : Ident) :
    Follows relation (embeddedContract project contract ident) := by
  unfold embeddedContract
  split
  · exact Follows.throw _
  · apply Follows.bind persists (require_declaration_follows persists ident)
    intro target
    split
    · exact Follows.pure persists target
    · exact Follows.throw _

section Contracts

variable {expand : Declaration → Expand (List PlacedMethod)}
  (expands : ∀ contract entered, Follows relation ((expand contract).run entered))

include expands

theorem element_methods_follows (contract : Declaration) (element : Element)
    (entered : List Ident) :
    Follows relation ((elementMethods project expand contract element).run entered) := by
  cases element with
  | method method => exact Follows.pure persists _
  | embedded type =>
      rw [run_element_methods_embedded]
      apply Follows.bind persists (Follows.of_except persists _)
      intro ident
      apply Follows.bind persists (embedded_contract_follows persists contract ident)
      intro target
      split
      · exact Follows.pure persists _
      · exact expands target _

theorem elements_methods_follows (contract : Declaration) (elements : List Element)
    (entered : List Ident) : Follows relation
      ((elements.mapM (elementMethods project expand contract)).run entered) := by
  induction elements generalizing entered with
  | nil => exact Follows.pure persists _
  | cons element rest ih =>
      rw [List.mapM_cons]
      simp only [StateT.run_bind]
      apply Follows.bind persists
        (element_methods_follows persists expands contract element entered)
      intro first
      apply Follows.bind persists (ih first.2)
      exact fun _ => Follows.pure persists _

end Contracts

theorem contract_methods_follows (bound : Nat) (contract : Declaration) (entered : List Ident) :
    Follows relation ((contractMethods project bound contract).run entered) := by
  induction bound generalizing contract entered with
  | zero =>
      unfold contractMethods
      simp only [StateT.run_bind, StateT.run_monadLift, bind_assoc, pure_bind]
      apply Follows.bind persists (cut_off_follows persists)
      exact fun _ => Follows.pure persists _
  | succ bound ih =>
      unfold contractMethods
      cases contract.spec.type with
      | interface elements =>
          simp only [StateT.run_bind]
          apply Follows.bind persists
            (elements_methods_follows persists ih contract elements entered)
          exact fun _ => Follows.pure persists _
      | _ => exact Follows.pure persists _

end

section

variable {scope : Scope} (persists : Resolver.Persists scope.project relation)

include persists

theorem response_param_follows (responder : String) (placed : PlacedMethod) (param : Param) :
    Follows relation (responseParam scope responder placed param) := by
  unfold responseParam
  cases param.name with
  | none =>
      apply Follows.bind persists (warn_follows persists _)
      exact fun _ => Follows.pure persists _
  | some name =>
      apply Follows.bind persists (Follows.of_except persists _)
      intro ident
      split
      · exact Follows.pure persists _
      · apply Follows.bind persists (require_declaration_follows persists ident)
        intro declaration
        split
        · apply Follows.bind persists (register_type_follows persists _ declaration)
          exact fun _ => Follows.pure persists _
        · exact Follows.pure persists _

theorem response_of_follows (responder : String) (placed : PlacedMethod) :
    Follows relation (responseOf scope responder placed) := by
  unfold responseOf
  have params := Follows.filter_map_m persists placed.method.params
    (response_param_follows persists responder placed)
  apply Follows.bind persists params
  exact fun _ => Follows.pure persists _

theorem register_responder_follows (contract : Declaration) :
    Follows relation (registerResponder scope contract) := by
  unfold registerResponder
  apply Follows.bind_get
  intro state
  split
  · exact Follows.pure persists _
  · apply Follows.bind persists (enter_follows persists _)
    intro entered
    cases entered with
    | false => exact Follows.pure persists _
    | true =>
        apply Follows.bind persists (contract_methods_follows persists _ contract _)
        intro expanded
        have responses := Follows.map_m persists expanded.1
          (response_of_follows persists contract.spec.name)
        apply Follows.bind persists responses
        intro responses
        apply Follows.bind persists (revise_follows persists _)
        exact fun _ => leave_follows persists _

end

end Assembly

end EndpointAtlas
