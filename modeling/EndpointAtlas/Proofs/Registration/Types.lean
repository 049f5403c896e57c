import EndpointAtlas.Proofs.Registration.Advance

/-!
Registering types. The schema of a type is what its names say where they stand, whatever has been
registered before; and when the registration of a type ends, every type that it refers to is
registered or in progress. A type in progress takes one place of the universe, so that the bound is
not reached.
-/

namespace EndpointAtlas.Assembly

open Go

variable {project : Project} {territory : Territory project}

/-- Whether a name can be resolved and its type, unless it is a contract, is seen. -/
def Treated (project : Project) (context : Context) (named : TypeExpr) (state : Assembly) : Prop :=
  project.Settles context named ∧ ∀ target, project.Names context named target →
    target.shape ≠ .contract → state.Seen target

theorem Treated.mono {context : Context} {named : TypeExpr} {before after : Assembly}
    (treated : Treated project context named before) (extended : Extends before after) :
    Treated project context named after :=
  ⟨treated.1, fun target names shown => extended.seen (treated.2 target names shown)⟩

def Registers (territory : Territory project) (register : Declaration → Assemble Unit)
    (inProgress : List Ident) : Prop :=
  ∀ declaration state, territory.types declaration → Consistent territory state →
    state.inProgress = inProgress →
      Advances territory (register declaration) state (fun _ after => after.Seen declaration)
        (¬ territory.HasSchemas)

section Schemas

variable {register : Declaration → Assemble Unit} {context : Context} {inProgress : List Ident}

theorem named_schema_advances (registers : Registers territory register inProgress)
    {named : TypeExpr} (reaches : ∀ target, project.Names context named target →
      target.shape ≠ .contract → territory.types target)
    {state : Assembly} (consistent : Consistent territory state)
    (progress : state.inProgress = inProgress) :
    Advances territory (namedSchema project register context named) state
      (fun schema after => schema = context.namedSchemaOf named ∧
        Treated project context named after)
      (¬ territory.HasSchemas ∨ ¬ project.Settles context named) := by
  unfold namedSchema
  refine Advances.bind_of_except consistent (fun ident identified => ?_) fun failure failed =>
    .inr (Project.not_settles_of_error failed)
  have schema : context.namedSchemaOf named =
      if ident.isPredeclared then primitiveSchema ident.name else .ofReference ident.display := by
    rw [Context.namedSchemaOf, identified]
  by_cases predeclared : ident.isPredeclared = true
  · rw [if_pos predeclared] at schema ⊢
    refine Advances.pure consistent ⟨schema.symm, ⟨ident, identified, .inl predeclared⟩, ?_⟩
    intro target names
    rw [Project.names_iff identified, Project.outcome_of_is_predeclared predeclared] at names
    cases names
  rw [if_neg predeclared] at schema ⊢
  have unsettled : project.outcome? ident = none → ¬ project.Settles context named := by
    intro unread
    rw [Project.settles_iff identified, unread]
    simp [predeclared]
  have looked := lookup_advances consistent ident
  refine (looked.failing fun unread => .inr (unsettled unread)).bind
    fun lookup after consistentAfter extended outcome => ?_
  cases lookup with
  | found declaration =>
      have names : project.Names context named declaration := ⟨ident, identified, outcome⟩
      have settled : project.Settles context named :=
        ⟨ident, identified, .inr (.inr ⟨declaration, outcome⟩)⟩
      by_cases isContract : declaration.shape = .contract
      · simp only [isContract, if_true]
        refine Advances.pure consistentAfter ⟨schema.symm, settled, fun target other shown => ?_⟩
        exact absurd (names.eq other ▸ isContract) shown
      · simp only [isContract, if_false]
        have registered := registers declaration after (reaches declaration names isContract)
          consistentAfter (extended.inProgress.trans progress)
        refine (registered.failing fun unshown => .inl unshown).bind
          fun _ last consistentLast _ seen => ?_
        refine Advances.pure consistentLast ⟨schema.symm, settled, fun target other _ => ?_⟩
        exact names.eq other ▸ seen
  | missing =>
      refine Advances.throw consistentAfter (.inr ?_)
      rw [Project.settles_iff identified, outcome]
      simp [predeclared]
  | external =>
      apply (warn_advances consistentAfter _).bind
      intro _ last consistentLast _ _
      refine Advances.pure consistentLast
        ⟨schema.symm, ⟨ident, identified, .inr (.inl outcome)⟩, fun target names => ?_⟩
      rw [Project.names_iff identified, outcome] at names
      cases names

/-- Whether the types that a type refers to where it stands belong to a territory. -/
def Leads (territory : Territory project) (context : Context) (type : TypeExpr) : Prop :=
  ∀ named target, Mentions type named → project.Names context named target →
    target.shape ≠ .contract → territory.types target

/-- The step ends with the value and with all names in the type treated; or it fails because some
name cannot be resolved. -/
def Shows (territory : Territory project) (context : Context) (type : TypeExpr) {α : Type}
    (step : Assemble α) (state : Assembly) (value : α) : Prop :=
  Advances territory step state
    (fun result after => result = value ∧
      ∀ named, Mentions type named → Treated project context named after)
    (¬ territory.HasSchemas ∨ ∃ named, Mentions type named ∧ ¬ project.Settles context named)

section Rules

variable {type inner : TypeExpr} {α β : Type} {step : Assemble α} {state : Assembly} {value : α}

theorem Leads.of_same (leads : Leads territory context type)
    (same : ∀ named, Mentions type named ↔ Mentions inner named) :
    Leads territory context inner :=
  fun named target mentions => leads named target ((same named).2 mentions)

theorem Shows.of_same (shown : Shows territory context inner step state value)
    (same : ∀ named, Mentions type named ↔ Mentions inner named) :
    Shows territory context type step state value := by
  unfold Shows
  simp only [same]
  exact shown

theorem Shows.map (change : α → β) (shown : Shows territory context type step state value) :
    Shows territory context type (change <$> step) state (change value) := by
  apply Advances.map shown
  rintro result after _ _ ⟨equal, treated⟩
  exact ⟨congrArg change equal, treated⟩

theorem Shows.of_silent (consistent : Consistent territory state)
    (silent : ∀ named, ¬ Mentions type named) :
    Shows territory context type (pure value) state value :=
  Advances.pure consistent ⟨rfl, fun named mentions => absurd mentions (silent named)⟩

theorem Shows.of_named {named : TypeExpr} (only : ∀ other, Mentions type other ↔ other = named)
    (registers : Registers territory register inProgress)
    (leads : Leads territory context type) (consistent : Consistent territory state)
    (progress : state.inProgress = inProgress) :
    Shows territory context type (namedSchema project register context named) state
      (context.namedSchemaOf named) := by
  have mentions := (only named).2 rfl
  apply (named_schema_advances registers (fun target names shown =>
    leads named target mentions names shown) consistent progress).mono
  · rintro schema after - - ⟨equal, treated⟩
    refine ⟨equal, fun other mentionsOther => ?_⟩
    rw [(only other).1 mentionsOther]
    exact treated
  · exact fun failed => failed.imp id fun unsettled => ⟨named, mentions, unsettled⟩

theorem Shows.of_elements {element : TypeExpr} {step : Assemble Schema}
    (same : ∀ named, Mentions type named ↔ isByte element = false ∧ Mentions element named)
    (consistent : Consistent territory state)
    (shown : isByte element = false →
      Shows territory context element step state (context.schemaOf element)) :
    Shows territory context type
      (if isByte element then pure (.ofKind "string") else Schema.arrayOf <$> step) state
      (if isByte element then .ofKind "string" else .arrayOf (context.schemaOf element)) := by
  by_cases bytes : isByte element = true
  · simp only [bytes, if_true]
    apply Shows.of_silent consistent
    simp [same, bytes]
  · have entered : isByte element = false := by simpa using bytes
    rw [if_neg bytes, if_neg bytes]
    have mapped := (shown entered).map Schema.arrayOf
    apply mapped.of_same
    simp [same, entered]

end Rules

mutual

theorem schema_for_shows (registers : Registers territory register inProgress) (type : TypeExpr)
    (leads : Leads territory context type) {state : Assembly}
    (consistent : Consistent territory state) (progress : state.inProgress = inProgress) :
    Shows territory context type (schemaFor project register context type) state
      (context.schemaOf type) := by
  cases type with
  | struct fields =>
      unfold schemaFor Context.schemaOf
      exact (properties_for_shows registers fields leads consistent progress).map structSchema
  | pointer target =>
      have same := fun named => @mentions_pointer_iff target named
      unfold schemaFor Context.schemaOf
      exact (schema_for_shows registers target (leads.of_same same)
        consistent progress).of_same same
  | slice element =>
      have same := fun named => @mentions_slice_iff element named
      unfold schemaFor Context.schemaOf
      apply Shows.of_elements same consistent
      intro entered
      exact schema_for_shows registers element
        (fun named target mentions => leads named target ((same named).2 ⟨entered, mentions⟩))
        consistent progress
  | array element =>
      have same := fun named => @mentions_array_iff element named
      unfold schemaFor Context.schemaOf
      apply Shows.of_elements same consistent
      intro entered
      exact schema_for_shows registers element
        (fun named target mentions => leads named target ((same named).2 ⟨entered, mentions⟩))
        consistent progress
  | map key value =>
      unfold schemaFor Context.schemaOf
      exact Shows.of_silent consistent fun _ mentions => nomatch mentions
  | interface elements =>
      unfold schemaFor Context.schemaOf
      exact Shows.of_silent consistent fun _ mentions => nomatch mentions
  | other text =>
      unfold schemaFor Context.schemaOf
      exact Shows.of_silent consistent fun _ mentions => nomatch mentions
  | ident name =>
      unfold schemaFor Context.schemaOf
      exact Shows.of_named (fun _ => mentions_ident_iff) registers leads consistent progress
  | qualified package name =>
      unfold schemaFor Context.schemaOf
      exact Shows.of_named (fun _ => mentions_qualified_iff) registers leads consistent progress

theorem properties_for_shows (registers : Registers territory register inProgress)
    (fields : List Field) (leads : Leads territory context (.struct fields)) {state : Assembly}
    (consistent : Consistent territory state) (progress : state.inProgress = inProgress) :
    Shows territory context (.struct fields) (propertiesFor project register context fields) state
      (context.propertiesOf fields) := by
  cases fields with
  | nil =>
      unfold propertiesFor Context.propertiesOf
      apply Shows.of_silent consistent
      simp [mentions_struct_iff]
  | cons field rest =>
      obtain ⟨name, type, tag⟩ := field
      have same := fun named => @mentions_struct_cons_iff name tag type named rest
      have others := fun {between : Assembly} (consistentBetween : Consistent territory between)
          (progressBetween : between.inProgress = inProgress) =>
        properties_for_shows registers rest
          (fun named target mentions => leads named target ((same named).2 (.inr mentions)))
          consistentBetween progressBetween
      unfold propertiesFor Context.propertiesOf
      cases labelled : fieldLabel? name type tag with
      | none =>
          apply (others consistent progress).of_same
          simp [same, labelled]
      | some label =>
          simp only [labelled, Option.isSome_some, true_and] at same
          have head := schema_for_shows registers type
            (fun named target mentions => leads named target ((same named).2 (.inl mentions)))
            consistent progress
          unfold Shows
          simp only [same]
          refine (head.failing ?_).bind ?_
          · rintro (unshown | ⟨named, mentions, unsettled⟩)
            · exact .inl unshown
            · exact .inr ⟨named, .inl mentions, unsettled⟩
          rintro schema between consistentBetween extended ⟨rfl, treatedHead⟩
          have tail := others consistentBetween (extended.inProgress.trans progress)
          refine (tail.failing ?_).bind ?_
          · rintro (unshown | ⟨named, mentions, unsettled⟩)
            · exact .inl unshown
            · exact .inr ⟨named, .inr mentions, unsettled⟩
          rintro properties after consistentAfter extendedAfter ⟨rfl, treated⟩
          refine Advances.pure consistentAfter ⟨rfl, fun named mentions => ?_⟩
          rcases mentions with inHead | inRest
          · exact (treatedHead named inHead).mono extendedAfter
          · exact treated named inRest

end

end Schemas

def withType (declaration : Declaration) (inProgress : List Ident) (state : Assembly) : Assembly :=
  { state with
    document := { state.document with
      types := state.document.types.insert declaration.ident.display declaration.entry }
    inProgress }

theorem Consistent.registered_of_contains {state : Assembly} {declaration : Declaration}
    (consistent : Consistent territory state) (inside : territory.types declaration)
    (known : state.document.types.contains declaration.ident.display = true) :
    state.Registered declaration := by
  obtain ⟨type, held⟩ := Option.isSome_iff_exists.1 known
  obtain ⟨other, insideOther, -, shown, rfl⟩ := consistent.types _ _ held
  obtain rfl := (territory.found _ (.inl inside)).eq_of_display
    (territory.found _ (.inl insideOther)) shown
  exact held

theorem enter_of_mem {state : Assembly} {ident : Ident} (member : ident ∈ state.inProgress) :
    enter ident state = .ok false state := by
  unfold enter
  rw [Yields.get_bind_apply, if_pos (by simpa using member)]
  rfl

theorem enter_of_not_mem {state : Assembly} {ident : Ident} (fresh : ident ∉ state.inProgress) :
    enter ident state = .ok true { state with inProgress := ident :: state.inProgress } := by
  unfold enter
  rw [Yields.get_bind_apply, if_neg (by simpa using fresh)]
  rfl

theorem Consistent.enter {state : Assembly} {ident : Ident}
    (consistent : Consistent territory state) (inside : ident ∈ territory.idents)
    (fresh : ident ∉ state.inProgress) :
    Consistent territory { state with inProgress := ident :: state.inProgress } where
  remembers := consistent.remembers
  whole := consistent.whole
  held := consistent.held.cons fresh inside
  types := consistent.types
  closed := fun declaration target within registered refers =>
    (consistent.closed declaration target within registered refers).imp id
      (List.mem_cons_of_mem ident)
  responders := consistent.responders
  answered := consistent.answered

section

variable {state : Assembly} {declaration : Declaration} {inProgress : List Ident}

theorem registered_with_type : (withType declaration inProgress state).Registered declaration := by
  simp [Registered, withType, Table.get_insert]

theorem get_with_type (consistent : Consistent territory state)
    (inside : territory.types declaration) {key : String} {type : TypeSchema}
    (held : state.document.types.get? key = some type) :
    (withType declaration inProgress state).document.types.get? key = some type := by
  show (state.document.types.insert _ _).get? key = some type
  rw [Table.get_insert]
  split
  · rename_i same
    have known : state.document.types.contains declaration.ident.display = true :=
      Option.isSome_iff_exists.2 ⟨type, same ▸ held⟩
    have registered := consistent.registered_of_contains inside known
    rw [Registered, ← same, held] at registered
    exact registered.symm
  · exact held

/-- A type can be registered once all names in it have been treated. -/
theorem Consistent.with_type (consistent : Consistent territory state)
    (inside : territory.types declaration)
    (progress : state.inProgress = declaration.ident :: inProgress)
    (treated : ∀ named, Mentions declaration.spec.type named →
      Treated project declaration.context named state) :
    Consistent territory (withType declaration inProgress state) := by
  have found := territory.found declaration (.inl inside)
  have seen : ∀ target, project.Found target → state.Seen target →
      (Assembly.withType declaration inProgress state).Seen target := by
    intro target foundTarget seen
    rcases seen with registered | entered
    · exact .inl (get_with_type consistent inside registered)
    · rw [progress] at entered
      rcases List.mem_cons.1 entered with same | earlier
      · obtain rfl := foundTarget.eq_of_ident found same
        exact .inl registered_with_type
      · exact .inr earlier
  have held := consistent.held
  rw [progress] at held
  exact {
    remembers := consistent.remembers
    whole := consistent.whole
    held := ⟨(List.nodup_cons.1 held.1).2, fun ident member =>
      held.2 ident (List.mem_cons_of_mem _ member)⟩
    types := by
      intro key type member
      have entry : (state.document.types.insert _ _).get? key = some type := member
      rw [Table.get_insert] at entry
      split at entry
      · rename_i same
        obtain rfl := Option.some.inj entry
        exact ⟨declaration, inside, fun named mentions => (treated named mentions).1, same, rfl⟩
      · exact consistent.types key type entry
    closed := by
      intro other target within registered refers
      have foundTarget : project.Found target := by
        obtain ⟨_, _, names, _⟩ := refers
        exact names.found
      by_cases same : other = declaration
      · subst same
        obtain ⟨named, mentions, names, shown⟩ := refers
        exact seen target foundTarget ((treated named mentions).2 target names shown)
      · have earlier : state.Registered other := by
          have entry : (state.document.types.insert _ _).get? _ = some _ := registered
          rw [Table.get_insert] at entry
          split at entry
          · rename_i shown
            exact absurd ((territory.found other (.inl within)).eq_of_display found shown) same
          · exact entry
        exact seen target foundTarget (consistent.closed other target within earlier refers)
    responders := consistent.responders
    answered := fun contract target within responds answers isRecord =>
      get_with_type consistent inside
        (consistent.answered contract target within responds answers isRecord) }

end

theorem register_type_advances (bound : Nat) (declaration : Declaration) (state : Assembly)
    (inside : territory.types declaration) (consistent : Consistent territory state)
    (room : territory.idents.length < bound + state.inProgress.length) :
    Advances territory (registerType project bound declaration) state
      (fun _ after => after.Seen declaration) (¬ territory.HasSchemas) := by
  induction bound generalizing declaration state with
  | zero =>
      have length := consistent.held.length_le
      omega
  | succ bound ih =>
      unfold registerType
      apply Yields.bind_get
      split
      · rename_i known
        exact Advances.pure consistent (.inl (consistent.registered_of_contains inside known))
      by_cases member : declaration.ident ∈ state.inProgress
      · apply Yields.bind_of_ok (enter_of_mem member)
        exact Advances.pure consistent (.inr member)
      apply Yields.bind_of_ok (enter_of_not_mem member)
      have entered := consistent.enter (territory.inside declaration (.inl inside)) member
      have registers : Registers territory (registerType project bound)
          (declaration.ident :: state.inProgress) := by
        intro other between within consistentBetween progress
        apply ih other between within consistentBetween
        rw [progress, List.length_cons]
        omega
      have schema := schema_for_shows registers declaration.spec.type
        (fun named target mentions names shown => territory.refers declaration target inside
          ⟨named, mentions, names, shown⟩) entered rfl
      have unshown : (¬ territory.HasSchemas ∨ ∃ named, Mentions declaration.spec.type named ∧
          ¬ project.Settles declaration.context named) → ¬ territory.HasSchemas := by
        rintro (unshown | ⟨named, mentions, unsettled⟩)
        · exact unshown
        · exact fun shown => unsettled (shown declaration inside named mentions)
      apply Yields.bind (schema.failing unshown)
      rintro _ between ⟨consistentBetween, extended, rfl, treated⟩
      refine Yields.bind_modify (Yields.modify ?_)
      have progress : between.inProgress = declaration.ident :: state.inProgress :=
        extended.inProgress
      have last : between.inProgress.erase declaration.ident = state.inProgress := by
        rw [progress, List.erase_cons_head]
      rw [last]
      refine ⟨consistentBetween.with_type inside progress treated, ?_, .inl registered_with_type⟩
      exact {
        types := fun key type held =>
          get_with_type consistentBetween inside (extended.types key type held)
        responders := extended.responders
        imports := extended.imports
        controllers := extended.controllers
        inProgress := rfl }

end EndpointAtlas.Assembly
