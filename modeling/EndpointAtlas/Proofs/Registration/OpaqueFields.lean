import EndpointAtlas.Proofs.Registration.Embedding
import EndpointAtlas.Proofs.Registration.Occurrences
import EndpointAtlas.Proofs.Registration.Types
import EndpointAtlas.Proofs.Resolution.FailedReads

/-!
Fields with types outside the module. A registration leaves them as references without an entry, one
warning for each; it fails only for a name that cannot be resolved, wherever that is met, and never
because a type lies outside the module or has an odd form.
-/

namespace EndpointAtlas

open Go

def withEntries (types : Table TypeSchema) (fresh : List Declaration) : Table TypeSchema :=
  fresh.foldl
    (fun types declaration => types.insert declaration.ident.display declaration.entry) types

section

variable {types : Table TypeSchema} {fresh : List Declaration} {key : String}

theorem with_entries_append (types : Table TypeSchema) (fresh others : List Declaration) :
    withEntries types (fresh ++ others) = withEntries (withEntries types fresh) others :=
  List.foldl_append

theorem get_with_entries_of_ne (apart : ∀ declaration ∈ fresh, declaration.ident.display ≠ key) :
    (withEntries types fresh).get? key = types.get? key := by
  induction fresh generalizing types with
  | nil => rfl
  | cons first rest ih =>
      rw [withEntries, List.foldl_cons, ← withEntries, ih, Table.get_insert,
        if_neg (apart first List.mem_cons_self).symm]
      exact fun declaration member => apart declaration (List.mem_cons_of_mem _ member)

theorem get_with_entries_of_mem (distinct : (fresh.map (·.ident.display)).Nodup)
    {declaration : Declaration} (member : declaration ∈ fresh) :
    (withEntries types fresh).get? declaration.ident.display = some declaration.entry := by
  induction fresh generalizing types with
  | nil => cases member
  | cons first rest ih =>
      rw [List.map_cons, List.nodup_cons] at distinct
      rw [withEntries, List.foldl_cons, ← withEntries]
      rcases List.mem_cons.1 member with rfl | later
      · rw [get_with_entries_of_ne, Table.get_insert, if_pos rfl]
        exact fun other within same => distinct.1 (same ▸ List.mem_map_of_mem within)
      · exact ih distinct.2 later

theorem not_contains_with_entries (absent : (withEntries types fresh).contains key = false) :
    types.contains key = false ∧ ∀ declaration ∈ fresh, declaration.ident.display ≠ key := by
  induction fresh generalizing types with
  | nil => exact ⟨absent, by simp⟩
  | cons first rest ih =>
      obtain ⟨before, later⟩ := ih absent
      rw [Table.contains, Table.get_insert] at before
      by_cases same : key = first.ident.display
      · simp [same] at before
      · rw [if_neg same] at before
        exact ⟨before, List.forall_mem_cons.2 ⟨Ne.symm same, later⟩⟩

end

namespace Assembly

open Resolver

/-- Whether a declaration has an entry after a step, unless its registration had begun before or a
bound has been reached. -/
def Settled (before after : Assembly) (target : Declaration) : Prop :=
  after.document.types.contains target.ident.display = true ∨
    target.ident ∈ before.inProgress ∨ after.cutShort = true

/-- An assembly to which a step that met some types has added the entries of some declarations: of
those that it met, and of those that these enter; and a warning for each type outside the module. -/
structure Adds (project : Project) (half : List String) (root : Declaration)
    (before after : Assembly) (fresh : List Declaration) (met : List Encounter) : Prop where
  tracks : Tracks project half after.resolver
  document : after.document =
    { before.document with types := withEntries before.document.types fresh }
  inProgress : after.inProgress = before.inProgress
  cutShort : before.cutShort = true → after.cutShort = true
  visited : ∀ declaration ∈ fresh, project.Visits root declaration
  unheld : ∀ declaration ∈ fresh, declaration.ident ∉ before.inProgress ∧
    before.document.types.contains declaration.ident.display = false
  distinct : (fresh.map (·.ident.display)).Nodup
  settled : ∀ target, .declared target ∈ met → Settled before after target
  closed : ∀ declaration ∈ fresh, ∀ target, project.Enters declaration target →
    Settled before after target
  warned : ∃ added, after.warnings = before.warnings ++ added ∧
    added.Perm ((met.filterMap Encounter.foreign? ++ fresh.flatMap project.foreignOf).map
      .opaqueField)

variable {project : Project} {half : List String} {root : Declaration}

namespace Adds

variable {before between after : Assembly} {fresh others : List Declaration}
  {met more : List Encounter}

theorem of_same (tracks : Tracks project half after.resolver)
    (same : after = { before with resolver := after.resolver }) :
    Adds project half root before after [] [] where
  tracks := tracks
  document := by rw [same]; rfl
  inProgress := by rw [same]
  cutShort := by rw [same]; exact id
  visited := List.forall_mem_nil _
  unheld := List.forall_mem_nil _
  distinct := List.nodup_nil
  settled := by simp
  closed := List.forall_mem_nil _
  warned := ⟨[], by rw [same]; simp, by simp⟩

theorem settled_earlier (second : Adds project half root between after others more)
    {target : Declaration} (settled : Settled before between target) :
    Settled before after target := by
  rcases settled with held | entered | cut
  · left
    rw [second.document]
    by_contra absent
    have before := (not_contains_with_entries (by simpa using absent)).1
    rw [held] at before
    cases before
  · exact .inr (.inl entered)
  · exact .inr (.inr (second.cutShort cut))

theorem settled_later (first : Adds project half root before between fresh met)
    {target : Declaration} (settled : Settled between after target) :
    Settled before after target :=
  settled.imp id (Or.imp (fun entered => first.inProgress ▸ entered) id)

theorem trans (first : Adds project half root before between fresh met)
    (second : Adds project half root between after others more) :
    Adds project half root before after (fresh ++ others) (met ++ more) where
  tracks := second.tracks
  document := by rw [second.document, first.document, with_entries_append]
  inProgress := second.inProgress.trans first.inProgress
  cutShort cut := second.cutShort (first.cutShort cut)
  visited := List.forall_mem_append.2 ⟨first.visited, second.visited⟩
  unheld := by
    refine List.forall_mem_append.2 ⟨first.unheld, fun declaration member => ?_⟩
    obtain ⟨entered, absent⟩ := second.unheld declaration member
    rw [first.document] at absent
    exact ⟨first.inProgress ▸ entered, (not_contains_with_entries absent).1⟩
  distinct := by
    rw [List.map_append, List.nodup_append]
    refine ⟨first.distinct, second.distinct, ?_⟩
    intro shown among other listed same
    obtain ⟨earlier, within, rfl⟩ := List.mem_map.1 among
    obtain ⟨later, member, rfl⟩ := List.mem_map.1 listed
    -- The later one had no entry when the earlier one had been added.
    have absent := (second.unheld later member).2
    rw [first.document] at absent
    exact (not_contains_with_entries absent).2 earlier within same
  settled target member := by
    rcases List.mem_append.1 member with earlier | later
    · exact second.settled_earlier (first.settled target earlier)
    · exact first.settled_later (second.settled target later)
  closed := by
    refine List.forall_mem_append.2 ⟨fun declaration member target enters => ?_,
      fun declaration member target enters => ?_⟩
    · exact second.settled_earlier (first.closed declaration member target enters)
    · exact first.settled_later (second.closed declaration member target enters)
  warned := by
    obtain ⟨added, warnings, perm⟩ := first.warned
    obtain ⟨further, last, permFurther⟩ := second.warned
    refine ⟨added ++ further, by rw [last, warnings, List.append_assoc], ?_⟩
    refine (perm.append permFurther).trans ?_
    rw [← List.map_append, List.flatMap_append, List.filterMap_append]
    apply List.Perm.map
    simp only [List.append_assoc]
    exact List.Perm.append_left _ (List.perm_append_comm_assoc _ _ _)

theorem meets (added : Adds project half root before after fresh []) {target : Declaration}
    (settled : Settled before after target) :
    Adds project half root before after fresh [.declared target] :=
  { added with settled := by simpa using settled }

end Adds

def Notes (project : Project) (half : List String) (root : Declaration) {α : Type}
    (step : Assemble α) (state : Assembly) (value : α) (met : List Encounter) : Prop :=
  Yields step state
    (fun result after => result = value ∧ ∃ fresh, Adds project half root state after fresh met)
    (fun failure _ => project.FaultFrom half root failure)

namespace Notes

variable {α β : Type} {step : Assemble α} {state : Assembly} {value : α} {met : List Encounter}

protected theorem pure (tracks : Tracks project half state.resolver) :
    Notes project half root (pure value) state value [] :=
  Yields.pure ⟨rfl, [], .of_same tracks rfl⟩

protected theorem map (change : α → β) (notes : Notes project half root step state value met) :
    Notes project half root (change <$> step) state (change value) met := by
  apply Yields.map notes
  intro result after noted
  obtain ⟨rfl, added⟩ := noted
  exact ⟨rfl, added⟩

theorem continues {before : Assembly} {fresh : List Declaration} {earlier : List Encounter}
    (added : Adds project half root before state fresh earlier)
    (notes : Notes project half root step state value met) :
    Yields step state
      (fun result after => result = value ∧
        ∃ all, Adds project half root before after all (earlier ++ met))
      (fun failure _ => project.FaultFrom half root failure) := by
  apply Yields.mono notes
  · intro result after noted
    obtain ⟨same, others, further⟩ := noted
    exact ⟨same, fresh ++ others, added.trans further⟩
  · exact fun _ _ failed => failed

protected theorem bind {next : α → Assemble β} {last : β} {more : List Encounter}
    (first : Notes project half root step state value met)
    (second : ∀ between, Tracks project half between.resolver →
      Notes project half root (next value) between last more) :
    Notes project half root (step >>= next) state last (met ++ more) := by
  apply Yields.bind first
  intro result between noted
  obtain ⟨rfl, fresh, added⟩ := noted
  exact (second between added.tracks).continues added

theorem warn (tracks : Tracks project half state.resolver) (ident : Ident) :
    Notes project half root (Assembly.warn (.opaqueField ident)) state () [.foreign ident] := by
  refine Yields.modify ⟨rfl, [], { Adds.of_same tracks rfl with
    settled := by simp
    warned := ?_ }⟩
  exact ⟨[.opaqueField ident], rfl, by simp [Encounter.foreign?]⟩

end Notes

def RegistersFrom (project : Project) (half : List String) (root : Declaration)
    (register : Declaration → Assemble Unit) : Prop :=
  ∀ target state, project.Visits root target → Tracks project half state.resolver →
    Notes project half root (register target) state () [.declared target]

section Schemas

variable {register : Declaration → Assemble Unit} {owner : Declaration}

/-- A look-up ends with the outcome of the files that were read, or a file cannot be read. -/
theorem lookup_notes (ident : Ident) {state : Assembly}
    (tracks : Tracks project half state.resolver) :
    Yields (resolving (Resolver.lookup project ident)) state
      (fun lookup after => project.heldOutcome ident = lookup ∧
        Adds project half root state after [] [] ∧
        (project.requests ident = true → ident.package ∈ after.resolver.loaded))
      (fun failure _ => project.requests ident = true ∧
        project.ReadFault ident.package failure) := by
  apply (resolving_yields (lookup_step project ident state.resolver)).mono
  · intro lookup after step
    obtain ⟨same, looked⟩ := step
    obtain ⟨held, tracksAfter⟩ := looked.answers tracks
    exact ⟨held, .of_same tracksAfter same, looked.reads tracks⟩
  · intro failure after step
    exact ⟨step.2.requested, step.2.fault⟩

theorem named_schema_notes (registers : RegistersFrom project half root register)
    (visited : project.Visits root owner) {named : TypeExpr}
    (member : named ∈ namesIn owner.spec.type) {state : Assembly}
    (tracks : Tracks project half state.resolver) :
    Notes project half root (namedSchema project register owner.context named) state
      (owner.context.namedSchemaOf named) (project.encounter? owner.context named).toList := by
  have fault {failure : Failure} (why : project.NameFault half owner.context named failure) :
      project.FaultFrom half root failure := ⟨owner, named, visited, member, why⟩
  unfold namedSchema
  cases identified : owner.context.identify named with
  | error failure => exact Yields.throw (fault (Project.name_fault_of_identify member identified))
  | ok ident =>
      rw [Project.encounter_of_identified identified, Context.namedSchemaOf, identified]
      apply Yields.bind_pure
      by_cases predeclared : ident.isPredeclared = true
      · rw [Project.held_outcome_of_is_predeclared predeclared]
        simp only [predeclared, if_true]
        exact Notes.pure tracks
      have looked := @lookup_notes project half root ident state tracks
      dsimp only
      rw [if_neg predeclared, if_neg predeclared]
      apply Yields.bind (looked.mono (fun _ _ looked => looked)
        fun failure _ failed => fault (.unread identified failed.1 failed.2))
      intro lookup between ended
      obtain ⟨held, added, loaded⟩ := ended
      have tracksBetween := added.tracks
      apply Notes.continues added
      have declared : ident.isPredeclared = false := by simpa using predeclared
      rw [held]
      cases lookup with
      | found declaration =>
          by_cases isContract : declaration.shape = .contract
          · simp only [isContract, if_true]
            exact Notes.pure tracksBetween
          · simp only [isContract, if_false]
            have met : .declared declaration ∈ project.encountersOf owner := by
              refine List.mem_filterMap.2 ⟨named, member, ?_⟩
              rw [Project.encounter_of_identified identified, held]
              exact if_neg isContract
            have registered := registers declaration between (visited.tail met) tracksBetween
            exact registered.bind fun _ tracksAfter => Notes.pure tracksAfter
      | missing =>
          have requested : project.requests ident = true :=
            Project.requests_of_ne_external declared (by simp [held])
          refine Yields.throw (fault (Project.name_fault_of_missing identified requested held ?_))
          exact fun unread => tracksBetween.noted _ (loaded requested) unread
      | external =>
          exact (Notes.warn tracksBetween ident).bind fun _ tracksAfter => Notes.pure tracksAfter

def NotesSchema (project : Project) (half : List String) (root owner : Declaration)
    (register : Declaration → Assemble Unit) (type : TypeExpr) : Prop :=
  namesIn type ⊆ namesIn owner.spec.type → ∀ state, Tracks project half state.resolver →
    Notes project half root (schemaFor project register owner.context type) state
      (owner.context.schemaOf type) (project.encountersIn owner.context type)

theorem elements_notes {element : TypeExpr} {step : Assemble Schema} {schema : Schema}
    {met : List Encounter} {state : Assembly} (tracks : Tracks project half state.resolver)
    (notes : isByte element = false → Notes project half root step state schema met) :
    Notes project half root
      (if isByte element then pure (.ofKind "string") else Schema.arrayOf <$> step) state
      (if isByte element then .ofKind "string" else .arrayOf schema)
      (if isByte element then [] else met) := by
  by_cases bytes : isByte element = true
  · simp only [bytes, if_true]
    exact Notes.pure tracks
  · simp only [if_neg bytes]
    exact (notes (by simpa using bytes)).map Schema.arrayOf

theorem properties_for_notes {fields : List Field}
    (each : ∀ field ∈ fields, NotesSchema project half root owner register field.type)
    (part : namesInFields fields ⊆ namesIn owner.spec.type) {state : Assembly}
    (tracks : Tracks project half state.resolver) :
    Notes project half root (propertiesFor project register owner.context fields) state
      (owner.context.propertiesOf fields)
      ((namesInFields fields).filterMap (project.encounter? owner.context)) := by
  induction fields generalizing state with
  | nil =>
      unfold propertiesFor Context.propertiesOf
      exact Notes.pure tracks
  | cons field rest ih =>
      obtain ⟨name, type, tag⟩ := field
      have later := fun field member => each field (List.mem_cons_of_mem _ member)
      unfold propertiesFor Context.propertiesOf
      unfold namesInFields at part ⊢
      cases labelled : fieldLabel? name type tag with
      | none =>
          simp only [labelled] at part
          exact ih later part tracks
      | some label =>
          simp only [labelled] at part
          rw [List.filterMap_append]
          have head := each _ List.mem_cons_self
            (fun _ member => part (List.mem_append_left _ member)) state tracks
          refine head.bind fun between tracksBetween => ?_
          have tail := ih later (fun _ member => part (List.mem_append_right _ member))
            tracksBetween
          rw [← List.append_nil (List.filterMap _ (namesInFields rest))]
          exact tail.bind fun _ tracksAfter => Notes.pure tracksAfter

theorem schema_for_notes (registers : RegistersFrom project half root register)
    (visited : project.Visits root owner) (type : TypeExpr) :
    NotesSchema project half root owner register type := by
  induction type using TypeExpr.by_fields with
  | ident name =>
      intro part state tracks
      unfold schemaFor Context.schemaOf
      exact named_schema_notes registers visited (part List.mem_cons_self) tracks
  | qualified package name =>
      intro part state tracks
      unfold schemaFor Context.schemaOf
      exact named_schema_notes registers visited (part List.mem_cons_self) tracks
  | pointer target ih =>
      intro part state tracks
      unfold schemaFor Context.schemaOf
      exact ih part state tracks
  | slice element ih =>
      intro part state tracks
      unfold schemaFor Context.schemaOf
      rw [Project.encounters_in_slice]
      apply elements_notes tracks
      intro entered
      rw [namesIn, if_neg (by simp [entered])] at part
      exact ih part state tracks
  | array element ih =>
      intro part state tracks
      unfold schemaFor Context.schemaOf
      rw [Project.encounters_in_array]
      apply elements_notes tracks
      intro entered
      rw [namesIn, if_neg (by simp [entered])] at part
      exact ih part state tracks
  | struct fields ih =>
      intro part state tracks
      unfold schemaFor Context.schemaOf
      exact (properties_for_notes ih part tracks).map structSchema
  | map key value | interface elements | other text =>
      intro part state tracks
      unfold schemaFor Context.schemaOf
      exact Notes.pure tracks

end Schemas

theorem contains_with_type {state : Assembly} {declaration : Declaration} {inProgress : List Ident}
    {key : String}
    (held : state.document.types.contains key = true ∨ key = declaration.ident.display) :
    (withType declaration inProgress state).document.types.contains key = true := by
  show (state.document.types.insert _ _).contains _ = true
  rw [Table.contains, Table.get_insert]
  split
  · rfl
  · rename_i apart
    exact held.resolve_right apart

/-- What is settled while a type is in progress is settled by the end of that type, which has its
own entry then. -/
theorem Settled.with_type {state after : Assembly} {declaration target : Declaration}
    (settled : Settled { state with inProgress := declaration.ident :: state.inProgress } after
      target) (inProgress : List Ident) :
    Settled state (withType declaration inProgress after) target := by
  rcases settled with entry | entered | cut
  · exact .inl (contains_with_type (.inl entry))
  · rcases List.mem_cons.1 entered with same | earlier
    · exact .inl (contains_with_type (.inr (congrArg Ident.display same)))
    · exact .inr (.inl earlier)
  · exact .inr (.inr cut)

/-- A type whose schema has been made with all that it meets is added after that. -/
theorem Adds.register {state after : Assembly} {declaration : Declaration}
    {fresh : List Declaration} (offered : project.Offers root)
    (visited : project.Visits root declaration) (free : declaration.ident ∉ state.inProgress)
    (absent : state.document.types.contains declaration.ident.display = false)
    (added : Adds project half root
      { state with inProgress := declaration.ident :: state.inProgress } after fresh
      (project.encountersOf declaration)) :
    Adds project half root state
      (withType declaration (after.inProgress.erase declaration.ident) after)
      (fresh ++ [declaration]) [.declared declaration] := by
  refine Adds.meets ?_ (.inl (contains_with_type (.inr rfl)))
  constructor
  case tracks => exact added.tracks
  case document =>
    have inserted := congrArg (fun document : Document => { document with
      types := document.types.insert declaration.ident.display declaration.entry }) added.document
    rw [with_entries_append]
    exact inserted
  case inProgress =>
    show after.inProgress.erase _ = _
    rw [added.inProgress, List.erase_cons_head]
  case cutShort => exact added.cutShort
  case visited => exact List.forall_mem_append.2 ⟨added.visited, by simpa using visited⟩
  case unheld =>
    refine List.forall_mem_append.2 ⟨fun other member => ?_, by simpa using ⟨free, absent⟩⟩
    obtain ⟨entered, unheld⟩ := added.unheld other member
    exact ⟨fun within => entered (List.mem_cons_of_mem _ within), unheld⟩
  case distinct =>
    rw [List.map_append, List.nodup_append]
    refine ⟨added.distinct, by simp, ?_⟩
    intro shown among other single same
    obtain ⟨earlier, within, rfl⟩ := List.mem_map.1 among
    obtain rfl : other = declaration.ident.display := by simpa using single
    have equal := (offered.of_visits (added.visited earlier within)).ident_eq
      (offered.of_visits visited) same
    exact (added.unheld earlier within).1 (equal ▸ List.mem_cons_self)
  case settled => simp
  case closed =>
    refine List.forall_mem_append.2 ⟨fun other member target enters => ?_, ?_⟩
    · exact (added.closed other member target enters).with_type _
    · intro other single target enters
      obtain rfl := List.mem_singleton.1 single
      exact (added.settled target enters).with_type _
  case warned =>
    obtain ⟨warnings, last, perm⟩ := added.warned
    refine ⟨warnings, last, perm.trans (List.Perm.map _ ?_)⟩
    rw [List.flatMap_append, List.flatMap_singleton]
    exact List.perm_append_comm

/-- Registering a visited declaration adds what it meets on its way. -/
theorem register_type_notes (offered : project.Offers root) (bound : Nat) :
    RegistersFrom project half root (registerType project bound) := by
  induction bound with
  | zero =>
      intro declaration state visited tracks
      have added : Adds project half root state { state with cutShort := true } [] [] :=
        { Adds.of_same tracks rfl with
          cutShort := fun _ => rfl
          settled := by simp
          closed := by simp }
      exact Yields.modify ⟨rfl, [], added.meets (.inr (.inr rfl))⟩
  | succ bound ih =>
      intro declaration state visited tracks
      have same : Adds project half root state state [] [] := .of_same tracks rfl
      unfold registerType
      apply Yields.bind_get
      split
      · rename_i held
        exact Yields.pure ⟨rfl, [], same.meets (.inl held)⟩
      rename_i absent
      by_cases entered : declaration.ident ∈ state.inProgress
      · apply Yields.bind_of_ok (enter_of_mem entered)
        exact Yields.pure ⟨rfl, [], same.meets (.inr (.inl entered))⟩
      apply Yields.bind_of_ok (enter_of_not_mem entered)
      have schema := schema_for_notes ih visited declaration.spec.type (List.Subset.refl _)
        { state with inProgress := declaration.ident :: state.inProgress } tracks
      apply Yields.bind schema
      intro result after noted
      obtain ⟨rfl, fresh, added⟩ := noted
      apply Yields.bind_modify
      refine Yields.modify ⟨rfl, fresh ++ [declaration], ?_⟩
      exact added.register offered visited entered (by simpa using absent)

/-- What a registration that ends has added: some declarations with their schemas, references for
the types outside the module in them, and one warning for each of these. -/
structure LeavesOpaque (project : Project) (root : Declaration) (before after : Assembly)
    (fresh : List Declaration) : Prop where
  /-- The declaration has an entry, and so has each one that is entered from an added one. -/
  began : Settled before after root
  closed : ∀ declaration ∈ fresh, ∀ target, project.Enters declaration target →
    Settled before after target
  visited : ∀ declaration ∈ fresh, project.Visits root declaration
  /-- The entries of the declarations are new, and no others are. -/
  entries : ∀ declaration ∈ fresh,
    before.document.types.contains declaration.ident.display = false ∧
      after.document.types.get? declaration.ident.display = some declaration.entry
  others : ∀ key, (∀ declaration ∈ fresh, declaration.ident.display ≠ key) →
    after.document.types.get? key = before.document.types.get? key
  /-- Wherever a type outside the module is shown, a reference to it stands. -/
  shown : ∀ declaration ∈ fresh, ∀ place named ident,
    ShownAt place declaration.spec.type named →
      project.encounter? declaration.context named = some (.foreign ident) →
        ∃ schema, declaration.entry.schema = some schema ∧
          schema.at? place = some (.ofReference ident.display)
  unlisted : ∀ declaration ∈ fresh, ∀ ident ∈ project.foreignOf declaration,
    after.document.types.get? ident.display = before.document.types.get? ident.display
  warned : ∃ added, after.warnings = before.warnings ++ added ∧
    added.Perm ((fresh.flatMap project.foreignOf).map .opaqueField)

/-- A registration fails for a name that cannot be resolved in a declaration that is visited, and
for nothing else. -/
structure FailsToResolve (project : Project) (half : List String) (root : Declaration)
    (failure : Failure) : Prop where
  fault : project.FaultFrom half root failure
  kind : (∃ name package, failure = .unknownImport name package) ∨
    (∃ ident, failure = .typeNotFound ident) ∨ ∃ file, failure = .syntaxError file

theorem Adds.leaves_opaque_root {before after : Assembly} {fresh : List Declaration}
    (added : Adds project half root before after fresh [.declared root])
    (offered : project.Offers root) : LeavesOpaque project root before after fresh where
  began := added.settled root List.mem_cons_self
  closed := added.closed
  visited := added.visited
  entries declaration member := by
    rw [added.document]
    exact ⟨(added.unheld declaration member).2, get_with_entries_of_mem added.distinct member⟩
  others key apart := by
    rw [added.document]
    exact get_with_entries_of_ne apart
  shown declaration _ place named ident shown foreign := by
    refine ⟨_, rfl, ?_⟩
    rw [at_schema_of shown, Project.schema_of_foreign foreign]
  unlisted declaration member ident foreign := by
    rw [added.document]
    apply get_with_entries_of_ne
    intro other within
    exact (offered.of_visits (added.visited other within)).display_ne
      (offered.of_visits (added.visited declaration member)) foreign
  warned := added.warned

theorem fails_to_resolve {failure : Failure} (fault : project.FaultFrom half root failure) :
    FailsToResolve project half root failure := by
  refine ⟨fault, ?_⟩
  obtain ⟨owner, named, -, -, why⟩ := fault
  cases why with
  | unimported => exact .inl ⟨_, _, rfl⟩
  | undeclared | forgotten => exact .inr (.inl ⟨_, rfl⟩)
  | unread _ _ unreadable =>
      obtain ⟨dir, file, later, -, -, -, same⟩ := unreadable
      exact .inr (.inr ⟨_, same⟩)

/-- Types outside the module and odd types never fail the registration of a declaration of the
project, whatever was looked up before and however deep in the graph of types they stand. -/
theorem leaves_opaque_of_register_type {state : Assembly} {declaration : Declaration}
    (offered : project.Offers declaration)
    (reachable : Resolver.Reachable project state.resolver) (bound : Nat) :
    Yields (registerType project bound declaration) state
      (fun _ after => ∃ fresh, LeavesOpaque project declaration state after fresh)
      (fun failure _ =>
        FailsToResolve project (state.resolver.halfRead project) declaration failure) := by
  apply Yields.mono (register_type_notes offered bound declaration state .refl reachable.tracks)
  · intro _ after registered
    obtain ⟨-, fresh, added⟩ := registered
    exact ⟨fresh, added.leaves_opaque_root offered⟩
  · exact fun _ _ fault => fails_to_resolve fault

def declarationFor? (project : Project) (ident : Ident) : Option Declaration :=
  match project.heldOutcome ident with
  | .found declaration => some declaration
  | _ => none

theorem offers_of_declaration_for {ident : Ident} {declaration : Declaration}
    (found : declarationFor? project ident = some declaration) : project.Offers declaration := by
  unfold declarationFor? at found
  split at found
  · rename_i other held
    obtain rfl := Option.some.inj found
    exact .of_held_outcome held
  · cases found

def timesProject : Project :=
  ⟨⟨[(["a.go"], .file (Text.Glyph.ofString ("package m\nimport \"time\"\n" ++
    "type S struct \x7b At time.Time; Until []*time.Time; Next *U \x7d\n" ++
    "type U struct \x7b F func(); From time.Time \x7d\n")) false)], by decide⟩, ⟨"/"⟩, "m", false⟩

def registration? (project : Project) (state : Assembly) (ident : Ident) :
    Option (Option Failure × List Warning × List String) :=
  (declarationFor? project ident).map fun declaration =>
    match registerType project 3 declaration state with
    | .ok _ after => (none, after.warnings, after.document.types.keys)
    | .error failure after => (some failure, after.warnings, after.document.types.keys)

/-- All three times are passed over with a warning. -/
theorem leaves_opaque_times_project : ∃ declaration after fresh,
    timesProject.Offers declaration ∧
      registerType timesProject 3 declaration .initial = .ok () after ∧
        after.warnings = List.replicate 3 (.opaqueField ⟨"time", "Time"⟩) ∧
          after.document.types.keys = ["m S", "m U"] ∧
            LeavesOpaque timesProject declaration .initial after fresh := by
  have shown : registration? timesProject .initial ⟨"m", "S"⟩ = some (none,
      List.replicate 3 (.opaqueField ⟨"time", "Time"⟩), ["m S", "m U"]) := by decide +kernel
  obtain ⟨declaration, found, shown⟩ := Option.map_eq_some_iff.1 shown
  have offered := offers_of_declaration_for found
  have reachable : Resolver.Reachable timesProject initial.resolver := ⟨[], rfl⟩
  cases ran : registerType timesProject 3 declaration .initial with
  | error failure after => simp [ran] at shown
  | ok result after =>
      obtain ⟨fresh, leaves⟩ := (leaves_opaque_of_register_type offered reachable 3).of_ok ran
      simp only [ran, Prod.mk.injEq, true_and] at shown
      exact ⟨declaration, after, fresh, offered, ran, shown.1, shown.2, leaves⟩

def sharedProject : Project where
  tree := ⟨[
    (["a.go"], .file (Text.Glyph.ofString
      "package m\nimport \"m/p\"\ntype S struct \x7b F p.T \x7d\n") false),
    (["p"], .directory),
    (["p", "b.go"], .file (Text.Glyph.ofString "package p\nfunc \x7b\n") false),
    (["p", "t.go"], .file (Text.Glyph.ofString "package p\ntype T struct \x7b\x7d\n") false)],
    by decide⟩
  root := ⟨"/"⟩
  module := "m"
  includeTests := false

def sharedState : Assembly :=
  { initial with resolver := (Resolver.ask sharedProject .initial ⟨"m/p", "T"⟩).2 }

/-- After that the registration fails because the type of the field is missing, although a file
declares it. -/
theorem not_undeclared_shared_project : Resolver.Reachable sharedProject sharedState.resolver ∧
    (∃ declaration after, sharedProject.Offers declaration ∧
      registerType sharedProject 3 declaration sharedState =
        .error (.typeNotFound ⟨"m/p", "T"⟩) after) ∧
      ∃ file ∈ sharedProject.filesOf "m/p", ∃ source,
        SourceFile.ofSource? file.2 = some source ∧ ∃ spec ∈ source.types, spec.name = "T" := by
  refine ⟨⟨[⟨"m/p", "T"⟩], rfl⟩, ?_, Resolver.exists_of_is_declared_in (by decide +kernel)⟩
  have shown : registration? sharedProject sharedState ⟨"m", "S"⟩ =
      some (some (.typeNotFound ⟨"m/p", "T"⟩), [], []) := by decide +kernel
  obtain ⟨declaration, found, shown⟩ := Option.map_eq_some_iff.1 shown
  have offered := offers_of_declaration_for found
  cases ran : registerType sharedProject 3 declaration sharedState with
  | ok result after => simp [ran] at shown
  | error failure after =>
      simp only [ran, Prod.mk.injEq, Option.some.injEq] at shown
      obtain rfl := shown.1
      exact ⟨declaration, after, offered, ran⟩

end Assembly

end EndpointAtlas
