import EndpointAtlas.Proofs.Registration.Embedding

/-!
What registering keeps. An assembly is consistent if its resolver remembers the project, if its
types and responders are those of declarations that may be registered, and if every type that a
registered type refers to is registered or in progress. A step advances a consistent assembly if it
only adds to it, or fails for a reason that lies in the project.
-/

namespace EndpointAtlas

open Go

/-- The declarations that a document may hold: its types are closed under reference and hold the
records that the responses of its responders carry. -/
structure Territory (project : Project) extends Universe project where
  bound : Nat
  types : Declaration → Prop
  responders : Declaration → Prop
  room : idents.length < bound
  found : ∀ declaration, types declaration ∨ responders declaration → project.Found declaration
  inside : ∀ declaration, types declaration ∨ responders declaration → declaration.ident ∈ idents
  noContract : ∀ declaration, types declaration → declaration.shape ≠ .contract
  contract : ∀ declaration, responders declaration → declaration.shape = .contract
  refers : ∀ declaration target, types declaration → project.Refers declaration target →
    types target
  answers : ∀ contract target, responders contract → project.Answers contract target →
    target.shape = .record → types target

namespace Territory

variable {project : Project}

def scope (territory : Territory project) (contextType : Ident) : Assembly.Scope :=
  ⟨project, contextType, territory.bound⟩

def HasSchemas (territory : Territory project) : Prop :=
  ∀ declaration, territory.types declaration → project.Sound declaration

def HasResponses (territory : Territory project) : Prop :=
  ∀ contract, territory.responders contract →
    (project.responder? territory.bound contract).isSome = true

end Territory

namespace Assembly

def Registered (state : Assembly) (declaration : Declaration) : Prop :=
  state.document.types.get? declaration.ident.display = some declaration.entry

def Responds (state : Assembly) (contract : Declaration) : Prop :=
  state.document.responders.contains contract.ident.display = true

def Seen (state : Assembly) (declaration : Declaration) : Prop :=
  state.Registered declaration ∨ declaration.ident ∈ state.inProgress

structure Consistent {project : Project} (territory : Territory project) (state : Assembly) :
    Prop where
  remembers : Resolver.Remembers project state.resolver
  whole : state.cutShort = false
  held : territory.Holds state.inProgress
  types : ∀ key type, state.document.types.get? key = some type → ∃ declaration,
    territory.types declaration ∧ project.Sound declaration ∧
      key = declaration.ident.display ∧ type = declaration.entry
  closed : ∀ declaration target, territory.types declaration → state.Registered declaration →
    project.Refers declaration target → state.Seen target
  responders : ∀ key responder, state.document.responders.get? key = some responder →
    ∃ contract, territory.responders contract ∧ key = contract.ident.display ∧
      project.responder? territory.bound contract = some responder
  answered : ∀ contract target, territory.responders contract → state.Responds contract →
    project.Answers contract target → target.shape = .record → state.Registered target

/-- Whether an assembly has all types and responders that another one has, and goes on where it
stood. -/
structure Retains (before after : Assembly) : Prop where
  types : ∀ key type, before.document.types.get? key = some type →
    after.document.types.get? key = some type
  responders : ∀ key responder, before.document.responders.get? key = some responder →
    after.document.responders.get? key = some responder
  imports : after.document.imports = before.document.imports
  inProgress : after.inProgress = before.inProgress

structure Extends (before after : Assembly) : Prop extends Retains before after where
  controllers : after.document.controllers = before.document.controllers

namespace Retains

variable {before between after : Assembly}

theorem refl (state : Assembly) : Retains state state :=
  ⟨fun _ _ held => held, fun _ _ held => held, rfl, rfl⟩

theorem trans (first : Retains before between) (second : Retains between after) :
    Retains before after where
  types := fun key type held => second.types key type (first.types key type held)
  responders := fun key responder held =>
    second.responders key responder (first.responders key responder held)
  imports := second.imports.trans first.imports
  inProgress := second.inProgress.trans first.inProgress

theorem registered (retains : Retains before after) {declaration : Declaration}
    (registered : before.Registered declaration) : after.Registered declaration :=
  retains.types _ _ registered

theorem responds (retains : Retains before after) {contract : Declaration}
    (responds : before.Responds contract) : after.Responds contract := by
  obtain ⟨responder, held⟩ := Option.isSome_iff_exists.1 responds
  exact Option.isSome_iff_exists.2 ⟨responder, retains.responders _ _ held⟩

theorem seen (retains : Retains before after) {declaration : Declaration}
    (seen : before.Seen declaration) : after.Seen declaration := by
  rcases seen with registered | entered
  · exact .inl (retains.registered registered)
  · exact .inr (retains.inProgress ▸ entered)

end Retains

namespace Extends

variable {before between after : Assembly}

theorem refl (state : Assembly) : Extends state state := ⟨.refl state, rfl⟩

theorem of_same (document : after.document = before.document)
    (inProgress : after.inProgress = before.inProgress) : Extends before after where
  types := by simp [document]
  responders := by simp [document]
  imports := by rw [document]
  inProgress := inProgress
  controllers := by rw [document]

theorem trans (first : Extends before between) (second : Extends between after) :
    Extends before after :=
  ⟨first.toRetains.trans second.toRetains, second.controllers.trans first.controllers⟩

end Extends

/-- The step ends with a consistent assembly that extends the state and with a value of which the
fact holds; or it fails for the reason, and no bound has ended it. -/
def Advances {project : Project} (territory : Territory project) {α : Type} (step : Assemble α)
    (state : Assembly) (fact : α → Assembly → Prop) (reason : Prop) : Prop :=
  Yields step state
    (fun value after => Consistent territory after ∧ Extends state after ∧ fact value after)
    (fun _ after => after.cutShort = false ∧ reason)

namespace Advances

variable {project : Project} {territory : Territory project} {α β : Type} {step : Assemble α}
  {state : Assembly} {fact : α → Assembly → Prop} {reason : Prop}

protected theorem mono {further : α → Assembly → Prop} {weaker : Prop}
    (advances : Advances territory step state fact reason)
    (onValue : ∀ value after, Consistent territory after → Extends state after →
      fact value after → further value after)
    (onFailure : reason → weaker) : Advances territory step state further weaker :=
  Yields.mono advances
    (fun value after kept => ⟨kept.1, kept.2.1, onValue value after kept.1 kept.2.1 kept.2.2⟩)
    fun _ _ failed => ⟨failed.1, onFailure failed.2⟩

theorem failing {weaker : Prop} (advances : Advances territory step state fact reason)
    (onFailure : reason → weaker) : Advances territory step state fact weaker :=
  advances.mono (fun _ _ _ _ holds => holds) onFailure

protected theorem pure {value : α} (consistent : Consistent territory state)
    (holds : fact value state) : Advances territory (pure value) state fact reason :=
  Yields.pure ⟨consistent, .refl state, holds⟩

protected theorem throw {failure : Failure} (consistent : Consistent territory state)
    (fails : reason) : Advances territory (throw failure : Assemble α) state fact reason :=
  Yields.throw ⟨consistent.whole, fails⟩

protected theorem bind {next : α → Assemble β} {last : β → Assembly → Prop}
    (first : Advances territory step state fact reason)
    (second : ∀ value after, Consistent territory after → Extends state after →
      fact value after → Advances territory (next value) after last reason) :
    Advances territory (step >>= next) state last reason := by
  apply Yields.bind first
  intro value between kept
  obtain ⟨consistent, extended, holds⟩ := kept
  refine Yields.mono (second value between consistent extended holds) ?_ fun _ _ failed => failed
  rintro value after ⟨consistentAfter, extendedAfter, holdsAfter⟩
  exact ⟨consistentAfter, extended.trans extendedAfter, holdsAfter⟩

protected theorem map {change : α → β} {last : β → Assembly → Prop}
    (first : Advances territory step state fact reason)
    (changed : ∀ value after, Consistent territory after → Extends state after →
      fact value after → last (change value) after) :
    Advances territory (change <$> step) state last reason :=
  Yields.map first fun value after kept =>
    ⟨kept.1, kept.2.1, changed value after kept.1 kept.2.1 kept.2.2⟩

theorem bind_of_except {next : α → Assemble β} {last : β → Assembly → Prop}
    {result : Except Failure α} (consistent : Consistent territory state)
    (onValue : ∀ value, result = .ok value → Advances territory (next value) state last reason)
    (onFailure : ∀ failure, result = .error failure → reason) :
    Advances territory (ofExcept result >>= next) state last reason := by
  cases result with
  | ok value => exact onValue value rfl
  | error failure => exact ⟨consistent.whole, onFailure failure rfl⟩

/-- A loop whose rounds give the values of a function gives those of them all, and what a round
tells of its item is still so at the end. -/
protected theorem map_m (items : List α) (told : α → Assembly → Prop) {step : α → Assemble β}
    {value? : α → Option β} (consistent : Consistent territory state)
    (stays : ∀ item before after, Extends before after → told item before → told item after)
    (round : ∀ item ∈ items, ∀ between, Consistent territory between → Extends state between →
      Advances territory (step item) between
        (fun value after => value? item = some value ∧ told item after) reason) :
    Advances territory (items.mapM step) state
      (fun values after => items.mapM value? = some values ∧ ∀ item ∈ items, told item after)
      reason := by
  induction items generalizing state with
  | nil => exact Advances.pure consistent ⟨rfl, by simp⟩
  | cons item rest ih =>
      rw [List.mapM_cons]
      have first := round item List.mem_cons_self state consistent (.refl state)
      apply Advances.bind first
      intro value between consistentBetween extended own
      have later := ih consistentBetween fun other member after consistentAfter extendedAfter =>
        round other (List.mem_cons_of_mem _ member) after consistentAfter
          (extended.trans extendedAfter)
      apply Advances.bind later
      intro values after consistentAfter extendedAfter others
      refine Advances.pure consistentAfter ⟨by simp [own.1, others.1], ?_⟩
      intro other member
      rcases List.mem_cons.1 member with rfl | further
      · exact stays other between after extendedAfter own.2
      · exact others.2 other further

protected theorem filter_map_m (items : List α) (told : α → Assembly → Prop)
    {step : α → Assemble (Option β)} {value? : α → Option (Option β)}
    (consistent : Consistent territory state)
    (stays : ∀ item before after, Extends before after → told item before → told item after)
    (round : ∀ item ∈ items, ∀ between, Consistent territory between → Extends state between →
      Advances territory (step item) between
        (fun value after => value? item = some value ∧ told item after) reason) :
    Advances territory (items.filterMapM step) state
      (fun values after => items.filterMapM value? = some values ∧ ∀ item ∈ items, told item after)
      reason := by
  induction items generalizing state with
  | nil => exact Advances.pure consistent ⟨rfl, by simp⟩
  | cons item rest ih =>
      rw [List.filterMapM_cons]
      have first := round item List.mem_cons_self state consistent (.refl state)
      apply Advances.bind first
      intro value between consistentBetween extended own
      have later := ih consistentBetween fun other member after consistentAfter extendedAfter =>
        round other (List.mem_cons_of_mem _ member) after consistentAfter
          (extended.trans extendedAfter)
      have all : ∀ after, Extends between after → (∀ item ∈ rest, told item after) →
          ∀ other ∈ item :: rest, told other after := by
        intro after extendedAfter others other member
        rcases List.mem_cons.1 member with rfl | further
        · exact stays other between after extendedAfter own.2
        · exact others other further
      cases value with
      | none =>
          refine later.mono (fun values after _ extendedAfter others => ?_) id
          exact ⟨by simp [own.1, others.1], all after extendedAfter others.2⟩
      | some value =>
          apply Advances.bind later
          intro values after consistentAfter extendedAfter others
          exact Advances.pure consistentAfter
            ⟨by simp [own.1, others.1], all after extendedAfter others.2⟩

protected theorem foldl_m (items : List α) {step : β → α → Assemble β}
    (value? : β → α → Option β) (total : β) (consistent : Consistent territory state)
    (round : ∀ item ∈ items, ∀ total between, Consistent territory between →
      Advances territory (step total item) between (fun value _ => value? total item = some value)
        (value? total item = none)) :
    Advances territory (items.foldlM step total) state
      (fun value _ => items.foldlM value? total = some value)
      (items.foldlM value? total = none) := by
  induction items generalizing total state with
  | nil => exact Advances.pure consistent rfl
  | cons item rest ih =>
      rw [List.foldlM_cons]
      have first := round item List.mem_cons_self total state consistent
      refine (first.failing fun absent => by simp [absent]).bind
        fun value between consistentBetween _ own => ?_
      have later := ih value consistentBetween fun other member =>
        round other (List.mem_cons_of_mem _ member)
      exact later.mono (fun last _ _ _ all => by simp [own, all])
        fun absent => by simp [own, absent]

end Advances

section

variable {project : Project} {territory : Territory project} {state : Assembly}

/-- A step that only looks types up advances every consistent assembly. -/
theorem Looks.advances {α : Type} {step : Assemble α} {fact : α → Prop} {reason : Failure → Prop}
    (looks : Looks project step state fact reason) (consistent : Consistent territory state) :
    Advances territory step state (fun value _ => fact value) (∃ failure, reason failure) := by
  apply Yields.mono looks
  · intro value after kept
    obtain ⟨remembers, same, holds⟩ := kept
    rw [same]
    exact ⟨{ consistent with remembers }, .of_same rfl rfl, holds⟩
  · intro failure after failed
    rw [failed.1]
    exact ⟨consistent.whole, failure, failed.2⟩

theorem lookup_advances (consistent : Consistent territory state) (ident : Ident) :
    Advances territory (resolving (Resolver.lookup project ident)) state
      (fun lookup _ => project.outcome? ident = some lookup) (project.outcome? ident = none) :=
  ((lookup_looks consistent.remembers ident).advances consistent).failing
    fun ⟨_, unread, _⟩ => unread

theorem require_declaration_advances (consistent : Consistent territory state) (ident : Ident) :
    Advances territory (requireDeclaration project ident) state
      (fun declaration _ => project.outcome? ident = some (.found declaration))
      (project.finds ident = false) :=
  ((require_declaration_looks consistent.remembers ident).advances consistent).failing
    fun ⟨_, fault⟩ => fault.finds

theorem warn_advances (consistent : Consistent territory state) (warning : Warning)
    {reason : Prop} : Advances territory (warn warning) state (fun _ _ => True) reason :=
  Yields.modify ⟨{ consistent with }, .of_same rfl rfl, trivial⟩

end

end Assembly

end EndpointAtlas
