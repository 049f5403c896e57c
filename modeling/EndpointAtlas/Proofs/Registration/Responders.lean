import EndpointAtlas.Proofs.Registration.Types

/-!
Registering responders. The methods of a contract are those that the project gives it, whatever has
been looked up before, and every record that one of its responses carries is registered before the
responder is.
-/

namespace EndpointAtlas.Assembly

open Go

variable {project : Project} {territory : Territory project}

theorem contract_methods_advances {contract : Declaration} (found : project.Found contract)
    (inside : contract.ident ∈ territory.idents) {entered : List Ident}
    (held : territory.Holds entered) {state : Assembly} (consistent : Consistent territory state) :
    Advances territory ((contractMethods project territory.bound contract).run entered) state
      (fun result _ => project.methods? territory.bound contract entered = some result)
      (project.methods? territory.bound contract entered = none) :=
  have room := Nat.lt_of_lt_of_le territory.room (Nat.le_add_right _ entered.length)
  ((contract_methods_looks _ _ contract entered state found inside held room
    consistent.remembers).advances consistent).failing fun ⟨_, absent, _⟩ => absent

theorem finds_of_found {ident : Ident} {target : Declaration}
    (outcome : project.outcome? ident = some (.found target)) : project.finds ident = true := by
  rw [Project.finds, outcome]

theorem filter_map_m_eq_none {α β : Type} {value? : α → Option (Option β)} {items : List α}
    {item : α}
    (member : item ∈ items) (absent : value? item = none) : items.filterMapM value? = none := by
  induction items with
  | nil => cases member
  | cons head rest ih =>
      rw [List.filterMapM_cons]
      rcases List.mem_cons.1 member with rfl | further
      · rw [absent]
        rfl
      · have later := ih further
        cases value? head with
        | none => rfl
        | some value => cases value <;> simp [later]

theorem map_m_eq_none {α β : Type} {value? : α → Option β} {items : List α} {item : α}
    (member : item ∈ items) (absent : value? item = none) : items.mapM value? = none := by
  induction items with
  | nil => cases member
  | cons head rest ih =>
      rw [List.mapM_cons]
      rcases List.mem_cons.1 member with rfl | further
      · rw [absent]
        rfl
      · have later := ih further
        cases value? head with
        | none => rfl
        | some value => simp [later]

/-- The record that a type names, if it names one where it stands, is seen. -/
def RecordSeen (project : Project) (context : Context) (param : Param) (state : Assembly) : Prop :=
  param.name.isSome = true → ∀ target, project.Names context param.type target →
    target.shape = .record → state.Seen target

theorem RecordSeen.mono {context : Context} {param : Param} {before after : Assembly}
    (seen : RecordSeen project context param before) (extended : Extends before after) :
    RecordSeen project context param after :=
  fun named target names isRecord => extended.seen (seen named target names isRecord)

section Responses

variable (contextType : Ident) (responder : String) (placed : PlacedMethod) {state : Assembly}

theorem response_param_advances (param : Param)
    (reaches : param.name.isSome = true → ∀ target, project.Names placed.context param.type target →
      target.shape = .record → territory.types target)
    (consistent : Consistent territory state) :
    Advances territory (responseParam (territory.scope contextType) responder placed param) state
      (fun value after => project.responseParam? placed.context param = some value ∧
        RecordSeen project placed.context param after)
      (¬ territory.HasSchemas ∨ project.responseParam? placed.context param = none) := by
  unfold responseParam Project.responseParam?
  cases called : param.name with
  | none =>
      apply (warn_advances consistent _).bind
      intro _ after consistentAfter _ _
      exact Advances.pure consistentAfter ⟨rfl, by simp [RecordSeen, called]⟩
  | some name =>
      have named : param.name.isSome = true := by simp [called]
      dsimp only
      refine Advances.bind_of_except consistent (fun ident identified => ?_)
        fun failure failed => by
        rw [failed]
        exact .inr rfl
      simp only [identified]
      by_cases predeclared : ident.isPredeclared = true
      · simp only [predeclared, if_true, Bool.true_or]
        refine Advances.pure consistent ⟨rfl, fun _ target names => ?_⟩
        rw [Project.names_iff identified, Project.outcome_of_is_predeclared predeclared] at names
        cases names
      simp only [predeclared, Bool.false_eq_true, if_false, Bool.false_or]
      have required := require_declaration_advances consistent ident
      refine (required.failing fun absent => ?_).bind
        fun declaration after consistentAfter _ outcome => ?_
      · simp [absent]
      have names : project.Names placed.context param.type declaration :=
        ⟨ident, identified, outcome⟩
      simp only [finds_of_found outcome, if_true]
      by_cases isRecord : declaration.shape = .record
      · simp only [isRecord, if_true]
        have registered := register_type_advances territory.bound declaration after
          (reaches named declaration names isRecord) consistentAfter
          (Nat.lt_of_lt_of_le territory.room (Nat.le_add_right _ _))
        refine (registered.failing fun unshown => .inl unshown).bind
          fun _ last consistentLast _ seen => ?_
        exact Advances.pure consistentLast ⟨rfl, fun _ target other _ => names.eq other ▸ seen⟩
      · simp only [isRecord, if_false]
        refine Advances.pure consistentAfter ⟨rfl, fun _ target other record => ?_⟩
        exact absurd (names.eq other ▸ record) isRecord

theorem response_of_advances
    (reaches : ∀ param ∈ placed.method.params, param.name.isSome = true →
      ∀ target, project.Names placed.context param.type target →
        target.shape = .record → territory.types target)
    (consistent : Consistent territory state) :
    Advances territory (responseOf (territory.scope contextType) responder placed) state
      (fun value after => project.response? placed = some value ∧
        ∀ param ∈ placed.method.params, RecordSeen project placed.context param after)
      (¬ territory.HasSchemas ∨ project.response? placed = none) := by
  unfold responseOf Project.response?
  have params := Advances.filter_map_m placed.method.params (RecordSeen project placed.context)
    consistent (fun _ _ _ extended seen => seen.mono extended)
    fun param member between consistentBetween _ =>
      (response_param_advances contextType responder placed param (reaches param member)
        consistentBetween).failing fun failed =>
          failed.imp id fun absent => filter_map_m_eq_none member absent
  refine (params.failing fun failed => ?_).bind
    fun values after consistentAfter _ told => ?_
  · exact failed.imp id fun absent => by simp [absent]
  · exact Advances.pure consistentAfter ⟨by simp [told.1], told.2⟩

end Responses

def withResponder (contract : Declaration) (responder : Responder) (state : Assembly) : Assembly :=
  { state with
    document := { state.document with
      responders := state.document.responders.insert contract.ident.display responder }
    inProgress := state.inProgress.erase contract.ident }

section

variable {state : Assembly} {contract : Declaration} {responder : Responder}

theorem responds_with_responder : (withResponder contract responder state).Responds contract := by
  simp [Responds, withResponder, Table.contains, Table.get_insert]

theorem get_with_responder (consistent : Consistent territory state)
    (inside : territory.responders contract)
    (shown : project.responder? territory.bound contract = some responder) {key : String}
    {earlier : Responder} (held : state.document.responders.get? key = some earlier) :
    (withResponder contract responder state).document.responders.get? key = some earlier := by
  show (state.document.responders.insert _ _).get? key = some earlier
  rw [Table.get_insert]
  split
  · rename_i same
    obtain ⟨other, insideOther, shownOther, answer⟩ := consistent.responders _ _ held
    obtain rfl := (territory.found _ (.inr insideOther)).eq_of_display
      (territory.found _ (.inr inside)) (shownOther.symm.trans same)
    rw [← answer, shown]
  · exact held

/-- A responder can be registered once the records of its responses are. -/
theorem Consistent.with_responder (consistent : Consistent territory state)
    (inside : territory.responders contract) (progress : state.inProgress = [contract.ident])
    (shown : project.responder? territory.bound contract = some responder)
    (seen : ∀ target, project.Answers contract target → target.shape = .record →
      state.Seen target) :
    Consistent territory (withResponder contract responder state) := by
  have found := territory.found contract (.inr inside)
  have atRest : (Assembly.withResponder contract responder state).inProgress = [] := by
    simp [Assembly.withResponder, progress]
  have registered : ∀ target, project.Found target → target.shape ≠ .contract →
      state.Seen target → state.Registered target := by
    intro target foundTarget other seen
    rcases seen with registered | entered
    · exact registered
    · rw [progress] at entered
      obtain rfl := foundTarget.eq_of_ident found (List.mem_singleton.1 entered)
      exact absurd (territory.contract target inside) other
  exact {
    remembers := consistent.remembers
    whole := consistent.whole
    held := atRest ▸ Universe.holds_nil
    types := consistent.types
    closed := by
      intro declaration target within known refers
      have seenTarget := consistent.closed declaration target within known refers
      obtain ⟨_, _, names, other⟩ := refers
      exact .inl (registered target names.found other seenTarget)
    responders := by
      intro key other held
      have entry : (state.document.responders.insert _ _).get? key = some other := held
      rw [Table.get_insert] at entry
      split at entry
      · rename_i same
        obtain rfl := Option.some.inj entry
        exact ⟨contract, inside, same, shown⟩
      · exact consistent.responders key other entry
    answered := by
      intro other target within responds answers isRecord
      have entry : ((state.document.responders.insert _ _).get? _).isSome = true := responds
      rw [Table.get_insert] at entry
      split at entry
      · rename_i same
        obtain rfl := (territory.found other (.inr within)).eq_of_display found same
        have foundTarget : project.Found target := by
          obtain ⟨_, _, _, _, _, names⟩ := answers
          exact names.found
        exact registered target foundTarget (by simp [isRecord]) (seen target answers isRecord)
      · exact consistent.answered other target within entry answers isRecord }

end

theorem register_responder_advances (contextType : Ident) {state : Assembly}
    {contract : Declaration}
    (inside : territory.responders contract) (consistent : Consistent territory state)
    (atRest : state.inProgress = []) :
    Advances territory (registerResponder (territory.scope contextType) contract) state
      (fun _ after => after.Responds contract)
      (¬ territory.HasSchemas ∨ ¬ territory.HasResponses) := by
  have found := territory.found contract (.inr inside)
  have insideIdents := territory.inside contract (.inr inside)
  unfold registerResponder
  apply Yields.bind_get
  split
  · rename_i known
    exact Advances.pure consistent known
  have fresh : contract.ident ∉ state.inProgress := by simp [atRest]
  apply Yields.bind_of_ok (enter_of_not_mem fresh)
  have entered := consistent.enter insideIdents fresh
  have holds : territory.Holds [contract.ident] := Universe.holds_nil.cons (by simp) insideIdents
  have absent : project.responder? territory.bound contract = none → ¬ territory.HasResponses := by
    intro unshown shown
    simpa [unshown] using shown contract inside
  have expanded := contract_methods_advances found insideIdents holds entered
  refine Yields.bind (expanded.failing fun ran =>
    .inr (absent (by simp [Project.responder?, ran]))) ?_
  rintro ⟨methods, names⟩ between ⟨consistentBetween, extended, ran⟩
  have has : ∀ placed ∈ methods, HasMethod project contract placed := fun placed member =>
    (Project.mem_methods_iff found insideIdents
      (Nat.lt_of_lt_of_le territory.room (Nat.le_succ _)) ran).1 member
  have answered := (Advances.map_m methods
    (fun placed after => ∀ param ∈ placed.method.params,
      RecordSeen project placed.context param after) consistentBetween
    (fun _ _ _ extended seen param member => (seen param member).mono extended)
    fun placed member after consistentAfter _ =>
      (response_of_advances contextType contract.spec.name placed
        (fun param within named target names => territory.answers contract target inside
          ⟨placed, has placed member, param, within, named, names⟩) consistentAfter).failing
          fun failed => failed.imp id fun none => map_m_eq_none member none)
  refine Yields.bind (answered.failing fun failed => failed.imp id fun unshown =>
    absent (by simp [Project.responder?, ran, unshown])) ?_
  rintro responses last ⟨consistentLast, extendedLast, shown, seen⟩
  have progress : last.inProgress = [contract.ident] := by
    rw [extendedLast.inProgress, extended.inProgress, atRest]
  have answer : project.responder? territory.bound contract =
      some ⟨contract.spec.name, responses⟩ := by
    simp [Project.responder?, ran, shown]
  refine Yields.bind_modify (Yields.modify ?_)
  refine ⟨consistentLast.with_responder inside progress answer ?_, ?_, responds_with_responder⟩
  · rintro target ⟨placed, hasPlaced, param, within, named, names⟩ isRecord
    have member := (Project.mem_methods_iff found insideIdents
      (Nat.lt_of_lt_of_le territory.room (Nat.le_succ _)) ran).2 hasPlaced
    exact seen placed member param within named target names isRecord
  · exact {
      types := fun key type held => extendedLast.types key type (extended.types key type held)
      responders := fun key responder held => get_with_responder consistentLast inside answer
        (extendedLast.responders key responder (extended.responders key responder held))
      imports := extendedLast.imports.trans extended.imports
      controllers := extendedLast.controllers.trans extended.controllers
      inProgress := by
        show last.inProgress.erase contract.ident = state.inProgress
        rw [progress, atRest, List.erase_cons_head] }

end EndpointAtlas.Assembly
