import EndpointAtlas.Proofs.Registration.Unfolding
import EndpointAtlas.Proofs.Resolution.Memory

/-!
Going through the contracts that a contract embeds. A step that only looks types up changes nothing
but what the resolver remembers; the search through embedded contracts is one, and where it fails,
a name is at fault that can be reached from its start.
-/

namespace EndpointAtlas

open Go

namespace Project

inductive LookupFault (project : Project) (ident : Ident) : Failure → Prop where
  | missing : project.outcome? ident = some .missing →
      LookupFault project ident (.typeNotFound ident)
  | external : project.outcome? ident = some .external →
      LookupFault project ident (.externalType ident)
  | unread {path : Path} : project.outcome? ident = none →
      LookupFault project ident (.syntaxError path)

inductive EmbeddingFault (project : Project) (contract : Declaration) (type : TypeExpr) :
    Failure → Prop where
  | unresolved {failure : Failure} : contract.context.identify type = .error failure →
      EmbeddingFault project contract type failure
  | unfound {ident : Ident} {failure : Failure} : contract.context.identify type = .ok ident →
      ident.isPredeclared = false → project.LookupFault ident failure →
        EmbeddingFault project contract type failure
  | predeclared {ident : Ident} : contract.context.identify type = .ok ident →
      ident.isPredeclared = true →
        EmbeddingFault project contract type (.invalidEmbedding contract.ident ident)
  | noContract {target : Declaration} : project.Names contract.context type target →
      target.shape ≠ .contract →
        EmbeddingFault project contract type (.invalidEmbedding contract.ident target.ident)

theorem LookupFault.finds {project : Project} {ident : Ident} {failure : Failure}
    (fault : project.LookupFault ident failure) : project.finds ident = false := by
  unfold Project.finds
  cases fault with
  | missing outcome => rw [outcome]
  | external outcome => rw [outcome]
  | unread outcome => rw [outcome]

/-- Whether a failure comes from a name that is embedded in a contract or further down. -/
def FaultBelow (project : Project) (contract : Declaration) (failure : Failure) : Prop :=
  ∃ owner type, project.Reaches contract owner ∧ .embedded type ∈ owner.elements ∧
    project.EmbeddingFault owner type failure

section

variable {project : Project} {contract target : Declaration} {type : TypeExpr} {failure : Failure}

theorem FaultBelow.of_embeds (embeds : project.Embeds contract target)
    (fault : project.FaultBelow target failure) : project.FaultBelow contract failure := by
  obtain ⟨owner, type, reaches, member, fault⟩ := fault
  exact ⟨owner, type, .head embeds reaches, member, fault⟩

theorem EmbeddingFault.not_contract (fault : project.EmbeddingFault contract type failure)
    (names : project.Names contract.context type target) : target.shape ≠ .contract := by
  obtain ⟨ident, identified, outcome⟩ := names
  cases fault with
  | unresolved failed =>
      rw [identified] at failed
      cases failed
  | unfound same _ lookup =>
      rw [identified] at same
      obtain rfl := Except.ok.inj same
      cases lookup <;> simp_all
  | predeclared same isPredeclared =>
      rw [identified] at same
      obtain rfl := Except.ok.inj same
      rw [outcome_of_is_predeclared isPredeclared] at outcome
      cases outcome
  | noContract other isOther =>
      have same := Names.eq ⟨ident, identified, outcome⟩ other
      exact same ▸ isOther

theorem EmbeddingFault.embedded (fault : project.EmbeddingFault contract type failure) :
    project.embedded? contract.context type = none := by
  cases embedded : project.embedded? contract.context type with
  | none => rfl
  | some target =>
      obtain ⟨names, isContract⟩ := names_of_embedded embedded
      exact absurd isContract (fault.not_contract names)

end

end Project

namespace Assembly

/-- The step ends with a value of which the fact holds, or fails for the reason, and changes nothing
but what the resolver remembers of the project. -/
def Looks (project : Project) {α : Type} (step : Assemble α) (state : Assembly) (fact : α → Prop)
    (reason : Failure → Prop) : Prop :=
  Yields step state
    (fun value after => Resolver.Remembers project after.resolver ∧
      after = { state with resolver := after.resolver } ∧ fact value)
    (fun failure after => after = { state with resolver := after.resolver } ∧ reason failure)

namespace Looks

variable {project : Project} {α β : Type} {step : Assemble α} {state : Assembly} {fact : α → Prop}
  {reason : Failure → Prop}

protected theorem mono {further : α → Prop} {weaker : Failure → Prop}
    (looks : Looks project step state fact reason) (onValue : ∀ value, fact value → further value)
    (onFailure : ∀ failure, reason failure → weaker failure) :
    Looks project step state further weaker :=
  Yields.mono looks (fun value _ kept => ⟨kept.1, kept.2.1, onValue value kept.2.2⟩)
    fun failure _ failed => ⟨failed.1, onFailure failure failed.2⟩

protected theorem pure {value : α} (remembers : Resolver.Remembers project state.resolver)
    (holds : fact value) : Looks project (pure value) state fact reason :=
  Yields.pure ⟨remembers, rfl, holds⟩

protected theorem throw {failure : Failure} (fails : reason failure) :
    Looks project (throw failure : Assemble α) state fact reason :=
  Yields.throw ⟨rfl, fails⟩

protected theorem bind {next : α → Assemble β} {last : β → Prop}
    (first : Looks project step state fact reason)
    (second : ∀ value after, Resolver.Remembers project after.resolver → fact value →
      Looks project (next value) after last reason) :
    Looks project (step >>= next) state last reason := by
  apply Yields.bind (first.mono (fun _ holds => holds) fun _ failed => failed)
  intro value between kept
  obtain ⟨remembers, same, holds⟩ := kept
  apply Yields.mono (second value between remembers holds)
  · intro last after kept
    rw [same] at kept
    exact kept
  · intro failure after failed
    rw [same] at failed
    exact failed

theorem bind_of_except {next : α → Assemble β} {last : β → Prop} {result : Except Failure α}
    (onValue : ∀ value, result = .ok value → Looks project (next value) state last reason)
    (onFailure : ∀ failure, result = .error failure → reason failure) :
    Looks project (ofExcept result >>= next) state last reason := by
  cases result with
  | ok value => exact onValue value rfl
  | error failure => exact ⟨rfl, onFailure failure rfl⟩

end Looks

variable {project : Project} {state : Assembly}

theorem resolving_bind {α β : Type} (step : Resolve α) (next : α → Resolve β) :
    resolving (step >>= next) = resolving step >>= fun value => resolving (next value) := by
  funext state
  simp only [resolving, bind, EStateM.bind]
  cases step state.resolver <;> rfl

/-- A step of the resolver promises the same as a step of the assembly. -/
theorem resolving_yields {α : Type} {step : Resolve α} {good : α → Resolver → Prop}
    {bad : Failure → Resolver → Prop} (yields : Yields step state.resolver good bad) :
    Yields (resolving step) state
      (fun value after => after = { state with resolver := after.resolver } ∧
        good value after.resolver)
      (fun failure after => after = { state with resolver := after.resolver } ∧
        bad failure after.resolver) := by
  unfold Yields resolving
  cases ran : step state.resolver with
  | ok value after => exact ⟨rfl, yields.of_ok ran⟩
  | error failure after => exact ⟨rfl, yields.of_error ran⟩

theorem lookup_looks (remembers : Resolver.Remembers project state.resolver) (ident : Ident) :
    Looks project (resolving (Resolver.lookup project ident)) state
      (fun lookup => project.outcome? ident = some lookup)
      (fun failure => project.outcome? ident = none ∧ project.LookupFault ident failure) := by
  apply (resolving_yields (Resolver.lookup_yields ident remembers)).mono
  · intro lookup after looked
    obtain ⟨same, outcome, learns⟩ := looked
    exact ⟨learns.remembers, same, outcome⟩
  · intro failure after failed
    obtain ⟨same, unread, path, rfl⟩ := failed
    exact ⟨same, unread, .unread unread⟩

/-- A declaration is required by a look-up, and what it finds decides. -/
theorem require_declaration_yields {ident : Ident} {good : Lookup → Assembly → Prop}
    {bad : Failure → Assembly → Prop} {better : Declaration → Assembly → Prop}
    {worse : Failure → Assembly → Prop}
    (looked : Yields (resolving (Resolver.lookup project ident)) state good bad)
    (found : ∀ declaration after, good (.found declaration) after → better declaration after)
    (missing : ∀ after, good .missing after → worse (.typeNotFound ident) after)
    (external : ∀ after, good .external after → worse (.externalType ident) after)
    (failed : ∀ failure after, bad failure after → worse failure after) :
    Yields (requireDeclaration project ident) state better worse := by
  unfold requireDeclaration Resolver.resolve
  rw [resolving_bind, bind_assoc]
  apply (looked.mono (fun _ _ holds => holds) failed).bind
  intro lookup after holds
  cases lookup with
  | found declaration => exact Yields.pure (found declaration after holds)
  | missing => exact Yields.throw (missing after holds)
  | external => exact Yields.throw (external after holds)

theorem require_declaration_looks (remembers : Resolver.Remembers project state.resolver)
    (ident : Ident) :
    Looks project (requireDeclaration project ident) state
      (fun declaration => project.outcome? ident = some (.found declaration))
      (project.LookupFault ident) := by
  apply require_declaration_yields (lookup_looks remembers ident)
  case found => exact fun _ _ looked => looked
  case missing => exact fun _ looked => ⟨looked.2.1, .missing looked.2.2⟩
  case external => exact fun _ looked => ⟨looked.2.1, .external looked.2.2⟩
  case failed => exact fun _ _ failed => ⟨failed.1, failed.2.2⟩

theorem embedded_contract_looks (remembers : Resolver.Remembers project state.resolver)
    {contract : Declaration} {type : TypeExpr} {ident : Ident}
    (identified : contract.context.identify type = .ok ident) :
    Looks project (embeddedContract project contract ident) state
      (fun target => project.embedded? contract.context type = some target)
      (project.EmbeddingFault contract type) := by
  unfold embeddedContract
  by_cases predeclared : ident.isPredeclared = true
  · rw [if_pos predeclared]
    exact Looks.throw (.predeclared identified predeclared)
  rw [if_neg predeclared]
  have required := (require_declaration_looks remembers ident).mono (fun _ outcome => outcome)
    fun _ fault => Project.EmbeddingFault.unfound identified (by simpa using predeclared) fault
  apply required.bind
  intro target after remembersAfter outcome
  have names : project.Names contract.context type target := ⟨ident, identified, outcome⟩
  by_cases isContract : target.shape = .contract
  · simp only [isContract, if_true]
    apply Looks.pure remembersAfter
    simp [Project.embedded?, identified, outcome, isContract]
  · simp only [isContract, if_false]
    obtain rfl := Project.ident_of_found outcome
    exact Looks.throw (.noContract names isContract)

theorem run_element_methods_embedded (expand : Declaration → Expand (List PlacedMethod))
    (contract : Declaration) (type : TypeExpr) (entered : List Ident) :
    (elementMethods project expand contract (.embedded type)).run entered = (do
      let ident ← ofExcept (contract.context.identify type)
      let target ← embeddedContract project contract ident
      if entered.contains ident then return ([], entered)
      else (expand target).run (ident :: entered)) := by
  simp only [elementMethods, StateT.run_bind, StateT.run_monadLift, bind_assoc, pure_bind]
  congr 1
  funext ident
  congr 1
  funext target
  rw [StateT.run_get, pure_bind]
  split <;> simp

/-- What the expansion of a contract promises under a bound for the contracts that it enters. -/
def Expandable {project : Project} (all : Universe project) (bound : Nat)
    (expand : Declaration → Expand (List PlacedMethod)) : Prop :=
  ∀ contract entered state, project.Found contract → contract.ident ∈ all.idents →
    all.Holds entered → all.idents.length < bound + entered.length →
      Resolver.Remembers project state.resolver →
      Looks project ((expand contract).run entered) state
        (fun result => project.methods? bound contract entered = some result)
        (fun failure => project.methods? bound contract entered = none ∧
          project.FaultBelow contract failure)

section Expansion

variable {all : Universe project} {bound : Nat} {expand : Declaration → Expand (List PlacedMethod)}
  {contract : Declaration}

theorem embedded_looks (expandable : Expandable all bound expand)
    (found : project.Found contract) (inside : contract.ident ∈ all.idents) {type : TypeExpr}
    (member : .embedded type ∈ contract.elements) {entered : List Ident} (held : all.Holds entered)
    (room : all.idents.length < bound + 1 + entered.length)
    (remembers : Resolver.Remembers project state.resolver) :
    Looks project ((elementMethods project expand contract (.embedded type)).run entered) state
      (fun result => ∃ target, project.embedded? contract.context type = some target ∧
        Project.enter? (project.methods? bound) target entered = some result)
      (fun failure => (project.embedded? contract.context type).bind
        (Project.enter? (project.methods? bound) · entered) = none ∧
          project.FaultBelow contract failure) := by
  rw [run_element_methods_embedded]
  have faulty : ∀ failure, project.EmbeddingFault contract type failure →
      (project.embedded? contract.context type).bind
        (Project.enter? (project.methods? bound) · entered) = none ∧
          project.FaultBelow contract failure := by
    intro failure fault
    rw [fault.embedded]
    exact ⟨rfl, contract, type, .refl, member, fault⟩
  apply Looks.bind_of_except
  · intro ident identified
    apply ((embedded_contract_looks remembers identified).mono (fun _ kept => kept) faulty).bind
    intro target after remembersAfter embedded
    have names := (Project.names_of_embedded embedded).1
    have same : target.ident = ident :=
      Project.ident_of_found ((Project.names_iff identified).1 names)
    subst same
    simp only [embedded, Option.bind_some, Project.enter?]
    split
    · rename_i already
      apply Looks.pure remembersAfter
      exact ⟨target, rfl, by rw [if_pos already]⟩
    · rename_i new
      have fresh : target.ident ∉ entered := by simpa using new
      have insideTarget := all.closed contract found inside type target names
      have roomTarget : all.idents.length < bound + (target.ident :: entered).length := by
        simp only [List.length_cons]
        omega
      have expanded := expandable target (target.ident :: entered) after names.found insideTarget
        (held.cons fresh insideTarget) roomTarget remembersAfter
      apply expanded.mono
      · intro result ran
        exact ⟨target, rfl, by rw [if_neg new, ran]⟩
      · intro failure failed
        exact ⟨failed.1, failed.2.of_embeds ⟨type, member, names⟩⟩
  · exact fun failure failed => faulty failure (.unresolved failed)

theorem elements_looks (expandable : Expandable all bound expand)
    (found : project.Found contract) (inside : contract.ident ∈ all.idents)
    {elements : List Element} (part : ∀ element ∈ elements, element ∈ contract.elements)
    {entered : List Ident} (held : all.Holds entered)
    (room : all.idents.length < bound + 1 + entered.length)
    (remembers : Resolver.Remembers project state.resolver) :
    Looks project ((elements.mapM (elementMethods project expand contract)).run entered) state
      (fun result => project.methodsOf? (project.methods? bound) contract.context elements entered
        = some (result.1.flatten, result.2))
      (fun failure => project.methodsOf? (project.methods? bound) contract.context elements entered
        = none ∧ project.FaultBelow contract failure) := by
  induction elements generalizing entered state with
  | nil => exact Looks.pure remembers rfl
  | cons element rest ih =>
      have partRest : ∀ element ∈ rest, element ∈ contract.elements :=
        fun element member => part element (List.mem_cons_of_mem _ member)
      rw [List.mapM_cons]
      simp only [StateT.run_bind]
      cases element with
      | method method =>
          show Looks project ((rest.mapM (elementMethods project expand contract)).run entered
            >>= _) state _ _
          simp only [Project.methodsOf?, Option.map_eq_none_iff]
          apply (ih partRest held room remembers).bind
          intro result after remembersAfter ran
          apply Looks.pure remembersAfter
          rw [ran]
          rfl
      | embedded type =>
          have first := embedded_looks expandable found inside (part _ List.mem_cons_self) held room
            remembers
          simp only [Project.methodsOf?]
          apply (first.mono (fun _ told => told) fun failure failed => ?_).bind
          · intro result between remembersBetween told
            obtain ⟨methods, later⟩ := result
            obtain ⟨target, embedded, entering⟩ := told
            obtain ⟨names, -⟩ := Project.names_of_embedded embedded
            obtain ⟨heldLater, roomLater⟩ := Project.holds_of_enter
              (Project.unfolding_methods all bound) names.found
              (all.closed contract found inside type target names) held room entering
            simp only [embedded, entering, Option.bind_some, Option.map_eq_none_iff]
            apply (ih partRest heldLater roomLater remembersBetween).bind
            intro others after remembersAfter ran
            apply Looks.pure remembersAfter
            rw [ran]
            rfl
          · constructor
            · cases embedded : project.embedded? contract.context type with
              | none => rfl
              | some target =>
                  rw [embedded, Option.bind_some] at failed
                  rw [Option.bind_some, failed.1]
                  rfl
            · exact failed.2

end Expansion

/-- The search under a bound that has room in the universe gives the methods of the project, and
changes nothing but what the resolver remembers. -/
theorem contract_methods_looks (all : Universe project) (bound : Nat) :
    Expandable all bound (contractMethods project bound) := by
  induction bound with
  | zero =>
      intro contract entered state found inside held room remembers
      have length := held.length_le
      omega
  | succ bound ih =>
      intro contract entered state found inside held room remembers
      have listed := fun {elements : List Element}
          (part : ∀ element ∈ elements, element ∈ contract.elements) =>
        elements_looks ih found inside part held room remembers
      unfold contractMethods Project.methods?
      unfold Declaration.elements at listed ⊢
      cases written : contract.spec.type with
      | interface elements =>
          simp only [StateT.run_bind]
          rw [written] at listed
          apply (listed fun _ member => member).bind
          intro result after remembersAfter ran
          exact Looks.pure remembersAfter ran
      | _ => exact Looks.pure remembers rfl

end Assembly

end EndpointAtlas
