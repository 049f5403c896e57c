import EndpointAtlas.Proofs.Registration.Contracts

/-!
The order of the methods of a contract. The contracts that can be reached from it by embedding are
unfolded where they are met first, so the methods of each of them stand once, in the order of their
declaration, and no other methods stand among them.
-/

namespace EndpointAtlas

open Go

@[ext]
structure OwnMethod where
  owner : Declaration
  method : Method

def OwnMethod.placed (own : OwnMethod) : PlacedMethod :=
  ⟨own.method, own.owner.context⟩

def methodsAmong : List Element → List Method
  | [] => []
  | .method method :: rest => method :: methodsAmong rest
  | .embedded _ :: rest => methodsAmong rest

def Declaration.ownMethods (contract : Declaration) : List Method :=
  methodsAmong contract.elements

def methodsOwnedBy (contract : Declaration) (own : List OwnMethod) : List Method :=
  (own.filter (·.owner.ident = contract.ident)).map (·.method)

section

variable {contract : Declaration} {one : OwnMethod}

theorem mem_methods_among {elements : List Element} {method : Method} :
    method ∈ methodsAmong elements ↔ .method method ∈ elements := by
  induction elements with
  | nil => simp [methodsAmong]
  | cons element rest ih => cases element <;> simp [methodsAmong, ih]

theorem methods_owned_by_cons_of_eq (same : contract.ident = one.owner.ident)
    (own : List OwnMethod) :
    methodsOwnedBy contract (one :: own) = one.method :: methodsOwnedBy contract own := by
  simp [methodsOwnedBy, same]

theorem methods_owned_by_cons_of_ne (other : contract.ident ≠ one.owner.ident)
    (own : List OwnMethod) :
    methodsOwnedBy contract (one :: own) = methodsOwnedBy contract own := by
  simp [methodsOwnedBy, other.symm]

theorem methods_owned_by_append (contract : Declaration) (first second : List OwnMethod) :
    methodsOwnedBy contract (first ++ second) =
      methodsOwnedBy contract first ++ methodsOwnedBy contract second := by
  simp [methodsOwnedBy]

end

namespace Project

theorem Reaches.found {project : Project} {contract target : Declaration}
    (reaches : project.Reaches contract target) (found : project.Found contract) :
    project.Found target := by
  cases reaches with
  | refl => exact found
  | tail _ embeds =>
      obtain ⟨type, -, names⟩ := embeds
      exact names.found

/-- Goes through elements of a contract in order, with the contracts that were entered before and
after. A method stands in its own place, and the methods of an embedded contract in the place where
it is met first; there it is entered, and later it adds nothing. -/
inductive Unfolds (project : Project) :
    Declaration → List Element → List Ident → List OwnMethod → List Ident → Prop where
  | nil {contract : Declaration} {entered : List Ident} :
      Unfolds project contract [] entered [] entered
  | method {contract : Declaration} {method : Method} {rest : List Element}
      {entered after : List Ident} {own : List OwnMethod} :
      Unfolds project contract rest entered own after →
        Unfolds project contract (.method method :: rest) entered (⟨contract, method⟩ :: own) after
  | again {contract target : Declaration} {type : TypeExpr} {rest : List Element}
      {entered after : List Ident} {own : List OwnMethod} :
      project.Names contract.context type target → target.shape = .contract →
      target.ident ∈ entered → Unfolds project contract rest entered own after →
        Unfolds project contract (.embedded type :: rest) entered own after
  | first {contract target : Declaration} {type : TypeExpr} {rest : List Element}
      {entered between after : List Ident} {inner own : List OwnMethod} :
      project.Names contract.context type target → target.shape = .contract →
      target.ident ∉ entered →
      Unfolds project target target.elements (target.ident :: entered) inner between →
      Unfolds project contract rest between own after →
        Unfolds project contract (.embedded type :: rest) entered (inner ++ own) after

/-- Whether some elements embed only contracts that are entered. -/
def EmbedsOnly (project : Project) (context : Context) (elements : List Element)
    (entered : List Ident) : Prop :=
  ∀ type, .embedded type ∈ elements → ∃ target, project.Names context type target ∧
    target.shape = .contract ∧ target.ident ∈ entered

section

variable {project : Project} {contract target : Declaration} {elements : List Element}
  {entered after : List Ident} {own : List OwnMethod}

theorem EmbedsOnly.mono {context : Context} {more : List Ident}
    (embeds : EmbedsOnly project context elements entered)
    (kept : ∀ ident ∈ entered, ident ∈ more) : EmbedsOnly project context elements more := by
  intro type member
  obtain ⟨target, names, isContract, inside⟩ := embeds type member
  exact ⟨target, names, isContract, kept _ inside⟩

theorem EmbedsOnly.cons {context : Context} {type : TypeExpr}
    (embeds : EmbedsOnly project context elements entered)
    (names : project.Names context type target) (isContract : target.shape = .contract)
    (inside : target.ident ∈ entered) :
    EmbedsOnly project context (.embedded type :: elements) entered := by
  intro other member
  rcases List.mem_cons.1 member with same | later
  · obtain rfl := ElementOf.embedded.inj same
    exact ⟨target, names, isContract, inside⟩
  · exact embeds other later

namespace Unfolds

theorem kept (unfolds : project.Unfolds contract elements entered own after) :
    ∀ ident ∈ entered, ident ∈ after := by
  induction unfolds with
  | nil => exact fun _ member => member
  | method _ ih => exact ih
  | again _ _ _ _ ih => exact ih
  | first _ _ _ _ _ ihInner ih =>
      exact fun ident member => ih ident (ihInner ident (List.mem_cons_of_mem _ member))

theorem holds {all : Universe project}
    (unfolds : project.Unfolds contract elements entered own after)
    (found : project.Found contract) (inside : contract.ident ∈ all.idents)
    (held : all.Holds entered) : all.Holds after := by
  induction unfolds with
  | nil => exact held
  | method _ ih => exact ih found inside held
  | again _ _ _ _ ih => exact ih found inside held
  | first names _ fresh _ _ ihInner ih =>
      have insideTarget := all.closed _ found inside _ _ names
      exact ih found inside (ihInner names.found insideTarget (held.cons fresh insideTarget))

/-- The elements that are gone through, and those of all contracts that are entered on the way,
embed only contracts that are entered. -/
theorem embeds_only (unfolds : project.Unfolds contract elements entered own after) :
    EmbedsOnly project contract.context elements after ∧
      ∀ other, project.Found other → other.ident ∈ after → other.ident ∉ entered →
        EmbedsOnly project other.context other.elements after := by
  induction unfolds with
  | nil =>
      exact ⟨fun _ member => absurd member List.not_mem_nil,
        fun _ _ member fresh => absurd member fresh⟩
  | method _ ih =>
      refine ⟨fun type member => ih.1 type ?_, ih.2⟩
      rcases List.mem_cons.1 member with same | later
      · cases same
      · exact later
  | again names isContract already rest ih =>
      exact ⟨ih.1.cons names isContract (rest.kept _ already), ih.2⟩
  | @first contract target type rest entered between after inner own names isContract fresh
      unfoldsInner unfoldsRest ihInner ih =>
      have keptRest := unfoldsRest.kept
      have inside := keptRest _ (unfoldsInner.kept _ List.mem_cons_self)
      refine ⟨ih.1.cons names isContract inside, ?_⟩
      intro other found member new
      by_cases same : other.ident = target.ident
      · obtain rfl := found.eq_of_ident names.found same
        exact ihInner.1.mono keptRest
      by_cases earlier : other.ident ∈ between
      · exact (ihInner.2 other found earlier (by simp [same, new])).mono keptRest
      · exact ih.2 other found member earlier

theorem reached (unfolds : project.Unfolds contract elements entered own after)
    (part : ∀ element ∈ elements, element ∈ contract.elements) :
    ∀ one ∈ own, project.Reaches contract one.owner := by
  induction unfolds with
  | nil => simp
  | method _ ih =>
      have owners := ih fun element member => part element (List.mem_cons_of_mem _ member)
      exact List.forall_mem_cons.2 ⟨.refl, owners⟩
  | again _ _ _ _ ih => exact ih fun element member => part element (List.mem_cons_of_mem _ member)
  | @first contract target type rest entered between after inner own names _ _ _ _ ihInner ih =>
      have embeds : project.Embeds contract target := ⟨type, part _ List.mem_cons_self, names⟩
      have owners := ih fun element member => part element (List.mem_cons_of_mem _ member)
      intro one member
      rcases List.mem_append.1 member with earlier | later
      · exact .head embeds (ihInner (fun _ member => member) one earlier)
      · exact owners one later

/-- Of each contract that is entered on the way the methods are its own, each once and in order; the
contract itself adds those among the elements, and no other contract adds any. -/
theorem methods_owned_by_eq (unfolds : project.Unfolds contract elements entered own after)
    (start : contract.ident ∈ entered) (foundContract : project.Found contract)
    (found : project.Found target) : methodsOwnedBy target own =
      if target.ident = contract.ident then methodsAmong elements
      else if target.ident ∈ after ∧ target.ident ∉ entered then target.ownMethods else [] := by
  induction unfolds with
  | nil => simp [methodsOwnedBy, methodsAmong]
  | @method contract method rest entered after own _ ih =>
      have others := ih start foundContract
      by_cases same : target.ident = contract.ident
      · rw [if_pos same] at others ⊢
        rw [methods_owned_by_cons_of_eq same, others, methodsAmong]
      · rw [if_neg same] at others ⊢
        rw [methods_owned_by_cons_of_ne same, others]
  | again _ _ _ _ ih => exact ih start foundContract
  | @first contract embedded type rest entered between after inner own names isContract fresh
      unfoldsInner unfoldsRest ihInner ih =>
      have keptInner := unfoldsInner.kept
      have keptRest := unfoldsRest.kept
      have innerOwn := ihInner List.mem_cons_self names.found
      have others := ih (keptInner _ (List.mem_cons_of_mem _ start)) foundContract
      have apart : contract.ident ≠ embedded.ident := fun same => fresh (same ▸ start)
      rw [methods_owned_by_append, innerOwn, others]
      by_cases same : target.ident = contract.ident
      · simp [same, apart, start, methodsAmong]
      by_cases isEmbedded : target.ident = embedded.ident
      · obtain rfl := found.eq_of_ident names.found isEmbedded
        have inside : target.ident ∈ between := keptInner _ List.mem_cons_self
        simp [same, inside, keptRest _ inside, fresh, Declaration.ownMethods]
      · by_cases before : target.ident ∈ entered
        · have inside := keptInner _ (List.mem_cons_of_mem embedded.ident before)
          simp [same, isEmbedded, before, inside]
        · by_cases inside : target.ident ∈ between
          · simp [same, isEmbedded, before, inside, keptRest _ inside]
          · simp [same, isEmbedded, before, inside]

theorem embeds_only_of_reaches (unfolds : project.Unfolds contract contract.elements
    [contract.ident]
    own after) (found : project.Found contract) (reaches : project.Reaches contract target) :
    target.ident ∈ after ∧ EmbedsOnly project target.context target.elements after := by
  obtain ⟨start, others⟩ := unfolds.embeds_only
  induction reaches with
  | refl => exact ⟨unfolds.kept _ List.mem_cons_self, start⟩
  | @tail owner target _ embeds ih =>
      obtain ⟨type, member, names⟩ := embeds
      obtain ⟨other, namesOther, -, inside⟩ := ih.2 type member
      obtain rfl := names.eq namesOther
      refine ⟨inside, ?_⟩
      by_cases same : target.ident = contract.ident
      · obtain rfl := names.found.eq_of_ident found same
        exact start
      · exact others _ names.found inside (by simpa using same)

end Unfolds

end

/-- The methods of a contract, with what can be reached from it: they are unfolded from it, each
belongs to a contract that is declared in a file whose names it uses and that can be reached, and of
whatever can be reached they are the own methods, each once and in the order of declaration. -/
structure Expansion (project : Project) (contract : Declaration) (own : List OwnMethod) : Prop where
  unfolds : ∃ after, project.Unfolds contract contract.elements [contract.ident] own after
  owners : ∀ one ∈ own, project.Reaches contract one.owner ∧ project.Declared one.owner
  once : ∀ target, project.Reaches contract target →
    methodsOwnedBy target own = target.ownMethods

section

variable {project : Project} {contract : Declaration} {own : List OwnMethod}

theorem Unfolds.expansion {after : List Ident}
    (unfolds : project.Unfolds contract contract.elements [contract.ident] own after)
    (found : project.Found contract) : project.Expansion contract own where
  unfolds := ⟨after, unfolds⟩
  owners := by
    intro one member
    have reaches := unfolds.reached (fun _ member => member) one member
    exact ⟨reaches, declared_of_found (reaches.found found)⟩
  once := by
    intro target reaches
    have inside := (unfolds.embeds_only_of_reaches found reaches).1
    rw [unfolds.methods_owned_by_eq List.mem_cons_self found (reaches.found found)]
    by_cases same : target.ident = contract.ident
    · obtain rfl := (reaches.found found).eq_of_ident found same
      rw [if_pos rfl, Declaration.ownMethods]
    · rw [if_neg same, if_pos ⟨inside, by simpa using same⟩]

theorem Expansion.mem_iff (expansion : project.Expansion contract own)
    (found : project.Found contract) {one : OwnMethod} :
    one ∈ own ↔ project.Reaches contract one.owner ∧ one.method ∈ one.owner.ownMethods := by
  constructor
  · intro member
    have reaches := (expansion.owners one member).1
    rw [← expansion.once _ reaches]
    exact ⟨reaches, List.mem_map_of_mem (List.mem_filter.2 ⟨member, by simp⟩)⟩
  · intro listed
    obtain ⟨reaches, member⟩ := listed
    rw [← expansion.once _ reaches] at member
    obtain ⟨other, among, same⟩ := List.mem_map.1 member
    obtain ⟨inside, ident⟩ := List.mem_filter.1 among
    have foundOther := (expansion.owners other inside).1.found found
    have owner := foundOther.eq_of_ident (reaches.found found) (by simpa using ident)
    rwa [show one = other from OwnMethod.ext owner.symm same.symm]

/-- A contract has the own methods of the contracts that can be reached from it. -/
theorem has_method_iff {placed : PlacedMethod} : HasMethod project contract placed ↔
    ∃ one : OwnMethod, project.Reaches contract one.owner ∧ one.method ∈ one.owner.ownMethods ∧
      one.placed = placed := by
  constructor
  · intro has
    induction has with
    | own member => exact ⟨⟨_, _⟩, .refl, mem_methods_among.2 member, rfl⟩
    | embedded member names _ ih =>
        obtain ⟨one, reaches, own, same⟩ := ih
        exact ⟨one, .head ⟨_, member, names⟩ reaches, own, same⟩
  · intro listed
    obtain ⟨one, reaches, own, rfl⟩ := listed
    induction reaches using Relation.ReflTransGen.head_induction_on with
    | refl => exact .own (mem_methods_among.1 own)
    | head embeds _ ih =>
        obtain ⟨type, member, names⟩ := embeds
        exact .embedded member names ih

end

/-- What the search promises under a bound: it unfolds a contract, if it has room in a universe. -/
def Unfolding {project : Project} (all : Universe project) (bound : Nat) : Prop :=
  ∀ {contract entered methods after}, project.Found contract → contract.ident ∈ all.idents →
    all.Holds entered → all.idents.length < bound + entered.length →
      project.methods? bound contract entered = some (methods, after) →
        ∃ own, project.Unfolds contract contract.elements entered own after ∧
          methods = own.map (·.placed)

section

variable {project : Project} {all : Universe project} {bound : Nat}
  {contract target : Declaration} {elements : List Element} {entered after : List Ident}
  {methods : List PlacedMethod}

/-- An embedded contract was entered before, or it is unfolded. -/
theorem unfolds_of_enter (unfolding : Unfolding all bound) (found : project.Found target)
    (inside : target.ident ∈ all.idents) (held : all.Holds entered)
    (room : all.idents.length < bound + 1 + entered.length)
    (ran : enter? (project.methods? bound) target entered = some (methods, after)) :
    target.ident ∈ entered ∧ methods = [] ∧ after = entered ∨
      target.ident ∉ entered ∧ ∃ inner, methods = inner.map (·.placed) ∧
        project.Unfolds target target.elements (target.ident :: entered) inner after := by
  unfold enter? at ran
  split at ran
  · rename_i already
    obtain ⟨rfl, rfl⟩ := Prod.mk.inj (Option.some.inj ran)
    exact .inl ⟨by simpa using already, rfl, rfl⟩
  · rename_i new
    have fresh : target.ident ∉ entered := by simpa using new
    obtain ⟨inner, unfolds, placed⟩ := unfolding found inside (held.cons fresh inside)
      (by simp only [List.length_cons]; omega) ran
    exact .inr ⟨fresh, inner, placed, unfolds⟩

theorem holds_of_enter (unfolding : Unfolding all bound) (found : project.Found target)
    (inside : target.ident ∈ all.idents) (held : all.Holds entered)
    (room : all.idents.length < bound + 1 + entered.length)
    (ran : enter? (project.methods? bound) target entered = some (methods, after)) :
    all.Holds after ∧ all.idents.length < bound + 1 + after.length := by
  rcases unfolds_of_enter unfolding found inside held room ran with
    ⟨-, -, rfl⟩ | ⟨fresh, inner, -, unfolds⟩
  · exact ⟨held, room⟩
  · have heldTarget := held.cons fresh inside
    have longer := heldTarget.1.length_le_of_subset unfolds.kept
    rw [List.length_cons] at longer
    exact ⟨unfolds.holds found inside heldTarget, by omega⟩

theorem unfolds_of_methods_of (unfolding : Unfolding all bound) (found : project.Found contract)
    (inside : contract.ident ∈ all.idents) (held : all.Holds entered)
    (room : all.idents.length < bound + 1 + entered.length)
    (ran : methodsOf? project (project.methods? bound) contract.context elements entered =
      some (methods, after)) :
    ∃ own, project.Unfolds contract elements entered own after ∧
      methods = own.map (·.placed) := by
  induction elements generalizing entered methods with
  | nil =>
      obtain ⟨rfl, rfl⟩ := Prod.mk.inj (Option.some.inj ran)
      exact ⟨[], .nil, rfl⟩
  | cons element rest ih =>
      cases element with
      | method method =>
          obtain ⟨⟨others, last⟩, ranRest, equal⟩ := Option.map_eq_some_iff.1 ran
          obtain ⟨rfl, rfl⟩ := Prod.mk.inj equal
          obtain ⟨own, unfolds, rfl⟩ := ih held room ranRest
          exact ⟨_, .method unfolds, rfl⟩
      | embedded type =>
          obtain ⟨target, embedded, continued⟩ := Option.bind_eq_some_iff.1 ran
          obtain ⟨⟨first, between⟩, ranFirst, continued⟩ := Option.bind_eq_some_iff.1 continued
          obtain ⟨⟨others, last⟩, ranRest, equal⟩ := Option.map_eq_some_iff.1 continued
          obtain ⟨rfl, rfl⟩ := Prod.mk.inj equal
          obtain ⟨names, isContract⟩ := names_of_embedded embedded
          have insideTarget := all.closed contract found inside type target names
          obtain ⟨heldBetween, roomBetween⟩ :=
            holds_of_enter unfolding names.found insideTarget held room ranFirst
          obtain ⟨own, unfolds, rfl⟩ := ih heldBetween roomBetween ranRest
          rcases unfolds_of_enter unfolding names.found insideTarget held room ranFirst with
            ⟨already, rfl, rfl⟩ | ⟨fresh, inner, rfl, unfoldsInner⟩
          · exact ⟨own, .again names isContract already unfolds, rfl⟩
          · exact ⟨inner ++ own, .first names isContract fresh unfoldsInner unfolds, by simp⟩

theorem unfolding_methods (all : Universe project) (bound : Nat) : Unfolding all bound := by
  induction bound with
  | zero =>
      intro contract entered methods after found inside held room ran
      have length := held.length_le
      omega
  | succ bound ih =>
      intro contract entered methods after found inside held room ran
      exact unfolds_of_methods_of ih found inside held room ran

/-- The methods that the search lists for a contract are its expansion. -/
theorem expansion_of_methods (found : project.Found contract)
    (inside : contract.ident ∈ all.idents) (room : all.idents.length < bound + 1)
    (ran : project.methods? bound contract [contract.ident] = some (methods, after)) :
    ∃ own, project.Expansion contract own ∧ methods = own.map (·.placed) := by
  have held : all.Holds [contract.ident] := Universe.holds_nil.cons (by simp) inside
  obtain ⟨own, unfolds, placed⟩ := unfolding_methods all bound found inside held room ran
  exact ⟨own, unfolds.expansion found, placed⟩

/-- The methods that the search lists for a contract are the methods that it has. -/
theorem mem_methods_iff (found : project.Found contract) (inside : contract.ident ∈ all.idents)
    (room : all.idents.length < bound + 1)
    (ran : project.methods? bound contract [contract.ident] = some (methods, after))
    {placed : PlacedMethod} : placed ∈ methods ↔ HasMethod project contract placed := by
  obtain ⟨own, expansion, rfl⟩ := expansion_of_methods found inside room ran
  rw [has_method_iff, List.mem_map]
  simp only [expansion.mem_iff found, and_assoc]

end

end Project

end EndpointAtlas
