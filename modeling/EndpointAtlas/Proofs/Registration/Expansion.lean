import EndpointAtlas.Proofs.Registration.Embedding

/-!
Where the search for the methods of a contract fails. It ends with the expansion of the contract
unless a name that is embedded in it or further down is not that of a contract.
-/

namespace EndpointAtlas

open Go

namespace Project

/-- Whether each name that is embedded in a contract or further down is predeclared or declared in
the project. -/
def EmbedsKnown (project : Project) (contract : Declaration) : Prop :=
  ∀ owner type, project.Reaches contract owner → .embedded type ∈ owner.elements →
    (∃ ident, owner.context.identify type = .ok ident ∧ ident.isPredeclared = true) ∨
      ∃ target, project.Names owner.context type target

/-- Whether a contract embeds a name that is predeclared or that of a declaration of another
kind. -/
def Misembeds (project : Project) (owner : Declaration) (ident : Ident) : Prop :=
  ∃ type, .embedded type ∈ owner.elements ∧ owner.context.identify type = .ok ident ∧
    (ident.isPredeclared = true ∨
      ∃ target, project.outcome? ident = some (.found target) ∧ target.shape ≠ .contract)

section

variable {project : Project} {contract owner : Declaration} {type : TypeExpr} {failure : Failure}

theorem FaultBelow.misembeds (known : project.EmbedsKnown contract)
    (fault : project.FaultBelow contract failure) : ∃ owner ident, project.Reaches contract owner ∧
      project.Misembeds owner ident ∧ failure = .invalidEmbedding owner.ident ident := by
  obtain ⟨owner, type, reaches, member, fault⟩ := fault
  cases fault with
  | predeclared identified isPredeclared =>
      exact ⟨owner, _, reaches, ⟨type, member, identified, .inl isPredeclared⟩, rfl⟩
  | noContract names isOther =>
      obtain ⟨ident, identified, outcome⟩ := names
      obtain rfl := ident_of_found outcome
      exact ⟨owner, _, reaches, ⟨type, member, identified, .inr ⟨_, outcome, isOther⟩⟩, rfl⟩
  | unresolved failed =>
      rcases known owner type reaches member with predeclared | declared
      · obtain ⟨ident, identified, -⟩ := predeclared
        rw [failed] at identified
        cases identified
      · obtain ⟨target, ident, identified, -⟩ := declared
        rw [failed] at identified
        cases identified
  | unfound identified named lookup =>
      rcases known owner type reaches member with predeclared | declared
      · obtain ⟨ident, same, isPredeclared⟩ := predeclared
        rw [identified] at same
        obtain rfl := Except.ok.inj same
        rw [named] at isPredeclared
        cases isPredeclared
      · obtain ⟨target, names⟩ := declared
        have missed := lookup.finds
        rw [finds, (names_iff identified).1 names] at missed
        cases missed

theorem embeds_known_of_predeclared (predeclared : ∀ type, .embedded type ∈ contract.elements →
    ∃ ident, contract.context.identify type = .ok ident ∧ ident.isPredeclared = true) :
    project.EmbedsKnown contract := by
  intro owner type reaches member
  rcases reaches.cases_head with rfl | ⟨target, embeds, -⟩
  · exact .inl (predeclared type member)
  · obtain ⟨other, among, names⟩ := embeds
    obtain ⟨ident, identified, isPredeclared⟩ := predeclared other among
    have outcome := (names_iff identified).1 names
    rw [outcome_of_is_predeclared isPredeclared] at outcome
    cases outcome

theorem Misembeds.not_embeds_only {ident : Ident} {entered : List Ident}
    (misembeds : project.Misembeds owner ident) :
    ¬ EmbedsOnly project owner.context owner.elements entered := by
  intro embedsOnly
  obtain ⟨type, member, identified, wrong⟩ := misembeds
  obtain ⟨target, names, isContract, -⟩ := embedsOnly type member
  have outcome := (names_iff identified).1 names
  rcases wrong with predeclared | other
  · rw [outcome_of_is_predeclared predeclared] at outcome
    cases outcome
  · obtain ⟨declaration, found, isOther⟩ := other
    rw [outcome] at found
    obtain rfl := Lookup.found.inj (Option.some.inj found)
    exact isOther isContract

end

end Project

namespace Assembly

/-- The search for the methods of a contract ends in every state of the analysis, before any bound
that has room for the types of files which name its package, and what the resolver has learned is its
only effect. What it ends with is the expansion of the contract. If all embedded names are known, it
fails exactly for one that may not be embedded. -/
theorem contract_methods_expansion {project : Project} {files : List ScannedFile}
    {contract : Declaration} {bound : Nat} {state : Assembly} (found : project.Found contract)
    (named : contract.package ∈ project.packagesOf files)
    (room : project.typeBound files ≤ bound)
    (remembers : Resolver.Remembers project state.resolver) :
    Yields ((contractMethods project bound contract).run [contract.ident]) state
      (fun result after => after = { state with resolver := after.resolver } ∧
        ∃ own, project.Expansion contract own ∧ result.1 = own.map (·.placed))
      (fun failure after => after = { state with resolver := after.resolver } ∧
        (project.EmbedsKnown contract → ∃ owner ident, project.Reaches contract owner ∧
          project.Misembeds owner ident ∧ failure = .invalidEmbedding owner.ident ident)) ∧
      (project.EmbedsKnown contract →
        ((∃ failure after, (contractMethods project bound contract).run [contract.ident] state =
          .error failure after) ↔
            ∃ owner ident, project.Reaches contract owner ∧ project.Misembeds owner ident)) := by
  let all := project.universeOf files
  have inside : contract.ident ∈ all.idents := Project.mem_idents_of.2 ⟨named, found.name_mem⟩
  have space : all.idents.length < bound + 1 :=
    Nat.lt_succ_of_lt (Nat.lt_of_lt_of_le (project.length_idents_of_lt files) room)
  have looks := contract_methods_looks all bound contract [contract.ident] state found inside
    (Universe.holds_nil.cons (by simp) inside) space remembers
  constructor
  · apply Yields.mono looks
    · intro result after kept
      obtain ⟨-, same, ran⟩ := kept
      exact ⟨same, Project.expansion_of_methods found inside space ran⟩
    · intro failure after failed
      exact ⟨failed.1, fun known => failed.2.2.misembeds known⟩
  · intro known
    constructor
    · intro failed
      obtain ⟨failure, after, ran⟩ := failed
      obtain ⟨owner, ident, reaches, misembeds, -⟩ :=
        (looks.of_error ran).2.2.misembeds known
      exact ⟨owner, ident, reaches, misembeds⟩
    · intro wrong
      obtain ⟨owner, ident, reaches, misembeds⟩ := wrong
      cases ran : (contractMethods project bound contract).run [contract.ident] state with
      | error failure after => exact ⟨failure, after, rfl⟩
      | ok result after =>
          obtain ⟨own, expansion, -⟩ :=
            Project.expansion_of_methods found inside space (looks.of_ok ran).2.2
          obtain ⟨last, unfolds⟩ := expansion.unfolds
          exact absurd (unfolds.embeds_only_of_reaches found reaches).2 misembeds.not_embeds_only

def allFiles (project : Project) : List ScannedFile :=
  ((FileFilter.ofPatterns [] [] false).bind (scanAll project)).toOption.getD []

def ringProject : Project :=
  ⟨⟨[(["a.go"], .file (Text.Glyph.ofString ("package m\nimport \"m/p\"\n" ++
    "type R interface \x7b H(); p.S; Q; T() \x7d\n" ++
    "type Q interface \x7b R; p.S; A() \x7d\n")) false),
    (["p"], .directory),
    (["p", "b.go"],
      .file (Text.Glyph.ofString "package p\ntype S interface \x7b D() \x7d\n") false)],
    by decide⟩, ⟨"/"⟩, "m", false⟩

def searchMethods (project : Project) (contract : Declaration) :
    EStateM.Result Failure Assembly (List PlacedMethod × List Ident) :=
  (contractMethods project (project.typeBound (allFiles project)) contract).run [contract.ident]
    .initial

def placesOf? (project : Project) (ident : Ident) : Option (List (String × String)) :=
  match project.outcome? ident with
  | some (.found contract) =>
      (((contractMethods project (project.typeBound (allFiles project)) contract).run
        [contract.ident]).run' .initial).map fun result =>
          result.1.map fun placed => (placed.method.name, placed.context.package)
  | _ => none

theorem exists_ran_of_places_of {project : Project} {ident : Ident}
    {places : List (String × String)} (shown : placesOf? project ident = some places) :
    ∃ contract result after, project.outcome? ident = some (.found contract) ∧
      searchMethods project contract = .ok result after ∧
      result.1.map (fun placed => (placed.method.name, placed.context.package)) = places := by
  unfold placesOf? at shown
  split at shown
  · rename_i contract outcome
    obtain ⟨result, after, ran, seen⟩ := exists_ok_of_run' shown
    exact ⟨contract, result, after, outcome, ran, seen⟩
  · cases shown

def wrongProject : Project :=
  ⟨⟨[(["a.go"], .file (Text.Glyph.ofString "package m\ntype W interface \x7b error \x7d\n") false)],
    by decide⟩, ⟨"/"⟩, "m", false⟩

def bareName? : Element → Option String
  | .embedded (.ident name) => some name
  | _ => none

theorem eq_of_bare_name {element : Element} {name : String}
    (bare : bareName? element = some name) : element = .embedded (.ident name) := by
  unfold bareName? at bare
  split at bare
  · rw [Option.some.inj bare]
  · cases bare

def bareNamesOf? (project : Project) (ident : Ident) : Option (List (Option String)) :=
  match project.outcome? ident with
  | some (.found contract) => some (contract.elements.map bareName?)
  | _ => none

theorem found_within {project : Project} {files : List ScannedFile} {name : String}
    {contract : Declaration} (known : "m" ∈ project.packagesOf files)
    (outcome : project.outcome? ⟨"m", name⟩ = some (.found contract)) :
    project.Found contract ∧ contract.package ∈ project.packagesOf files := by
  have same := Project.ident_of_found outcome
  rw [Project.Found, same, show contract.package = "m" from congrArg Ident.package same]
  exact ⟨outcome, known⟩

/-- The methods of both contracts and of the shared one stand once, the shared ones in the place of
the first embedding, with the package that declares them; and a predeclared name fails. -/
theorem expansion_ring_project :
    (∃ contract result after own, ringProject.outcome? ⟨"m", "R"⟩ = some (.found contract) ∧
      searchMethods ringProject contract = .ok result after ∧
      result.1.map (fun placed => (placed.method.name, placed.context.package)) =
        [("H", "m"), ("D", "m/p"), ("A", "m"), ("T", "m")] ∧
      ringProject.Expansion contract own ∧ result.1 = own.map (·.placed)) ∧
    ∃ contract failure after, wrongProject.outcome? ⟨"m", "W"⟩ = some (.found contract) ∧
      wrongProject.EmbedsKnown contract ∧
      searchMethods wrongProject contract = .error failure after := by
  constructor
  · have shown : placesOf? ringProject ⟨"m", "R"⟩ =
        some [("H", "m"), ("D", "m/p"), ("A", "m"), ("T", "m")] := by decide +kernel
    obtain ⟨contract, result, after, outcome, ran, places⟩ := exists_ran_of_places_of shown
    obtain ⟨found, named⟩ :=
      @found_within _ (allFiles ringProject) _ _ (by decide +kernel) outcome
    have expands := @contract_methods_expansion ringProject (allFiles ringProject) contract
      (ringProject.typeBound (allFiles ringProject)) .initial
    obtain ⟨-, own, expansion, placed⟩ := (expands found named (Nat.le_refl _)
      (Resolver.remembers_initial ringProject)).1.of_ok ran
    exact ⟨contract, result, after, own, outcome, ran, places, expansion, placed⟩
  · have shown : bareNamesOf? wrongProject ⟨"m", "W"⟩ = some [some "error"] := by decide +kernel
    unfold bareNamesOf? at shown
    split at shown
    · rename_i contract outcome
      obtain ⟨found, named⟩ :=
        @found_within _ (allFiles wrongProject) _ _ (by decide +kernel) outcome
      have expands := @contract_methods_expansion wrongProject (allFiles wrongProject) contract
        (wrongProject.typeBound (allFiles wrongProject)) .initial
      obtain ⟨element, elements, bare⟩ := List.map_eq_singleton_iff.1 (Option.some.inj shown)
      obtain rfl := eq_of_bare_name bare
      have identified :
          contract.context.identify (.ident "error") = .ok (.predeclared "error") := by
        rw [Context.identify, if_pos (by decide)]
      have known : wrongProject.EmbedsKnown contract := by
        apply Project.embeds_known_of_predeclared
        intro type member
        obtain rfl := ElementOf.embedded.inj (List.mem_singleton.1 (elements ▸ member))
        exact ⟨_, identified, by decide⟩
      have misembeds : wrongProject.Misembeds contract (.predeclared "error") :=
        ⟨.ident "error", elements ▸ List.mem_cons_self, identified, .inl (by decide)⟩
      obtain ⟨failure, after, ran⟩ := ((expands found named (Nat.le_refl _)
        (Resolver.remembers_initial wrongProject)).2 known).2 ⟨contract, _, .refl, misembeds⟩
      exact ⟨contract, failure, after, outcome, known, ran⟩
    · cases shown

end Assembly

end EndpointAtlas
