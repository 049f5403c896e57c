import EndpointAtlas.Proofs.Resolution.Declarations
import EndpointAtlas.Proofs.Steps

/-!
What a resolver remembers. Between two look-ups that do not fail, every outcome it holds is the
outcome of the project, a package of the project has outcomes only after all of its files were read,
and every declaration of a package that was read is held.
-/

namespace EndpointAtlas

open Go

namespace Resolver

open Project

theorem outcome_record (resolver : Resolver) (ident other : Ident) (lookup : Lookup) :
    (resolver.record ident lookup).outcome? other =
      (resolver.outcome? other).or (if other = ident then some lookup else none) := by
  unfold record
  split
  · rename_i known
    by_cases same : other = ident
    · subst same
      obtain ⟨held, holds⟩ := Option.isSome_iff_exists.1 known
      simp [holds]
    · simp [same]
  · rename_i unknown
    by_cases same : other = ident
    · subst same
      have nothing : resolver.outcome? other = none := by simpa using unknown
      rw [nothing]
      simp [outcome?]
    · have distinct : (other == ident) = false := by simpa using same
      simp [outcome?, List.lookup_cons, distinct, same]

@[simp] theorem loaded_record (resolver : Resolver) (ident : Ident) (lookup : Lookup) :
    (resolver.record ident lookup).loaded = resolver.loaded := by
  unfold record
  split <;> rfl

@[simp] theorem files_parsed_record (resolver : Resolver) (ident : Ident) (lookup : Lookup) :
    (resolver.record ident lookup).filesParsed = resolver.filesParsed := by
  unfold record
  split <;> rfl

/-- A resolver after it has recorded some declarations, the first of a name before the others. -/
theorem recorded (declarations : List Declaration) (resolver : Resolver) :
    let after := declarations.foldl
      (fun resolver declaration => resolver.record declaration.ident (.found declaration)) resolver
    after.loaded = resolver.loaded ∧ after.filesParsed = resolver.filesParsed ∧
      ∀ ident, after.outcome? ident =
        (resolver.outcome? ident).or ((firstOf ident declarations).map .found) := by
  induction declarations generalizing resolver with
  | nil => simp [firstOf]
  | cons declaration rest ih =>
      obtain ⟨loaded, counted, outcomes⟩ :=
        ih (resolver.record declaration.ident (.found declaration))
      refine ⟨by simpa using loaded, by simpa using counted, fun ident => ?_⟩
      rw [List.foldl_cons, outcomes, outcome_record, Option.or_assoc]
      congr 1
      by_cases same : declaration.ident = ident
      · simp [firstOf, same]
      · have differs : ¬ ident = declaration.ident := fun equal => same equal.symm
        simp [firstOf, same, differs]

theorem load_file_yields (package : String) (dir : Path) (file : String × List Text.Glyph)
    (resolver : Resolver) :
    Yields (loadFile package dir file) resolver
      (fun _ after => ∃ source, SourceFile.ofSource? file.2 = some source ∧
        after.loaded = resolver.loaded ∧ after.filesParsed = resolver.filesParsed + 1 ∧
        ∀ ident, after.outcome? ident = (resolver.outcome? ident).or
          ((firstOf ident (declarationsOf package (dir.join ⟨file.1⟩) source)).map .found))
      (fun failure _ => SourceFile.ofSource? file.2 = none ∧
        ∃ path, failure = .syntaxError path) := by
  unfold loadFile
  cases read : SourceFile.ofSource? file.2 with
  | none => exact Yields.throw ⟨rfl, _, rfl⟩
  | some source =>
      refine Yields.modify ⟨source, rfl, ?_⟩
      exact recorded (declarationsOf package (dir.join ⟨file.1⟩) source)
        { resolver with filesParsed := resolver.filesParsed + 1 }

theorem load_files_yields (package : String) (dir : Path) (files : List (String × List Text.Glyph))
    (resolver : Resolver) :
    Yields (files.forM (loadFile package dir)) resolver
      (fun _ after => ∃ declarations, declarationsIn? package dir files = some declarations ∧
        after.loaded = resolver.loaded ∧
        after.filesParsed = resolver.filesParsed + files.length ∧
        ∀ ident, after.outcome? ident =
          (resolver.outcome? ident).or ((firstOf ident declarations).map .found))
      (fun failure _ => declarationsIn? package dir files = none ∧
        ∃ path, failure = .syntaxError path) := by
  induction files generalizing resolver with
  | nil => exact Yields.pure ⟨[], rfl, rfl, rfl, by simp [firstOf]⟩
  | cons file rest ih =>
      rw [List.forM_eq_forM, List.forM_cons]
      refine Yields.bind ((load_file_yields package dir file resolver).mono
        (fun _ _ own => own) fun failure after failed => ?_) fun _ between own => ?_
      · exact ⟨by simp [declarationsIn?, failed.1], failed.2⟩
      · obtain ⟨source, read, loaded, counted, outcomes⟩ := own
        refine (ih between).mono (fun _ after others => ?_) fun failure after failed => ?_
        · obtain ⟨declarations, readRest, loadedRest, countedRest, outcomesRest⟩ := others
          refine ⟨declarationsOf package (dir.join ⟨file.1⟩) source ++ declarations,
            by simp [declarationsIn?, read, readRest], loadedRest.trans loaded, ?_, fun ident => ?_⟩
          · rw [countedRest, counted, List.length_cons]
            omega
          · rw [outcomesRest, outcomes, Option.or_assoc]
            simp [firstOf, Option.map_or]
        · exact ⟨by simp [declarationsIn?, read, failed.1], failed.2⟩

/-- What holds of a resolver between two look-ups. -/
structure Remembers (project : Project) (resolver : Resolver) : Prop where
  faithful : ∀ ident lookup, resolver.outcome? ident = some lookup →
    ident.isPredeclared = false ∧ project.outcome? ident = some lookup
  known : ∀ ident lookup, resolver.outcome? ident = some lookup →
    project.requests ident = true → ident.package ∈ resolver.loaded
  read : ∀ package ∈ resolver.loaded, ∃ declarations,
    project.declarations? package = some declarations ∧
      ∀ ident declaration, ident.package = package →
        firstOf ident declarations = some declaration →
          resolver.outcome? ident = some (.found declaration)
  requested : ∀ package ∈ resolver.loaded, project.requests ⟨package, ""⟩ = true
  distinct : resolver.loaded.Nodup
  counted : resolver.filesParsed = (resolver.loaded.flatMap project.filesOf).length

theorem remembers_initial (project : Project) : Remembers project initial where
  faithful := by simp [initial, outcome?]
  known := by simp [initial, outcome?]
  read := by simp [initial]
  requested := by simp [initial]
  distinct := .nil
  counted := rfl

theorem requests_of_package {project : Project} (first second : Ident)
    (same : first.package = second.package) : project.requests first = project.requests second := by
  simp only [requests, Ident.isPredeclared, same]

namespace Remembers

variable {project : Project} {resolver : Resolver} {package : String}

theorem outcome_of_fresh (remembers : Remembers project resolver)
    (requested : project.requests ⟨package, ""⟩ = true) (fresh : package ∉ resolver.loaded)
    {ident : Ident} (same : ident.package = package) : resolver.outcome? ident = none := by
  refine Option.eq_none_iff_forall_ne_some.2 fun lookup held => fresh ?_
  rw [← same]
  apply remembers.known ident lookup held
  rw [requests_of_package _ ⟨package, ""⟩ same]
  exact requested

structure Added (project : Project) (package : String) (before after : Resolver) : Prop where
  loaded : after.loaded = package :: before.loaded
  counted : after.filesParsed = before.filesParsed + (project.filesOf package).length
  outcomes : ∃ declarations, project.declarations? package = some declarations ∧
    ∀ ident, after.outcome? ident =
      (before.outcome? ident).or ((firstOf ident declarations).map .found)

theorem Added.kept {before after : Resolver} (added : Added project package before after)
    {ident : Ident} {lookup : Lookup} (held : before.outcome? ident = some lookup) :
    after.outcome? ident = some lookup := by
  obtain ⟨declarations, -, outcomes⟩ := added.outcomes
  rw [outcomes, held]
  rfl

theorem of_added {after : Resolver} (remembers : Remembers project resolver)
    (requested : project.requests ⟨package, ""⟩ = true) (fresh : package ∉ resolver.loaded)
    (added : Added project package resolver after) : Remembers project after := by
  obtain ⟨declarations, read, outcomes⟩ := added.outcomes
  have inPackage : ∀ ident declaration, firstOf ident declarations = some declaration →
      ident.package = package := by
    intro ident declaration first
    have same : declaration.ident = ident := by simpa using List.find?_some first
    rw [← same]
    exact (declared_of_mem read (List.mem_of_find?_eq_some first)).1
  have origin : ∀ ident lookup, after.outcome? ident = some lookup →
      resolver.outcome? ident = some lookup ∨ ∃ declaration,
        firstOf ident declarations = some declaration ∧ lookup = .found declaration := by
    intro ident lookup held
    rw [outcomes, Option.or_eq_some_iff] at held
    rcases held with held | ⟨-, held⟩
    · exact .inl held
    · obtain ⟨declaration, first, rfl⟩ := Option.map_eq_some_iff.1 held
      exact .inr ⟨declaration, first, rfl⟩
  constructor
  case faithful =>
    intro ident lookup held
    rcases origin ident lookup held with earlier | ⟨declaration, first, rfl⟩
    · exact remembers.faithful ident lookup earlier
    · have same := inPackage ident declaration first
      have asked : project.requests ident = true := by
        rw [requests_of_package _ ⟨package, ""⟩ same]
        exact requested
      refine ⟨?_, found_iff.2 ⟨asked, declarations, same ▸ read, first⟩⟩
      simpa [requests] using (Bool.and_eq_true_iff.1 asked).1
  case known =>
    intro ident lookup held asked
    rw [added.loaded]
    rcases origin ident lookup held with earlier | ⟨declaration, first, -⟩
    · exact List.mem_cons_of_mem _ (remembers.known ident lookup earlier asked)
    · rw [inPackage ident declaration first]
      exact List.mem_cons_self
  case read =>
    intro other member
    rw [added.loaded] at member
    rcases List.mem_cons.1 member with rfl | earlier
    · refine ⟨declarations, read, fun ident declaration same first => ?_⟩
      rw [outcomes, remembers.outcome_of_fresh requested fresh same, first]
      rfl
    · obtain ⟨others, readOthers, held⟩ := remembers.read other earlier
      exact ⟨others, readOthers, fun ident declaration same first =>
        added.kept (held ident declaration same first)⟩
  case requested =>
    intro other member
    rw [added.loaded] at member
    rcases List.mem_cons.1 member with rfl | earlier
    · exact requested
    · exact remembers.requested other earlier
  case distinct =>
    rw [added.loaded]
    exact List.nodup_cons.2 ⟨fresh, remembers.distinct⟩
  case counted =>
    rw [added.counted, added.loaded, List.flatMap_cons, List.length_append, remembers.counted,
      Nat.add_comm]

theorem record {ident : Ident} {lookup : Lookup} (remembers : Remembers project resolver)
    (named : ident.isPredeclared = false) (outcome : project.outcome? ident = some lookup)
    (known : project.requests ident = true → ident.package ∈ resolver.loaded) :
    Remembers project (resolver.record ident lookup) := by
  have origin : ∀ other kept, (resolver.record ident lookup).outcome? other = some kept →
      resolver.outcome? other = some kept ∨ other = ident ∧ kept = lookup := by
    intro other kept held
    rw [outcome_record, Option.or_eq_some_iff] at held
    rcases held with held | ⟨-, held⟩
    · exact .inl held
    · split at held
      · rename_i same
        exact .inr ⟨same, (Option.some.inj held).symm⟩
      · cases held
  constructor
  case faithful =>
    intro other kept held
    rcases origin other kept held with earlier | ⟨rfl, rfl⟩
    · exact remembers.faithful other kept earlier
    · exact ⟨named, outcome⟩
  case known =>
    intro other kept held asked
    rw [loaded_record]
    rcases origin other kept held with earlier | ⟨rfl, rfl⟩
    · exact remembers.known other kept earlier asked
    · exact known asked
  case read =>
    intro package member
    rw [loaded_record] at member
    obtain ⟨declarations, read, held⟩ := remembers.read package member
    refine ⟨declarations, read, fun other declaration same first => ?_⟩
    rw [outcome_record, held other declaration same first]
    rfl
  case requested => simpa using remembers.requested
  case distinct => simpa using remembers.distinct
  case counted => simpa using remembers.counted

end Remembers

theorem load_package_yields {project : Project} {resolver : Resolver} {package : String} :
    Yields (loadPackage project package) resolver
      (fun _ after => Remembers.Added project package resolver after)
      (fun failure _ => project.declarations? package = none ∧
        ∃ path, failure = .syntaxError path) := by
  unfold loadPackage
  apply Yields.bind_modify
  cases located : packageDir? project.root project.module package with
  | none =>
      refine Yields.pure ⟨rfl, ?_, [], ?_, fun ident => ?_⟩
      · simp [filesOf, located]
      · simp [declarations?, located]
      · simp [firstOf, outcome?]
  | some dir =>
      refine (load_files_yields package dir _ _).mono (fun _ after read => ?_)
        fun failure after failed => ?_
      · obtain ⟨declarations, whole, loaded, counted, outcomes⟩ := read
        refine ⟨loaded, ?_, declarations, ?_, outcomes⟩
        · simpa [filesOf, located] using counted
        · simpa [declarations?, located] using whole
      · exact ⟨by simpa [declarations?, located] using failed.1, failed.2⟩

/-- What one look-up adds to what a resolver remembers. -/
structure Learns (project : Project) (ident : Ident) (before after : Resolver) : Prop where
  remembers : Remembers project after
  kept : ∀ other lookup, before.outcome? other = some lookup → after.outcome? other = some lookup
  outcome : ident.isPredeclared = false → after.outcome? ident = project.outcome? ident
  loaded : ∀ package, package ∈ after.loaded ↔
    package ∈ before.loaded ∨ project.requests ident = true ∧ package = ident.package

/-- An outcome that is recorded for an identifier that had none is learnt. -/
theorem Learns.of_record {project : Project} {before resolver : Resolver} {ident : Ident}
    {lookup : Lookup} (remembers : Remembers project resolver)
    (named : ident.isPredeclared = false) (outcome : project.outcome? ident = some lookup)
    (unheld : resolver.outcome? ident = none)
    (loaded : ∀ package, package ∈ resolver.loaded ↔
      package ∈ before.loaded ∨ project.requests ident = true ∧ package = ident.package)
    (kept : ∀ other lookup, before.outcome? other = some lookup →
      resolver.outcome? other = some lookup) :
    Learns project ident before (resolver.record ident lookup) where
  remembers := remembers.record named outcome fun asked =>
    (loaded ident.package).2 (.inr ⟨asked, rfl⟩)
  kept := by
    intro other earlier held
    rw [outcome_record, kept other earlier held]
    rfl
  outcome := by
    intro _
    rw [outcome_record, unheld, outcome]
    simp
  loaded := by simpa using loaded

theorem lookup_of_kept {project : Project} {resolver : Resolver} {ident : Ident} {lookup : Lookup}
    (named : ident.isPredeclared = false) (held : resolver.outcome? ident = some lookup) :
    Resolver.lookup project ident resolver = .ok lookup resolver := by
  unfold Resolver.lookup
  rw [if_neg (by simp [named])]
  rw [Yields.get_bind_apply, held]
  rfl

theorem lookup_of_is_predeclared {project : Project} {resolver : Resolver} {ident : Ident}
    (predeclared : ident.isPredeclared = true) :
    Resolver.lookup project ident resolver = .ok .missing resolver := by
  unfold Resolver.lookup
  rw [if_pos predeclared]
  rfl

/-- What remains of a look-up when its package has been read. -/
theorem answer_yields {project : Project} {before resolver : Resolver} {ident : Ident}
    (remembers : Remembers project resolver) (asked : project.requests ident = true)
    (read : ident.package ∈ resolver.loaded)
    (loaded : ∀ package, package ∈ resolver.loaded ↔
      package ∈ before.loaded ∨ project.requests ident = true ∧ package = ident.package)
    (kept : ∀ other lookup, before.outcome? other = some lookup →
      resolver.outcome? other = some lookup) :
    Yields (do
        match (← get).outcome? ident with
        | some lookup => return lookup
        | none =>
            modify (·.record ident .missing)
            return .missing : Resolve Lookup) resolver
      (fun lookup after => project.outcome? ident = some lookup ∧
        Learns project ident before after)
      (fun failure _ => project.outcome? ident = none ∧ ∃ path, failure = .syntaxError path) := by
  have named : ident.isPredeclared = false := by
    simpa [requests] using (Bool.and_eq_true_iff.1 asked).1
  apply Yields.bind_get
  split
  · rename_i lookup held
    have same := (remembers.faithful ident lookup held).2
    exact Yields.pure ⟨same, remembers, kept, fun _ => held.trans same.symm, loaded⟩
  · rename_i unheld
    obtain ⟨declarations, whole, holds⟩ := remembers.read ident.package read
    have absent : firstOf ident declarations = none := by
      apply Option.eq_none_iff_forall_ne_some.2
      intro declaration first
      rw [holds ident declaration rfl first] at unheld
      cases unheld
    have missing : project.outcome? ident = some .missing := by
      rw [outcome_of_requests asked, whole]
      simp [absent]
    apply Yields.bind_modify
    exact Yields.pure ⟨missing, .of_record remembers named missing unheld loaded kept⟩

/-- A look-up answers with the outcome of the project, and fails only if there is none. -/
theorem lookup_yields {project : Project} {resolver : Resolver} (ident : Ident)
    (remembers : Remembers project resolver) :
    Yields (Resolver.lookup project ident) resolver
      (fun lookup after => project.outcome? ident = some lookup ∧
        Learns project ident resolver after)
      (fun failure _ => project.outcome? ident = none ∧ ∃ path, failure = .syntaxError path) := by
  unfold Resolver.lookup
  split
  · rename_i predeclared
    refine Yields.pure
      ⟨outcome_of_is_predeclared predeclared, remembers, fun _ _ held => held, ?_, ?_⟩
    · simp [predeclared]
    · simp [requests, predeclared]
  · rename_i notPredeclared
    have named : ident.isPredeclared = false := by simpa using notPredeclared
    apply Yields.bind_get
    split
    · rename_i lookup held
      have same := (remembers.faithful ident lookup held).2
      refine Yields.pure
        ⟨same, remembers, fun _ _ held => held, fun _ => held.trans same.symm, fun package => ?_⟩
      refine ⟨.inl, ?_⟩
      rintro (member | ⟨asked, rfl⟩)
      · exact member
      · exact remembers.known ident lookup held asked
    · rename_i unheld
      split
      · rename_i outside
        have external : project.outcome? ident = some .external :=
          outcome_of_external named (by simpa using outside)
        have unasked : project.requests ident = false := by
          simp only [requests, Bool.and_eq_false_iff]
          exact .inr (by simpa using outside)
        apply Yields.bind_modify
        apply Yields.pure
        exact ⟨external, .of_record remembers named external unheld (by simp [unasked])
          fun _ _ held => held⟩
      · rename_i inside
        have asked : project.requests ident = true := by
          simp only [requests, named, Bool.not_false, Bool.true_and]
          simpa using inside
        have requested : project.requests ⟨ident.package, ""⟩ = true := asked
        apply Yields.bind_get
        dsimp only
        split
        · rename_i already
          have member : ident.package ∈ resolver.loaded := by simpa using already
          refine answer_yields remembers asked member (fun package => ⟨.inl, ?_⟩)
            fun _ _ held => held
          rintro (member | ⟨-, rfl⟩)
          · exact member
          · exact member
        · rename_i unread
          have fresh : ident.package ∉ resolver.loaded := by simpa using unread
          refine Yields.bind (load_package_yields.mono (fun _ _ added => added)
            fun failure after failed => ?_) fun _ between added => ?_
          · exact ⟨by simp [outcome_of_requests asked, failed.1], failed.2⟩
          · refine answer_yields (remembers.of_added requested fresh added) asked ?_ ?_
              fun _ _ held => added.kept held
            · rw [added.loaded]
              exact List.mem_cons_self
            · intro package
              rw [added.loaded, List.mem_cons]
              simp [asked, or_comm]

end Resolver

end EndpointAtlas
