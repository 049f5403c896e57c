import EndpointAtlas.Proofs.Resolution.HalfRead

/-!
A resolver after look-ups of which some failed. Whatever it was asked before, it answers every
identifier of a package that counts as loaded from the files before the first syntax error. So a
look-up that fails to read a package marks it for good: the failure does not come again, and the
types of the other files are missing from then on.
-/

namespace EndpointAtlas.Resolver

open Go Project

/-- Whether a resolver can be the result of some look-ups. -/
def Reachable (project : Project) (resolver : Resolver) : Prop :=
  ∃ idents, (askAll project initial idents).2 = resolver

/-- Between any two look-ups, every outcome is that of the readable files, and a package has
outcomes only if it counts as loaded. The packages that were read in part are among some. -/
structure Tracks (project : Project) (half : List String) (resolver : Resolver) : Prop where
  faithful : ∀ ident lookup, resolver.outcome? ident = some lookup →
    ident.isPredeclared = false ∧ project.heldOutcome ident = lookup
  known : ∀ ident lookup, resolver.outcome? ident = some lookup →
    project.requests ident = true → ident.package ∈ resolver.loaded
  read : ∀ ident declaration, ident.package ∈ resolver.loaded →
    firstOf ident (project.readable ident.package) = some declaration →
      resolver.outcome? ident = some (.found declaration)
  noted : ∀ package ∈ resolver.loaded, project.declarations? package = none → package ∈ half

variable {project : Project} {half : List String} {before after resolver : Resolver}
  {ident : Ident} {lookup : Lookup} {failure : Failure}

theorem tracks_initial (project : Project) : Tracks project [] initial where
  faithful := by simp [initial, outcome?]
  known := by simp [initial, outcome?]
  read := by simp [initial]
  noted := by simp [initial]

namespace Tracks

theorem outcome_of_fresh (tracks : Tracks project half before)
    (requested : project.requests ident = true) (fresh : ident.package ∉ before.loaded) :
    before.outcome? ident = none :=
  Option.eq_none_iff_forall_ne_some.2 fun lookup held =>
    fresh (tracks.known ident lookup held requested)

theorem record (tracks : Tracks project half before) (named : ident.isPredeclared = false)
    (outcome : project.heldOutcome ident = lookup)
    (known : project.requests ident = true → ident.package ∈ before.loaded) :
    Tracks project half (before.record ident lookup) := by
  have origin : ∀ other kept, (before.record ident lookup).outcome? other = some kept →
      before.outcome? other = some kept ∨ other = ident ∧ kept = lookup := by
    intro other kept held
    rw [outcome_record, Option.or_eq_some_iff] at held
    rcases held with held | ⟨-, held⟩
    · exact .inl held
    · split at held
      · rename_i same
        exact .inr ⟨same, (Option.some.inj held).symm⟩
      · cases held
  constructor
  case faithful =>
    intro other kept held
    rcases origin other kept held with earlier | ⟨rfl, rfl⟩
    · exact tracks.faithful other kept earlier
    · exact ⟨named, outcome⟩
  case known =>
    intro other kept held requested
    rw [loaded_record]
    rcases origin other kept held with earlier | ⟨rfl, rfl⟩
    · exact tracks.known other kept earlier requested
    · exact known requested
  case read =>
    intro other declaration member first
    rw [loaded_record] at member
    rw [outcome_record, tracks.read other declaration member first]
    rfl
  case noted => simpa using tracks.noted

/-- Reading a package that can be asked for keeps track of it, also if it is read in part. -/
theorem of_reads (tracks : Tracks project half before) (requested : project.requests ident = true)
    (fresh : ident.package ∉ before.loaded) (reads : Reads project ident.package before after)
    {wider : List String} (within : half ⊆ wider)
    (noted : project.declarations? ident.package = none → ident.package ∈ wider) :
    Tracks project wider after := by
  have requests : ∀ other : Ident, other.package = ident.package →
      project.requests other = true := fun other same =>
    (requests_of_package other ident same).trans requested
  have origin : ∀ other kept, after.outcome? other = some kept →
      before.outcome? other = some kept ∨ ∃ declaration,
        firstOf other (project.readable ident.package) = some declaration ∧
          kept = .found declaration := by
    intro other kept held
    rw [reads.outcomes, Option.or_eq_some_iff] at held
    rcases held with held | ⟨-, held⟩
    · exact .inl held
    · obtain ⟨declaration, first, rfl⟩ := Option.map_eq_some_iff.1 held
      exact .inr ⟨declaration, first, rfl⟩
  constructor
  case faithful =>
    intro other kept held
    rcases origin other kept held with earlier | ⟨declaration, first, rfl⟩
    · exact tracks.faithful other kept earlier
    · have same := (package_of_first_of first).1
      have asked := requests other same
      rw [held_outcome_of_requests asked, same, first]
      exact ⟨by simpa [Project.requests] using (Bool.and_eq_true_iff.1 asked).1, rfl⟩
  case known =>
    intro other kept held asked
    rw [reads.loaded]
    rcases origin other kept held with earlier | ⟨declaration, first, -⟩
    · exact List.mem_cons_of_mem _ (tracks.known other kept earlier asked)
    · rw [(package_of_first_of first).1]
      exact List.mem_cons_self
  case read =>
    intro other declaration member first
    rw [reads.loaded] at member
    rw [reads.outcomes]
    rcases List.mem_cons.1 member with same | earlier
    · rw [tracks.outcome_of_fresh (requests other same) (same ▸ fresh), ← same, first]
      rfl
    · rw [tracks.read other declaration earlier first]
      rfl
  case noted =>
    intro package member unread
    rw [reads.loaded] at member
    rcases List.mem_cons.1 member with rfl | earlier
    · exact noted unread
    · exact within (tracks.noted package earlier unread)

end Tracks

theorem is_predeclared_of_requests (requested : project.requests ident = true) :
    ident.isPredeclared = false := by
  simpa [requests] using (Bool.and_eq_true_iff.1 requested).1

namespace Looked

/-- The outcome of a package that counts as loaded and is not held is that no readable file
declares the type. -/
theorem held_outcome_of_unheld (tracks : Tracks project half resolver)
    (requested : project.requests ident = true) (read : ident.package ∈ resolver.loaded)
    (unheld : resolver.outcome? ident = none) : project.heldOutcome ident = .missing := by
  rw [held_outcome_of_requests requested]
  cases first : firstOf ident (project.readable ident.package) with
  | none => rfl
  | some declaration =>
      rw [tracks.read ident declaration read first] at unheld
      cases unheld

theorem loaded (looked : Looked project ident before lookup after) :
    before.loaded ⊆ after.loaded := by
  intro package member
  cases looked with
  | predeclared | held => exact member
  | external | unheld => simpa using member
  | found _ _ _ reads | unfound _ _ _ reads =>
      simp only [loaded_record, reads.loaded]
      exact List.mem_cons_of_mem _ member

theorem answers (looked : Looked project ident before lookup after)
    (tracks : Tracks project half before) :
    project.heldOutcome ident = lookup ∧ Tracks project half after := by
  cases looked with
  | predeclared predeclared => exact ⟨held_outcome_of_is_predeclared predeclared, tracks⟩
  | held _ held => exact ⟨(tracks.faithful ident lookup held).2, tracks⟩
  | external named _ outside =>
      have external := held_outcome_of_external named outside
      exact ⟨external, tracks.record named external fun requested => by
        simp [requests, outside] at requested⟩
  | unheld requested unheld read =>
      have missing := held_outcome_of_unheld tracks requested read unheld
      exact ⟨missing, tracks.record (is_predeclared_of_requests requested) missing fun _ => read⟩
  | found requested fresh read reads held =>
      have next := tracks.of_reads requested fresh reads (List.Subset.refl half) fun unread => by
        simp [unread] at read
      exact ⟨(next.faithful ident lookup held).2, next⟩
  | @unfound between requested fresh read reads unheld =>
      have next := tracks.of_reads requested fresh reads (List.Subset.refl half) fun unread => by
        simp [unread] at read
      have member : ident.package ∈ between.loaded := by simp [reads.loaded]
      have missing := held_outcome_of_unheld next requested member unheld
      exact ⟨missing, next.record (is_predeclared_of_requests requested) missing fun _ => member⟩

theorem reads (looked : Looked project ident before lookup after)
    (tracks : Tracks project half before) (requested : project.requests ident = true) :
    ident.package ∈ after.loaded := by
  cases looked with
  | predeclared predeclared => simp [is_predeclared_of_requests requested] at predeclared
  | held _ held => exact tracks.known ident lookup held requested
  | external _ _ outside => simp [requests, outside] at requested
  | unheld _ _ read => simpa using read
  | found _ _ _ reads | unfound _ _ _ reads => simp [reads.loaded]

end Looked

theorem Failed.tracks (failed : Failed project ident failure before after)
    (tracks : Tracks project half before) : Tracks project (ident.package :: half) after :=
  tracks.of_reads failed.requested failed.fresh failed.reads (List.subset_cons_self _ _)
    fun _ => List.mem_cons_self

theorem ask_step (project : Project) (resolver : Resolver) (ident : Ident) :
    (∃ lookup, Looked project ident resolver lookup (ask project resolver ident).2 ∧
        (ask project resolver ident).1 = answer ident lookup) ∨
      ∃ failure, Failed project ident failure resolver (ask project resolver ident).2 ∧
        (ask project resolver ident).1 = .error failure := by
  have step := lookup_step project ident resolver
  rw [ask_eq]
  cases ran : Resolver.lookup project ident resolver with
  | ok lookup after => exact .inl ⟨lookup, step.of_ok ran, rfl⟩
  | error failure after => exact .inr ⟨failure, step.of_error ran, rfl⟩

theorem ask_loaded (project : Project) (resolver : Resolver) (ident : Ident) :
    resolver.loaded ⊆ (ask project resolver ident).2.loaded := by
  rcases ask_step project resolver ident with ⟨lookup, looked, -⟩ | ⟨failure, failed, -⟩
  · exact looked.loaded
  · rw [failed.reads.loaded]
    exact List.subset_cons_self _ _

theorem Tracks.ask (tracks : Tracks project half resolver) (ident : Ident) :
    ∃ wider, Tracks project wider (ask project resolver ident).2 := by
  rcases ask_step project resolver ident with ⟨lookup, looked, -⟩ | ⟨failure, failed, -⟩
  · exact ⟨half, (looked.answers tracks).2⟩
  · exact ⟨_, failed.tracks tracks⟩

theorem Tracks.ask_all (tracks : Tracks project half resolver) (idents : List Ident) :
    resolver.loaded ⊆ (askAll project resolver idents).2.loaded ∧
      ∃ wider, Tracks project wider (askAll project resolver idents).2 := by
  induction idents generalizing half resolver with
  | nil => exact ⟨List.Subset.refl _, half, tracks⟩
  | cons ident rest ih =>
      obtain ⟨wider, next⟩ := tracks.ask ident
      obtain ⟨loaded, last⟩ := ih next
      exact ⟨List.Subset.trans (ask_loaded project resolver ident) loaded, last⟩

/-- The packages that count as loaded but have a file that cannot be read. -/
def halfRead (project : Project) (resolver : Resolver) : List String :=
  resolver.loaded.filter fun package => (project.declarations? package).isNone

theorem Reachable.tracks (reachable : Reachable project resolver) :
    Tracks project (resolver.halfRead project) resolver := by
  obtain ⟨idents, rfl⟩ := reachable
  obtain ⟨-, half, tracks⟩ := (tracks_initial project).ask_all idents
  exact { tracks with
    noted := fun package member unread => List.mem_filter.2 ⟨member, by simp [unread]⟩ }

/-- An identifier of a package that counts as loaded is answered from the readable files. -/
theorem Tracks.ask_of_loaded (tracks : Tracks project half resolver)
    (requested : project.requests ident = true) (read : ident.package ∈ resolver.loaded) :
    (Resolver.ask project resolver ident).1 =
      .ok (firstOf ident (project.readable ident.package)) := by
  rcases ask_step project resolver ident with ⟨lookup, looked, same⟩ | ⟨failure, failed, -⟩
  · rw [same, ← (looked.answers tracks).1, held_outcome_of_requests requested]
    cases firstOf ident (project.readable ident.package) <;> rfl
  · exact absurd read failed.fresh

/-- What a look-up leaves that fails to read a package. -/
structure LeavesHalfRead (project : Project) (ident : Ident) (failure : Failure)
    (before after : Resolver) : Prop where
  /-- The failure names the first file of the package that has a syntax error. -/
  fault : project.ReadFault ident.package failure
  /-- The package counts as loaded, which it did not before, and its readable files are counted. -/
  marked : ident.package ∉ before.loaded ∧ after.loaded = ident.package :: before.loaded ∧
    after.filesParsed = before.filesParsed + (project.readableFiles ident.package).length
  /-- Of the package the types of the readable files are held now, and nothing else is. -/
  outcomes : ∀ other,
    (other.package ≠ ident.package → after.outcome? other = before.outcome? other) ∧
    (other.package = ident.package → before.outcome? other = none ∧
      after.outcome? other = (firstOf other (project.readable ident.package)).map .found)
  /-- Whatever is asked in between, no look-up in the package fails again: it finds the types of the
  readable files and reports all others as missing. -/
  later : ∀ idents other, other.package = ident.package → ∃ found,
    (ask project (askAll project after idents).2 other).1 = .ok found ∧
      (∀ declaration ∈ found, project.DeclaresFirst other declaration) ∧
        (found = none ↔ ∀ file ∈ project.readableFiles ident.package, ∀ source,
          SourceFile.ofSource? file.2 = some source → ∀ spec ∈ source.types,
            spec.name ≠ other.name)

theorem Failed.leaves_half_read (failed : Failed project ident failure before after)
    (tracks : Tracks project half before) : LeavesHalfRead project ident failure before after := by
  have requests : ∀ other : Ident, other.package = ident.package →
      project.requests other = true := fun other same =>
    (requests_of_package other ident same).trans failed.requested
  refine ⟨failed.fault, ⟨failed.fresh, failed.reads.loaded, failed.reads.counted⟩,
    fun other => ⟨fun apart => ?_, fun same => ?_⟩, fun idents other same => ?_⟩
  · have absent : firstOf other (project.readable ident.package) = none :=
      Option.eq_none_iff_forall_ne_some.2 fun _ first => apart (package_of_first_of first).1
    rw [failed.reads.outcomes, absent]
    simp
  · have unheld := tracks.outcome_of_fresh (requests other same) (same ▸ failed.fresh)
    rw [failed.reads.outcomes, unheld]
    exact ⟨rfl, rfl⟩
  · obtain ⟨loaded, wider, next⟩ := (failed.tracks tracks).ask_all idents
    have read : other.package ∈ (askAll project after idents).2.loaded := by
      apply loaded
      rw [failed.reads.loaded, same]
      exact List.mem_cons_self
    refine ⟨_, next.ask_of_loaded (requests other same) read, ?_, ?_⟩
    · exact fun declaration first => declares_first_of_readable first
    · rw [first_of_readable_eq_none_iff, same]

/-- A look-up that fails to read a package, in any reachable state, leaves it half read. -/
theorem leaves_half_read_of_ask (reachable : Reachable project resolver)
    (failed : (ask project resolver ident).1 = .error failure)
    (fault : failure.isReadFault = true) :
    LeavesHalfRead project ident failure resolver (ask project resolver ident).2 := by
  rcases ask_step project resolver ident with ⟨lookup, -, same⟩ | ⟨other, step, same⟩
  · rw [failed] at same
    cases lookup <;> cases same
    cases fault
  · obtain rfl := Except.error.inj (failed.symm.trans same)
    exact step.leaves_half_read reachable.tracks

def tornProject : Project where
  tree := ⟨[
    (["a.go"], .file (Text.Glyph.ofString "package m\ntype U struct \x7b\x7d\n") false),
    (["b.go"], .file (Text.Glyph.ofString "package m\nfunc \x7b\n") false),
    (["c.go"], .file (Text.Glyph.ofString "package m\ntype T struct \x7b\x7d\n") false)],
    by decide⟩
  root := ⟨"/"⟩
  module := "m"
  includeTests := false

def tornResolver : Resolver := (ask tornProject initial ⟨"n", "T"⟩).2

def failureOf? : Except Failure (Option Declaration) → Option Failure
  | .error failure => some failure
  | .ok _ => none

theorem eq_error_of_failure_of {result : Except Failure (Option Declaration)}
    (failed : failureOf? result = some failure) : result = .error failure := by
  cases result with
  | error other => rw [Option.some.inj failed]
  | ok found => cases failed

theorem leaves_half_read_torn_project :
    Reachable tornProject tornResolver ∧
      (ask tornProject tornResolver ⟨"m", "T"⟩).1 = .error (.syntaxError ⟨"/b.go"⟩) ∧
        LeavesHalfRead tornProject ⟨"m", "T"⟩ (.syntaxError ⟨"/b.go"⟩) tornResolver
          (ask tornProject tornResolver ⟨"m", "T"⟩).2 := by
  have reachable : Reachable tornProject tornResolver := ⟨[⟨"n", "T"⟩], rfl⟩
  have failed : (ask tornProject tornResolver ⟨"m", "T"⟩).1 = .error (.syntaxError ⟨"/b.go"⟩) :=
    eq_error_of_failure_of (by decide +kernel)
  exact ⟨reachable, failed, leaves_half_read_of_ask reachable failed rfl⟩

/-- Whether a file of a package declares a type of the name. -/
def isDeclaredIn (project : Project) (package name : String) : Bool :=
  (project.filesOf package).any fun file =>
    ((SourceFile.ofSource? file.2).map fun source => source.types.any (·.name == name)).getD false

theorem exists_of_is_declared_in {package name : String}
    (declared : isDeclaredIn project package name = true) :
    ∃ file ∈ project.filesOf package, ∃ source, SourceFile.ofSource? file.2 = some source ∧
      ∃ spec ∈ source.types, spec.name = name := by
  obtain ⟨file, listed, declares⟩ := List.any_eq_true.1 declared
  cases parsed : SourceFile.ofSource? file.2 with
  | none => simp [parsed] at declares
  | some source => exact ⟨file, listed, source, parsed, by simpa [parsed] using declares⟩

def isMissing : Except Failure (Option Declaration) → Bool
  | .ok none => true
  | _ => false

theorem eq_missing_of_is_missing {result : Except Failure (Option Declaration)}
    (missing : isMissing result = true) : result = .ok none := by
  unfold isMissing at missing
  split at missing
  · rfl
  · cases missing

/-- The look-up that failed has marked the package and has kept a type of it, and asked again it
reports a type as missing that a file of the package declares. -/
theorem not_unchanged_torn_project :
    let failed := ask tornProject initial ⟨"m", "T"⟩
    failed.1 = .error (.syntaxError ⟨"/b.go"⟩) ∧ failed.2.loaded = ["m"] ∧
      (failed.2.outcome? ⟨"m", "U"⟩).isSome = true ∧
        (ask tornProject failed.2 ⟨"m", "T"⟩).1 = .ok none ∧
          ∃ file ∈ tornProject.filesOf "m", ∃ source, SourceFile.ofSource? file.2 = some source ∧
            ∃ spec ∈ source.types, spec.name = "T" := by
  refine ⟨eq_error_of_failure_of (by decide +kernel), by decide +kernel, by decide +kernel,
    eq_missing_of_is_missing (by decide +kernel), exists_of_is_declared_in (by decide +kernel)⟩

end EndpointAtlas.Resolver
