import Mathlib.Data.List.TakeWhile
import EndpointAtlas.Proofs.Resolution.History

/-!
Packages that a resolver has read in part. A package counts as loaded before its files are read, so
a file with a syntax error leaves it half read: the types of the files before that one are held, and
every later look-up in the package is answered from them, as if the other files were not there.
-/

namespace EndpointAtlas

open Go

namespace Project

def parses (file : String × List Text.Glyph) : Bool := (SourceFile.ofSource? file.2).isSome

/-- The files of a package before the first one with a syntax error. -/
def readableFiles (project : Project) (package : String) : List (String × List Text.Glyph) :=
  (project.filesOf package).takeWhile parses

def readable (project : Project) (package : String) : List Declaration :=
  match packageDir? project.root project.module package with
  | none => []
  | some dir => (declarationsIn? package dir (project.readableFiles package)).getD []

/-- Why a package cannot be read, as a failure says it: the first of its files that has a syntax
error. -/
def ReadFault (project : Project) (package : String) (failure : Failure) : Prop :=
  ∃ dir file later, packageDir? project.root project.module package = some dir ∧
    project.filesOf package = project.readableFiles package ++ file :: later ∧
      SourceFile.ofSource? file.2 = none ∧ failure = .syntaxError (dir.join ⟨file.1⟩)

/-- The outcome of an identifier for a resolver that counts its package as loaded. -/
def heldOutcome (project : Project) (ident : Ident) : Lookup :=
  if ident.isPredeclared then .missing
  else if isProjectPackage project.module ident.package then
    match firstOf ident (project.readable ident.package) with
    | some declaration => .found declaration
    | none => .missing
  else .external

section

variable {package : String} {dir : Path} {files : List (String × List Text.Glyph)}

theorem declarations_in_is_some_iff :
    (declarationsIn? package dir files).isSome = true ↔ ∀ file ∈ files, parses file = true := by
  induction files with
  | nil => simp [declarationsIn?]
  | cons file rest ih =>
      rw [declarationsIn?, List.forall_mem_cons, ← ih, parses]
      cases SourceFile.ofSource? file.2 <;> cases declarationsIn? package dir rest <;> simp

theorem declarations_in_take_while (package : String) (dir : Path)
    (files : List (String × List Text.Glyph)) : ∃ declarations,
    declarationsIn? package dir (files.takeWhile parses) = some declarations := by
  apply Option.isSome_iff_exists.1
  rw [declarations_in_is_some_iff]
  exact fun _ member => List.mem_takeWhile_imp member

theorem exists_fault (unread : declarationsIn? package dir files = none) :
    ∃ file later, files = files.takeWhile parses ++ file :: later ∧
      SourceFile.ofSource? file.2 = none := by
  induction files with
  | nil => cases unread
  | cons file rest ih =>
      cases parsed : SourceFile.ofSource? file.2 with
      | none =>
          refine ⟨file, rest, ?_, parsed⟩
          rw [List.takeWhile_cons_of_neg (by simp [parses, parsed]), List.nil_append]
      | some source =>
          have unreadRest : declarationsIn? package dir rest = none := by
            cases read : declarationsIn? package dir rest with
            | none => rfl
            | some later => simp [declarationsIn?, parsed, read] at unread
          obtain ⟨other, later, split, faulty⟩ := ih unreadRest
          refine ⟨other, later, ?_, faulty⟩
          rw [List.takeWhile_cons_of_pos (by simp [parses, parsed]), List.cons_append, ← split]

end

variable {project : Project} {package : String} {ident : Ident}

theorem files_of_of_located {dir : Path}
    (located : packageDir? project.root project.module package = some dir) :
    project.filesOf package = packageSources project.tree dir project.includeTests := by
  simp [filesOf, located]

theorem declarations_of_located {dir : Path}
    (located : packageDir? project.root project.module package = some dir) :
    project.declarations? package = declarationsIn? package dir (project.filesOf package) := by
  simp [declarations?, filesOf, located]

theorem readable_of_located {dir : Path}
    (located : packageDir? project.root project.module package = some dir) :
    declarationsIn? package dir (project.readableFiles package) =
      some (project.readable package) := by
  obtain ⟨declarations, read⟩ := declarations_in_take_while package dir (project.filesOf package)
  simp [readable, located, readableFiles, read]

theorem readable_files_of_read {declarations : List Declaration}
    (read : project.declarations? package = some declarations) :
    project.readableFiles package = project.filesOf package := by
  rw [readableFiles, List.takeWhile_eq_self_iff]
  cases located : packageDir? project.root project.module package with
  | none => simp [filesOf, located]
  | some dir =>
      rw [declarations_of_located located] at read
      apply (@declarations_in_is_some_iff package dir _).1
      rw [read]
      rfl

theorem declared_of_readable {declaration : Declaration}
    (member : declaration ∈ project.readable package) :
    declaration.package = package ∧ project.Declared declaration := by
  cases located : packageDir? project.root project.module package with
  | none =>
      rw [readable, located] at member
      cases member
  | some dir =>
      obtain ⟨file, listed, source, parsed, own⟩ :=
        (mem_declarations_in (readable_of_located located)).1 member
      obtain ⟨spec, within, rfl⟩ := List.mem_map.1 own
      exact ⟨rfl, file, (List.takeWhile_prefix parses).subset listed, source, parsed, within, rfl⟩

theorem package_of_first_of {declaration : Declaration}
    (first : firstOf ident (project.readable package) = some declaration) :
    ident.package = package ∧ declaration.ident = ident ∧ project.Declared declaration := by
  have same : declaration.ident = ident := by simpa using List.find?_some first
  obtain ⟨inside, declared⟩ := declared_of_readable (List.mem_of_find?_eq_some first)
  exact ⟨same ▸ inside, same, declared⟩

/-- No readable declaration has a name exactly if no readable file declares it. -/
theorem first_of_readable_eq_none_iff :
    firstOf ident (project.readable ident.package) = none ↔
      ∀ file ∈ project.readableFiles ident.package, ∀ source,
        SourceFile.ofSource? file.2 = some source → ∀ spec ∈ source.types,
          spec.name ≠ ident.name := by
  cases located : packageDir? project.root project.module ident.package with
  | none => simp [readable, readableFiles, filesOf, located, firstOf]
  | some dir =>
      have read := readable_of_located located
      rw [firstOf, List.find?_eq_none]
      simp only [decide_eq_true_eq]
      constructor
      · intro absent file listed source parsed spec within same
        refine absent ⟨ident.package, dir.join ⟨file.1⟩, spec, Imports.ofSpecs source.imports⟩ ?_ ?_
        · exact (mem_declarations_in read).2
            ⟨file, listed, source, parsed, List.mem_map_of_mem within⟩
        · rw [Declaration.ident, same]
      · intro absent declaration member same
        obtain ⟨file, listed, source, parsed, own⟩ := (mem_declarations_in read).1 member
        obtain ⟨spec, within, rfl⟩ := List.mem_map.1 own
        exact absent file listed source parsed spec within (congrArg Ident.name same)

theorem declares_first_of_readable {declaration : Declaration}
    (first : firstOf ident (project.readable ident.package) = some declaration) :
    project.DeclaresFirst ident declaration := by
  cases located : packageDir? project.root project.module ident.package with
  | none =>
      rw [readable, located] at first
      cases first
  | some dir =>
      obtain ⟨before, file, after, source, earlier, later, split, rest⟩ :=
        first_of_first_of (readable_of_located located) rfl first
      have whole : project.filesOf ident.package =
          before ++ file :: (after ++ (project.filesOf ident.package).dropWhile parses) := by
        rw [← List.cons_append, ← List.append_assoc, ← split, readableFiles,
          List.takeWhile_append_dropWhile]
      exact ⟨(package_of_first_of first).2.1, before, file, _, source, earlier, later, whole, rest⟩

theorem held_outcome_of_is_predeclared (predeclared : ident.isPredeclared = true) :
    project.heldOutcome ident = .missing := by
  rw [heldOutcome, if_pos predeclared]

theorem held_outcome_of_external (named : ident.isPredeclared = false)
    (outside : isProjectPackage project.module ident.package = false) :
    project.heldOutcome ident = .external := by
  simp [heldOutcome, named, outside]

theorem held_outcome_of_requests (requested : project.requests ident = true) :
    project.heldOutcome ident =
      match firstOf ident (project.readable ident.package) with
      | some declaration => .found declaration
      | none => .missing := by
  rw [requests, Bool.and_eq_true, Bool.not_eq_true'] at requested
  rw [heldOutcome, if_neg (by simp [requested.1]), if_pos requested.2]

theorem requests_of_ne_external (named : ident.isPredeclared = false)
    (inside : project.heldOutcome ident ≠ .external) : project.requests ident = true := by
  unfold requests
  cases outside : isProjectPackage project.module ident.package with
  | false => exact absurd (held_outcome_of_external named outside) inside
  | true => simp [named]

theorem found_of_held_outcome {declaration : Declaration}
    (held : project.heldOutcome ident = .found declaration) :
    project.requests ident = true ∧ declaration.ident = ident ∧ project.Declared declaration := by
  unfold heldOutcome at held
  split at held
  · cases held
  rename_i named
  split at held
  · rename_i inside
    split at held
    · rename_i other first
      obtain rfl := Lookup.found.inj held
      exact ⟨by simp [requests, named, inside], (package_of_first_of first).2⟩
    · cases held
  · cases held

end Project

namespace Resolver

open Project

/-- A resolver that has read the files of one more package, up to the first syntax error. -/
structure Reads (project : Project) (package : String) (before after : Resolver) : Prop where
  loaded : after.loaded = package :: before.loaded
  counted : after.filesParsed = before.filesParsed + (project.readableFiles package).length
  outcomes : ∀ ident, after.outcome? ident =
    (before.outcome? ident).or ((firstOf ident (project.readable package)).map .found)

theorem load_readable_reads {project : Project} {package : String} {dir : Path}
    (located : packageDir? project.root project.module package = some dir) (resolver : Resolver) :
    Yields ((project.readableFiles package).forM (loadFile package dir))
      { resolver with loaded := package :: resolver.loaded }
      (fun _ after => Reads project package resolver after) fun _ _ => False := by
  have read := readable_of_located located
  apply (load_files_yields package dir _ _).mono
  · intro _ after ended
    obtain ⟨others, again, loaded, counted, outcomes⟩ := ended
    obtain rfl := Option.some.inj (read.symm.trans again)
    exact ⟨loaded, counted, outcomes⟩
  · intro failure after failed
    rw [read] at failed
    cases failed.1

theorem load_package_reads (project : Project) (package : String) (resolver : Resolver) :
    Yields (loadPackage project package) resolver
      (fun _ after => (project.declarations? package).isSome = true ∧
        Reads project package resolver after)
      (fun failure after => project.ReadFault package failure ∧
        Reads project package resolver after) := by
  unfold loadPackage
  apply Yields.bind_modify
  cases located : packageDir? project.root project.module package with
  | none =>
      refine Yields.pure ⟨by simp [declarations?, located], rfl, ?_, fun ident => ?_⟩
      · simp [readableFiles, filesOf, located]
      · simp [readable, located, firstOf, outcome?]
  | some dir =>
      have readable := load_readable_reads located resolver
      show Yields ((packageSources project.tree dir project.includeTests).forM _) _ _ _
      rw [← files_of_of_located located]
      cases read : project.declarations? package with
      | some declarations =>
          rw [← readable_files_of_read read]
          exact readable.mono (fun _ _ reads => ⟨rfl, reads⟩) fun _ _ impossible => impossible.elim
      | none =>
          rw [declarations_of_located located] at read
          obtain ⟨file, later, split, faulty⟩ := exists_fault read
          have fault : project.ReadFault package (.syntaxError (dir.join ⟨file.1⟩)) :=
            ⟨dir, file, later, located, split, faulty, rfl⟩
          rw [split, List.forM_eq_forM, List.forM_append]
          apply Yields.bind (readable.mono (fun _ _ reads => reads)
            fun _ _ impossible => impossible.elim)
          intro _ between reads
          have fails : Yields (loadFile package dir file) between (fun _ _ => False)
              fun failure after => project.ReadFault package failure ∧
                Reads project package resolver after := by
            unfold loadFile
            rw [faulty]
            exact Yields.throw ⟨fault, reads⟩
          rw [List.forM_cons]
          exact fails.bind fun _ _ impossible => impossible.elim

/-- What a look-up that ends answers and leaves: the outcome that is held, that of a place where no
type is looked up, or what the package shows after it was read. -/
inductive Looked (project : Project) (ident : Ident) (before : Resolver) : Lookup → Resolver → Prop
  where
  | predeclared : ident.isPredeclared = true → Looked project ident before .missing before
  | held {lookup : Lookup} : ident.isPredeclared = false → before.outcome? ident = some lookup →
      Looked project ident before lookup before
  | external : ident.isPredeclared = false → before.outcome? ident = none →
      isProjectPackage project.module ident.package = false →
        Looked project ident before .external (before.record ident .external)
  | unheld : project.requests ident = true → before.outcome? ident = none →
      ident.package ∈ before.loaded →
        Looked project ident before .missing (before.record ident .missing)
  | found {lookup : Lookup} {after : Resolver} : project.requests ident = true →
      ident.package ∉ before.loaded → (project.declarations? ident.package).isSome = true →
        Reads project ident.package before after → after.outcome? ident = some lookup →
          Looked project ident before lookup after
  | unfound {after : Resolver} : project.requests ident = true →
      ident.package ∉ before.loaded → (project.declarations? ident.package).isSome = true →
        Reads project ident.package before after → after.outcome? ident = none →
          Looked project ident before .missing (after.record ident .missing)

/-- What a look-up that fails leaves: its package was not read, and is half read now. -/
structure Failed (project : Project) (ident : Ident) (failure : Failure)
    (before after : Resolver) : Prop where
  requested : project.requests ident = true
  fresh : ident.package ∉ before.loaded
  fault : project.ReadFault ident.package failure
  reads : Reads project ident.package before after

theorem lookup_step (project : Project) (ident : Ident) (resolver : Resolver) :
    Yields (Resolver.lookup project ident) resolver (Looked project ident resolver)
      fun failure => Failed project ident failure resolver := by
  unfold Resolver.lookup
  split
  · rename_i predeclared
    exact Yields.pure (.predeclared predeclared)
  rename_i notPredeclared
  have named : ident.isPredeclared = false := by simpa using notPredeclared
  apply Yields.bind_get
  split
  · rename_i lookup held
    exact Yields.pure (.held named held)
  rename_i unheld
  split
  · rename_i outside
    exact Yields.bind_modify (Yields.pure (.external named unheld (by simpa using outside)))
  rename_i inside
  have requested : project.requests ident = true := by
    simp only [requests, named, Bool.not_false, Bool.true_and]
    simpa using inside
  apply Yields.bind_get
  dsimp only
  split
  · rename_i already
    apply Yields.bind_get
    rw [unheld]
    exact Yields.bind_modify (Yields.pure (.unheld requested unheld (by simpa using already)))
  rename_i unread
  have fresh : ident.package ∉ resolver.loaded := by simpa using unread
  apply Yields.bind ((load_package_reads project ident.package resolver).mono
    (fun _ _ read => read) fun _ _ failed => ⟨requested, fresh, failed.1, failed.2⟩)
  intro _ between loaded
  obtain ⟨read, reads⟩ := loaded
  apply Yields.bind_get
  split
  · rename_i lookup held
    exact Yields.pure (.found requested fresh read reads held)
  · rename_i unfound
    exact Yields.bind_modify (Yields.pure (.unfound requested fresh read reads unfound))

end Resolver

end EndpointAtlas
