import Mathlib.Data.List.Dedup
import EndpointAtlas.Proofs.Resolution.Memory

/-!
A resolver that is asked for one identifier after another. As long as no package fails to be read,
every answer is the one that a fresh resolver gives, whatever was asked before.
-/

namespace EndpointAtlas

open Go

def Failure.isReadFault : Failure → Bool
  | .syntaxError _ | .walk _ _ | .io _ => true
  | _ => false

def isFaulty : Except Failure (Option Declaration) → Bool
  | .error failure => failure.isReadFault
  | .ok _ => false

namespace Project

/-- The first declaration of an identifier, by the order of the files of its package and then by the
order of the source. -/
def DeclaresFirst (project : Project) (ident : Ident) (declaration : Declaration) : Prop :=
  declaration.ident = ident ∧ ∃ before file after source earlier later,
    project.filesOf ident.package = before ++ file :: after ∧
      SourceFile.ofSource? file.2 = some source ∧
      source.types = earlier ++ declaration.spec :: later ∧
      declaration.imports = Imports.ofSpecs source.imports ∧
      (∀ spec ∈ earlier, spec.name ≠ ident.name) ∧
      ∀ other ∈ before, ∀ source, SourceFile.ofSource? other.2 = some source →
        ∀ spec ∈ source.types, spec.name ≠ ident.name

theorem first_of_declarations_of {package : String} {path : Path} {source : SourceFile}
    {ident : Ident} (same : ident.package = package) :
    firstOf ident (Resolver.declarationsOf package path source) =
      (source.types.find? (·.name = ident.name)).map
        fun spec => ⟨package, path, spec, Imports.ofSpecs source.imports⟩ := by
  subst same
  obtain ⟨package, name⟩ := ident
  simp only [firstOf, Resolver.declarationsOf, List.find?_map]
  congr 2
  funext spec
  simp [Declaration.ident]

theorem first_of_first_of {package : String} {dir : Path} {files : List (String × List Text.Glyph)}
    {declarations : List Declaration} {ident : Ident} {declaration : Declaration}
    (read : declarationsIn? package dir files = some declarations) (same : ident.package = package)
    (first : firstOf ident declarations = some declaration) :
    ∃ before file after source earlier later, files = before ++ file :: after ∧
      SourceFile.ofSource? file.2 = some source ∧
      source.types = earlier ++ declaration.spec :: later ∧
      declaration.imports = Imports.ofSpecs source.imports ∧
      (∀ spec ∈ earlier, spec.name ≠ ident.name) ∧
      ∀ other ∈ before, ∀ source, SourceFile.ofSource? other.2 = some source →
        ∀ spec ∈ source.types, spec.name ≠ ident.name := by
  induction files generalizing declarations with
  | nil =>
      obtain rfl := Option.some.inj read
      cases first
  | cons file rest ih =>
      unfold declarationsIn? at read
      split at read
      · rename_i source later ownRead restRead
        obtain rfl := Option.some.inj read
        rw [firstOf, List.find?_append, Option.or_eq_some_iff] at first
        rcases first with own | ⟨absent, other⟩
        · rw [← firstOf, first_of_declarations_of same] at own
          obtain ⟨spec, found, rfl⟩ := Option.map_eq_some_iff.1 own
          obtain ⟨-, earlier, later, split, before⟩ := List.find?_eq_some_iff_append.1 found
          exact ⟨[], file, rest, source, earlier, later, rfl, ownRead, split, rfl,
            by simpa using before, by simp⟩
        · obtain ⟨before, found, after, foundSource, earlier, later, split, parsed, rest⟩ :=
            ih restRead other
          refine ⟨file :: before, found, after, foundSource, earlier, later, by rw [split]; rfl,
            parsed, rest.1, rest.2.1, rest.2.2.1, ?_⟩
          intro each member otherSource otherRead spec within
          rcases List.mem_cons.1 member with rfl | further
          · obtain rfl := Option.some.inj (ownRead.symm.trans otherRead)
            rw [← firstOf, first_of_declarations_of same, Option.map_eq_none_iff] at absent
            simpa using List.find?_eq_none.1 absent spec within
          · exact rest.2.2.2 each further otherSource otherRead spec within
      · cases read

theorem source_of_declarations_in {package : String} {dir : Path}
    {files : List (String × List Text.Glyph)} {declarations : List Declaration}
    (read : declarationsIn? package dir files = some declarations)
    {file : String × List Text.Glyph} (listed : file ∈ files) :
    ∃ source, SourceFile.ofSource? file.2 = some source := by
  induction files generalizing declarations with
  | nil => cases listed
  | cons head rest ih =>
      unfold declarationsIn? at read
      split at read
      · rename_i source later ownRead restRead
        rcases List.mem_cons.1 listed with rfl | further
        · exact ⟨source, ownRead⟩
        · exact ih restRead further
      · cases read

variable {project : Project} {package : String} {declarations : List Declaration}

theorem declarations_eq (project : Project) (package : String) :
    ∃ dir, project.declarations? package =
      declarationsIn? package dir (project.filesOf package) := by
  unfold declarations? filesOf
  split
  · exact ⟨project.root, rfl⟩
  · rename_i dir _
    exact ⟨dir, rfl⟩

theorem source_of_declarations (read : project.declarations? package = some declarations)
    {file : String × List Text.Glyph} (listed : file ∈ project.filesOf package) :
    ∃ source, SourceFile.ofSource? file.2 = some source := by
  obtain ⟨dir, equal⟩ := project.declarations_eq package
  exact source_of_declarations_in (equal ▸ read) listed

theorem first_of_spec (read : project.declarations? package = some declarations)
    {file : String × List Text.Glyph} (listed : file ∈ project.filesOf package)
    {source : SourceFile} (parsed : SourceFile.ofSource? file.2 = some source) {spec : TypeSpec}
    (member : spec ∈ source.types) :
    ∃ declaration, firstOf ⟨package, spec.name⟩ declarations = some declaration ∧
      project.DeclaresFirst ⟨package, spec.name⟩ declaration := by
  obtain ⟨dir, equal⟩ := project.declarations_eq package
  rw [equal] at read
  have declared : ∃ declaration ∈ declarations, declaration.ident = ⟨package, spec.name⟩ := by
    refine ⟨⟨package, dir.join ⟨file.1⟩, spec, Imports.ofSpecs source.imports⟩, ?_, rfl⟩
    exact (mem_declarations_in read).2 ⟨file, listed, source, parsed, List.mem_map_of_mem member⟩
  obtain ⟨declaration, first⟩ := Option.isSome_iff_exists.1
    (List.find?_isSome.2 (by simpa using declared) :
      (firstOf ⟨package, spec.name⟩ declarations).isSome)
  refine ⟨declaration, first, by simpa using List.find?_some first, ?_⟩
  exact first_of_first_of read rfl first

end Project

namespace Resolver

open Project

/-- The answer to one question, and the resolver after it. A failure is an answer too. -/
def ask (project : Project) (resolver : Resolver) (ident : Ident) :
    Except Failure (Option Declaration) × Resolver :=
  match resolve project ident resolver with
  | .ok found after => (.ok found, after)
  | .error failure after => (.error failure, after)

def askAll (project : Project) :
    Resolver → List Ident → List (Except Failure (Option Declaration)) × Resolver
  | resolver, [] => ([], resolver)
  | resolver, ident :: rest =>
      let asked := ask project resolver ident
      let later := askAll project asked.2 rest
      (asked.1 :: later.1, later.2)

theorem ask_eq (project : Project) (resolver : Resolver) (ident : Ident) :
    ask project resolver ident =
      match Resolver.lookup project ident resolver with
      | .ok lookup after => (answer ident lookup, after)
      | .error failure after => (.error failure, after) := by
  unfold ask resolve
  simp only [bind, EStateM.bind]
  cases Resolver.lookup project ident resolver with
  | error failure after => rfl
  | ok lookup after => cases lookup <;> rfl

/-- Where the project has an outcome, the answer is what it says, and the resolver learns it. -/
theorem ask_of_outcome {project : Project} {resolver : Resolver} {ident : Ident} {lookup : Lookup}
    (remembers : Remembers project resolver) (outcome : project.outcome? ident = some lookup) :
    (ask project resolver ident).1 = answer ident lookup ∧
      Learns project ident resolver (ask project resolver ident).2 := by
  have yields := lookup_yields ident remembers
  rw [ask_eq]
  cases ran : Resolver.lookup project ident resolver with
  | ok found after =>
      obtain ⟨same, learns⟩ := yields.of_ok ran
      obtain rfl := Option.some.inj (outcome.symm.trans same)
      exact ⟨rfl, learns⟩
  | error failure after =>
      rw [(yields.of_error ran).1] at outcome
      cases outcome

theorem outcome_of_ask {project : Project} {resolver : Resolver} {ident : Ident}
    (remembers : Remembers project resolver)
    (readable : isFaulty (ask project resolver ident).1 = false) :
    ∃ lookup, project.outcome? ident = some lookup := by
  have yields := lookup_yields ident remembers
  rw [ask_eq] at readable
  cases ran : Resolver.lookup project ident resolver with
  | ok found after => exact ⟨found, (yields.of_ok ran).1⟩
  | error failure after =>
      obtain ⟨path, rfl⟩ := (yields.of_error ran).2
      rw [ran] at readable
      cases readable

theorem ask_of_kept {project : Project} {resolver : Resolver} {ident : Ident} {lookup : Lookup}
    (outcome : project.outcome? ident = some lookup)
    (kept : ident.isPredeclared = false → resolver.outcome? ident = some lookup) :
    ask project resolver ident = (answer ident lookup, resolver) := by
  rw [ask_eq]
  by_cases predeclared : ident.isPredeclared = true
  · rw [outcome_of_is_predeclared predeclared] at outcome
    obtain rfl := Option.some.inj outcome
    rw [lookup_of_is_predeclared predeclared]
  · have named : ident.isPredeclared = false := by simpa using predeclared
    rw [lookup_of_kept named (kept named)]

structure Informed (project : Project) (asked : List Ident) (resolver : Resolver) : Prop where
  remembers : Remembers project resolver
  outcome : ∀ ident ∈ asked, ∃ lookup, project.outcome? ident = some lookup ∧
    (ident.isPredeclared = false → resolver.outcome? ident = some lookup)
  loaded : ∀ package, package ∈ resolver.loaded ↔
    ∃ ident ∈ asked, project.requests ident = true ∧ ident.package = package

theorem Informed.ask {project : Project} {asked : List Ident} {resolver : Resolver} {ident : Ident}
    (informed : Informed project asked resolver)
    (readable : isFaulty (ask project resolver ident).1 = false) :
    Informed project (asked ++ [ident]) (ask project resolver ident).2 := by
  obtain ⟨lookup, outcome⟩ := outcome_of_ask informed.remembers readable
  obtain ⟨-, learns⟩ := ask_of_outcome informed.remembers outcome
  refine ⟨learns.remembers, fun other member => ?_, fun package => ?_⟩
  · rcases List.mem_append.1 member with earlier | own
    · obtain ⟨held, same, kept⟩ := informed.outcome other earlier
      exact ⟨held, same, fun named => learns.kept other held (kept named)⟩
    · obtain rfl := List.mem_singleton.1 own
      exact ⟨lookup, outcome, fun named => (learns.outcome named).trans outcome⟩
  · rw [learns.loaded, informed.loaded]
    constructor
    · rintro (⟨other, member, requested, same⟩ | ⟨requested, rfl⟩)
      · exact ⟨other, List.mem_append_left _ member, requested, same⟩
      · exact ⟨ident, List.mem_append_right _ (List.mem_singleton_self _), requested, rfl⟩
    · rintro ⟨other, member, requested, same⟩
      rcases List.mem_append.1 member with earlier | own
      · exact .inl ⟨other, earlier, requested, same⟩
      · obtain rfl := List.mem_singleton.1 own
        exact .inr ⟨requested, same.symm⟩

/-- After any questions that met no reading failure, a resolver is informed of them all, and it
answered each as a fresh one does. -/
theorem informed_of_ask_all {project : Project} {idents asked : List Ident} {resolver : Resolver}
    (informed : Informed project asked resolver)
    (readable : (askAll project resolver idents).1.any isFaulty = false) :
    (askAll project resolver idents).1 = idents.map (fun ident => (ask project initial ident).1) ∧
      Informed project (asked ++ idents) (askAll project resolver idents).2 := by
  induction idents generalizing asked resolver with
  | nil => exact ⟨rfl, by simpa [askAll] using informed⟩
  | cons ident rest ih =>
      rw [askAll, List.any_cons, Bool.or_eq_false_iff] at readable
      obtain ⟨readableFirst, readableRest⟩ := readable
      obtain ⟨lookup, outcome⟩ := outcome_of_ask informed.remembers readableFirst
      have fresh := (ask_of_outcome (remembers_initial project) outcome).1
      have first := (ask_of_outcome informed.remembers outcome).1
      obtain ⟨answers, last⟩ := ih (informed.ask readableFirst) readableRest
      refine ⟨?_, ?_⟩
      · rw [askAll, List.map_cons, answers, first, fresh]
      · rw [List.append_assoc] at last
        exact last

theorem informed_initial (project : Project) : Informed project [] initial :=
  ⟨remembers_initial project, by simp, by simp [initial]⟩

/-- What the answers to some questions and the resolver that gave them have in common with the
project alone, whatever the order of the questions. -/
structure History (project : Project) (idents : List Ident)
    (answers : List (Except Failure (Option Declaration))) (resolver : Resolver) : Prop where
  /-- Every answer is that of a fresh resolver. -/
  fresh : answers = idents.map fun ident => (ask project initial ident).1
  /-- A question that is asked again is answered alike, and from memory. -/
  repeated : ∀ ident ∈ idents,
    ask project resolver ident = ((ask project initial ident).1, resolver)
  /-- A type is held as missing only if its package was read and does not declare it. -/
  missing : ∀ ident, resolver.outcome? ident = some .missing → ident.package ∈ resolver.loaded ∧
    ∀ file ∈ project.filesOf ident.package, ∃ source, SourceFile.ofSource? file.2 = some source ∧
      ∀ spec ∈ source.types, spec.name ≠ ident.name
  /-- A package that was asked for has its files in order, and all of their types are found. -/
  siblings : ∀ ident ∈ idents, project.requests ident = true →
    (project.filesOf ident.package).Pairwise (fun first second => first.1 < second.1) ∧
      ∀ file ∈ project.filesOf ident.package, ∃ source,
        SourceFile.ofSource? file.2 = some source ∧ ∀ spec ∈ source.types, ∃ declaration,
          resolver.outcome? ⟨ident.package, spec.name⟩ = some (.found declaration) ∧
            project.DeclaresFirst ⟨ident.package, spec.name⟩ declaration
  /-- A type outside the module is refused at any time. -/
  external : ∀ ident, ident.isPredeclared = false →
    isProjectPackage project.module ident.package = false →
      (ask project resolver ident).1 = .error (.externalType ident)
  /-- The files of every package that was asked for were counted once. -/
  counted : resolver.filesParsed =
    (((idents.filter project.requests).map (·.package)).dedup.flatMap project.filesOf).length

namespace Informed

variable {project : Project} {idents : List Ident} {resolver : Resolver}

theorem repeated (informed : Informed project idents resolver) {ident : Ident}
    (asked : ident ∈ idents) :
    Resolver.ask project resolver ident = ((Resolver.ask project initial ident).1, resolver) := by
  obtain ⟨lookup, outcome, kept⟩ := informed.outcome ident asked
  rw [ask_of_kept outcome kept, (ask_of_outcome (remembers_initial project) outcome).1]

theorem missing (informed : Informed project idents resolver) {ident : Ident}
    (held : resolver.outcome? ident = some .missing) :
    ident.package ∈ resolver.loaded ∧
      ∀ file ∈ project.filesOf ident.package, ∃ source,
        SourceFile.ofSource? file.2 = some source ∧
          ∀ spec ∈ source.types, spec.name ≠ ident.name := by
  obtain ⟨named, outcome⟩ := informed.remembers.faithful ident .missing held
  have requested : project.requests ident = true := by
    by_contra unasked
    have outside : isProjectPackage project.module ident.package = false := by
      simpa [requests, named] using unasked
    rw [outcome_of_external named outside] at outcome
    cases outcome
  have read := informed.remembers.known ident .missing held requested
  obtain ⟨declarations, whole, holds⟩ := informed.remembers.read ident.package read
  refine ⟨read, fun file listed => ?_⟩
  obtain ⟨source, parsed⟩ := source_of_declarations whole listed
  refine ⟨source, parsed, fun spec member same => ?_⟩
  obtain ⟨declaration, first, -⟩ := first_of_spec whole listed parsed member
  have found := holds ⟨ident.package, spec.name⟩ declaration rfl first
  rw [same, held] at found
  cases found

theorem siblings (informed : Informed project idents resolver) {ident : Ident}
    (asked : ident ∈ idents) (requested : project.requests ident = true)
    {file : String × List Text.Glyph} (listed : file ∈ project.filesOf ident.package) :
    ∃ source, SourceFile.ofSource? file.2 = some source ∧ ∀ spec ∈ source.types, ∃ declaration,
      resolver.outcome? ⟨ident.package, spec.name⟩ = some (.found declaration) ∧
        project.DeclaresFirst ⟨ident.package, spec.name⟩ declaration := by
  have read := (informed.loaded ident.package).2 ⟨ident, asked, requested, rfl⟩
  obtain ⟨declarations, whole, holds⟩ := informed.remembers.read ident.package read
  obtain ⟨source, parsed⟩ := source_of_declarations whole listed
  refine ⟨source, parsed, fun spec member => ?_⟩
  obtain ⟨declaration, first, isFirst⟩ := first_of_spec whole listed parsed member
  exact ⟨declaration, holds ⟨ident.package, spec.name⟩ declaration rfl first, isFirst⟩

theorem counted (informed : Informed project idents resolver) :
    resolver.filesParsed =
      (((idents.filter project.requests).map (·.package)).dedup.flatMap
        project.filesOf).length := by
  rw [informed.remembers.counted]
  have same : resolver.loaded.Perm ((idents.filter project.requests).map (·.package)).dedup := by
    rw [List.perm_ext_iff_of_nodup informed.remembers.distinct (List.nodup_dedup _)]
    intro package
    rw [informed.loaded, List.mem_dedup]
    simp [and_assoc]
  exact (same.flatMap_right _).length_eq

end Informed

/-- As long as nothing fails to be read, a resolver has the history that its questions give it. -/
theorem history_of_ask_all {project : Project} {idents : List Ident}
    (readable : (askAll project initial idents).1.any isFaulty = false) :
    History project idents (askAll project initial idents).1 (askAll project initial idents).2 := by
  obtain ⟨fresh, informed⟩ := informed_of_ask_all (informed_initial project) readable
  rw [List.nil_append] at informed
  refine ⟨fresh, fun _ => informed.repeated, fun _ => informed.missing,
    fun ident asked requested => ?_, fun ident named outside => ?_, informed.counted⟩
  · exact ⟨project.files_of_increasing ident.package, fun _ => informed.siblings asked requested⟩
  · exact (ask_of_outcome informed.remembers (outcome_of_external named outside)).1

def rivals : Project where
  tree := ⟨[
    (["a.go"], .file (Text.Glyph.ofString "package m\ntype T struct \x7b\x7d\ntype U T\n") false),
    (["b.go"], .file (Text.Glyph.ofString "package m\ntype T interface \x7b\x7d\n") false)],
    by decide⟩
  root := ⟨"/"⟩
  module := "m"
  includeTests := false

def rivalIdents : List Ident :=
  [⟨"m", "T"⟩, ⟨"m", "U"⟩, ⟨"m", "V"⟩, ⟨"n", "T"⟩, ⟨"m", "V"⟩, ⟨"m", "T"⟩, ⟨"n", "T"⟩, ⟨"", "int"⟩]

theorem history_of_rivals : (askAll rivals initial rivalIdents).1.any isFaulty = false ∧
    History rivals rivalIdents (askAll rivals initial rivalIdents).1
      (askAll rivals initial rivalIdents).2 :=
  ⟨by decide +kernel, history_of_ask_all (by decide +kernel)⟩

end Resolver

end EndpointAtlas
