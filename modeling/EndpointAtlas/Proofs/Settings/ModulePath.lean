import Mathlib.Data.List.TakeWhile
import EndpointAtlas.Proofs.Scan.Packages
import EndpointAtlas.Settings.Resolved

/-!
Which module path an analysis is given, and what an empty one leads to. The path is that of the
highest layer that states one, taken as it is, and else that of the `go.mod` file, which is never
empty. Nothing is left of a path once the slashes at its end are gone exactly if it holds nothing but
slashes, and exactly then the types of the files at the root of the project are taken for predeclared
ones.
-/

namespace EndpointAtlas

open Go Text

inductive Holds (place : Place) : Option Path → Option FileSettings → Prop where
  | nothing : Holds place none none
  | file {path : Path} {text : String} {file : FileSettings}
      (held : place.text? path = some text) (read : FileSettings.read? text = some file) :
      Holds place (some path) (some file)

/-- The module path of the highest layer that states one. -/
def statedModule? (user project : Option FileSettings) (environment : Environment)
    (overrides : Overrides) : Option String :=
  overrides.module.or ((environment.get? "RESTC_MODULE").or
    ((project.bind (·.module)).or (user.bind (·.module))))

namespace Settings

theorem module_overlay_file {settings after : Settings} {place : Place} {owner : ConfigOwner}
    {source : Path → Source} {path : Option Path}
    (succeeds : settings.overlayFile place owner source path = .ok after) :
    ∃ file, Holds place path file ∧
      after.module = (file.bind (·.module)).or settings.module := by
  cases path with
  | none =>
      obtain rfl := Except.ok.inj succeeds
      exact ⟨none, .nothing, rfl⟩
  | some path =>
      unfold overlayFile loadFile at succeeds
      cases held : place.text? path with
      | none =>
          simp only [held] at succeeds
          cases succeeds
      | some text =>
          cases read : FileSettings.read? text with
          | none =>
              simp only [held, read] at succeeds
              cases succeeds
          | some file =>
              simp only [held, read] at succeeds
              obtain rfl := Except.ok.inj succeeds
              exact ⟨some file, .file held read, rfl⟩

theorem module_of_resolve {place : Place} {environment : Environment} {directory : Path}
    {userFile : Option Path} {overrides : Overrides} {settings : Settings}
    (succeeds : resolve place environment directory userFile overrides = .ok settings) :
    ∃ user project, Holds place (userFile.filter place.contains) user ∧
      Holds place (projectFilePath? place directory) project ∧
      settings.module = statedModule? user project environment overrides := by
  unfold resolve at succeeds
  cases first : Settings.default.overlayFile place .user .userFile
      (userFile.filter place.contains) with
  | error failure =>
      rw [first] at succeeds
      cases succeeds
  | ok below =>
      cases second : below.overlayFile place .project .projectFile
          (projectFilePath? place directory) with
      | error failure =>
          simp only [first, bind, Except.bind, second] at succeeds
          cases succeeds
      | ok files =>
          simp only [first, bind, Except.bind, second] at succeeds
          obtain rfl := Except.ok.inj succeeds
          obtain ⟨user, holdsUser, byUser⟩ := module_overlay_file first
          obtain ⟨project, holdsProject, byProject⟩ := module_overlay_file second
          refine ⟨user, project, holdsUser, holdsProject, ?_⟩
          have unset : Settings.default.module = none := rfl
          rw [unset, Option.or_none] at byUser
          rw [byUser] at byProject
          show overrides.module.or ((environment.get? "RESTC_MODULE").or files.module) = _
          rw [byProject, statedModule?]

theorem module_of_analysis_options {settings : Settings} {tree : Tree} {root : Path}
    {options : AnalysisOptions} (accepted : settings.analysisOptions tree root = .ok options) :
    match settings.module with
    | some module => options.module = module
    | none => moduleOf tree root = .ok options.module := by
  unfold analysisOptions at accepted
  cases set : settings.module with
  | some module =>
      cases context : readContextType settings.contextType with
      | error failure =>
          simp only [set, context] at accepted
          cases accepted
      | ok ident =>
          simp only [set, context] at accepted
          obtain rfl := Except.ok.inj accepted
          rfl
  | none =>
      cases stated : moduleOf tree root with
      | error failure =>
          simp only [set, stated] at accepted
          cases accepted
      | ok module =>
          cases context : readContextType settings.contextType with
          | error failure =>
              simp only [set, stated, context, bind, Except.bind] at accepted
              cases accepted
          | ok ident =>
              simp only [set, stated, context, bind, Except.bind] at accepted
              obtain rfl := Except.ok.inj accepted
              rfl

end Settings

theorem Go.module_path_ne_empty {content module : String}
    (found : modulePath? content = some module) : module ≠ "" := by
  unfold modulePath? at found
  split at found
  · obtain rfl := Option.some.inj found
    exact fun empty => nomatch String.ofList_eq_empty_iff.1 empty
  · cases found

theorem ne_empty_of_module_of {tree : Tree} {root : Path} {module : String}
    (found : moduleOf tree root = .ok module) : module ≠ "" := by
  simp only [moduleOf] at found
  split at found
  · rename_i stated
    obtain rfl := Except.ok.inj found
    obtain ⟨content, _, read⟩ := Option.bind_eq_some_iff.1 stated
    exact Go.module_path_ne_empty read
  · cases found

theorem Text.drop_end_while_eq_nil_iff {p : α → Bool} {items : List α} :
    dropEndWhile p items = [] ↔ ∀ item ∈ items, p item = true := by
  rw [dropEndWhile, List.reverse_eq_nil_iff, List.dropWhile_eq_nil_iff]
  exact forall_congr' fun item => by rw [List.mem_reverse]

theorem module_base_eq_empty_iff {module : String} :
    moduleBase module = "" ↔ ∀ c ∈ module.toList, c = '/' := by
  rw [moduleBase, String.ofList_eq_empty_iff, drop_end_while_eq_nil_iff]
  simp

theorem package_path_eq_empty_iff {module : String} {dir : Path} :
    packagePath module dir = "" ↔ moduleBase module = "" ∧ dir.normalParts = [] := by
  rw [package_path_eq, packageBelow]
  cases dir.normalParts with
  | nil => simp [String.join]
  | cons name rest =>
      constructor
      · intro empty
        have parts := congrArg String.toList empty
        simp [String.toList_join] at parts
      · rintro ⟨_, none⟩
        cases none

theorem Context.identify_ident {context : Context} {name : String}
    (own : isPredeclaredType name = false) :
    context.identify (.ident name) = .ok ⟨context.package, name⟩ := by
  simp [identify, own]

/-- The way from the root of a project to a file on which the walk over the project comes to it. -/
def Project.Scans (project : Project) (filter : FileFilter) (components : List String)
    (file : ScannedFile) : Prop :=
  ∃ content, (∃ root, project.tree.find [] project.root = .ok root ∧
      ∃ entry ∈ project.tree.entries, fileBelow? root entry = some (components, content)) ∧
    (isReached components && filter.accepts ⟨String.intercalate "/" components⟩) = true ∧
    scanFile project components content = .ok file

/-- A scan gives exactly the files that the walk comes to. -/
theorem Project.mem_scan_iff {project : Project} {filter : FileFilter} {file : ScannedFile} :
    .ok file ∈ scan project filter ↔ ∃ components, project.Scans filter components file := by
  unfold scan Scans
  cases found : project.tree.find [] project.root with
  | error fault => simp
  | ok root =>
      simp only [List.mem_map, List.mem_filter, List.mem_filterMap, Prod.exists, Except.ok.injEq,
        exists_eq_left']
      exact exists_congr fun components => exists_congr fun content => and_assoc

theorem Project.Scans.package_path {project : Project} {filter : FileFilter}
    {components : List String} {file : ScannedFile} (scans : project.Scans filter components file) :
    file.packagePath = EndpointAtlas.packagePath project.module
      (pathThrough components.dropLast) := by
  obtain ⟨content, _, _, read⟩ := scans
  unfold scanFile at read
  split at read
  · cases read
  · obtain rfl := Except.ok.inj read
    rfl

/-- An analysis is given the module path of the highest layer that states one, as it is stated; only
that of the `go.mod` file, which is read if no layer states one, is never empty. The path without the
slashes at its end is empty exactly if it holds nothing but slashes, and a bare name of a scanned
file, unless it is predeclared, is resolved to an identifier that is taken for a predeclared one
exactly if that is so and the file stands at the root of the project. -/
theorem is_predeclared_of_analysis_options {place : Place} {environment : Environment}
    {directory root : Path} {userFile : Option Path} {overrides : Overrides} {settings : Settings}
    {options : AnalysisOptions}
    (succeeds : Settings.resolve place environment directory userFile overrides = .ok settings)
    (accepted : settings.analysisOptions place.tree root = .ok options) :
    (∃ user project, Holds place (userFile.filter place.contains) user ∧
      Holds place (projectFilePath? place directory) project ∧
      match statedModule? user project environment overrides with
      | some module => options.module = module
      | none => moduleOf place.tree root = .ok options.module ∧ options.module ≠ "") ∧
    (moduleBase options.module ≠ "" ↔ ∃ c ∈ options.module.toList, c ≠ '/') ∧
    ∀ filter file, .ok file ∈ scan (options.project place.tree) filter →
      (∃ components, (options.project place.tree).Scans filter components file) ∧
      ∀ components, (options.project place.tree).Scans filter components file →
        ∀ name, isPredeclaredType name = false → ∃ ident,
          (Context.mk file.packagePath file.imports).identify (.ident name) = .ok ident ∧
            (ident.isPredeclared = true ↔ moduleBase options.module = "" ∧
              (pathThrough components.dropLast).normalParts = []) := by
  refine ⟨?_, ?_, fun filter file listed => ?_⟩
  · obtain ⟨user, project, holdsUser, holdsProject, stated⟩ := Settings.module_of_resolve succeeds
    have given := Settings.module_of_analysis_options accepted
    rw [stated] at given
    refine ⟨user, project, holdsUser, holdsProject, ?_⟩
    cases highest : statedModule? user project environment overrides with
    | some module =>
        rw [highest] at given
        exact given
    | none =>
        rw [highest] at given
        exact ⟨given, ne_empty_of_module_of given⟩
  · rw [Ne, module_base_eq_empty_iff]
    simp
  · refine ⟨Project.mem_scan_iff.1 listed, fun components scans name own =>
      ⟨_, Context.identify_ident own, ?_⟩⟩
    rw [Ident.isPredeclared, String.isEmpty_iff, scans.package_path]
    exact package_path_eq_empty_iff

def plainContent : List Glyph := Glyph.ofString "package m\n\ntype T struct{}\n"

def slashPlace : Place where
  tree := ⟨[(["a.go"], .file plainContent false),
    (["go.mod"], .file (Glyph.ofString "module /\n") false),
    (["sub"], .directory),
    (["sub", "b.go"], .file plainContent false)], by decide⟩
  working := []

theorem project_file_path_slash_place :
    projectFilePath? slashPlace ⟨"/"⟩ = none := by decide +kernel

/-- The file at the root of that project is scanned, whatever the module path. -/
theorem exists_scans_slash_place (options : AnalysisOptions) (atRoot : options.root = ⟨"/"⟩) :
    ∃ file, (options.project slashPlace.tree).Scans (.default false) ["a.go"] file ∧
      file.packagePath = packagePath options.module (pathThrough []) := by
  have parsed : (SourceFile.ofSource? plainContent).isSome = true := by decide +kernel
  obtain ⟨source, read⟩ := Option.isSome_iff_exists.1 parsed
  have scanned := Project.scan_file_of_read (options.project slashPlace.tree) ["a.go"] read
  have found : slashPlace.tree.find [] options.root = .ok [] := by
    rw [atRoot]
    rfl
  have accepted : (FileFilter.default false).accepts (pathThrough ([] ++ ["a.go"])) = true := by
    rw [accepts_default (by decide)]
    decide
  refine ⟨_, ⟨plainContent, ⟨[], found, (["a.go"], .file plainContent false), ?_, rfl⟩,
    ?_, scanned⟩,
    rfl⟩
  · exact List.mem_cons_self
  · exact Bool.and_eq_true_iff.2 ⟨by decide, accepted⟩

/-- What settings for that project that state no module path, or the given one, lead to. -/
theorem exists_options_slash_place {settings : Settings} {module : String}
    (context : settings.contextType = defaultContextType)
    (given : settings.module.getD "/" = module) : ∃ options,
      settings.analysisOptions slashPlace.tree ⟨"/"⟩ = .ok options ∧ options.module = module ∧
        options.root = ⟨"/"⟩ := by
  have stated : moduleOf slashPlace.tree ⟨"/"⟩ = .ok "/" := by decide +kernel
  have contextType : readContextType defaultContextType = .ok ⟨"context", "Context"⟩ := by
    decide +kernel
  cases set : settings.module with
  | none =>
      simp only [Settings.analysisOptions, set, stated, context, contextType]
      exact ⟨_, rfl, by rw [← given, set]; rfl, rfl⟩
  | some own =>
      simp only [Settings.analysisOptions, set, context, contextType]
      exact ⟨_, rfl, by rw [← given, set]; rfl, rfl⟩

/-- A slash in the `go.mod` file is a module path, and `T` is taken for a predeclared type there. -/
theorem is_predeclared_slash_place : ∃ settings options,
    Settings.resolve slashPlace .empty ⟨"/"⟩ none {} = .ok settings ∧
    settings.analysisOptions slashPlace.tree ⟨"/"⟩ = .ok options ∧ options.module = "/" ∧
    ∃ file ident, .ok file ∈ scan (options.project slashPlace.tree) (.default false) ∧
      (Context.mk file.packagePath file.imports).identify (.ident "T") = .ok ident ∧
        ident.isPredeclared = true := by
  have resolves : ∃ settings, Settings.resolve slashPlace .empty ⟨"/"⟩ none {} = .ok settings ∧
      settings.contextType = defaultContextType ∧ settings.module.getD "/" = "/" := by
    simp only [Settings.resolve, Settings.overlayFile, Option.filter_none,
      project_file_path_slash_place]
    exact ⟨_, rfl, rfl, rfl⟩
  obtain ⟨settings, succeeds, context, given⟩ := resolves
  obtain ⟨options, accepted, module, atRoot⟩ := exists_options_slash_place context given
  obtain ⟨file, scans, -⟩ := exists_scans_slash_place options atRoot
  have listed := Project.mem_scan_iff.2 ⟨_, scans⟩
  obtain ⟨-, -, ofFile⟩ := is_predeclared_of_analysis_options succeeds accepted
  obtain ⟨ident, identified, iff⟩ := (ofFile _ _ listed).2 _ scans "T" (by decide)
  exact ⟨settings, options, succeeds, accepted, module, file, ident, listed, identified,
    iff.2 ⟨module ▸ by decide, by decide⟩⟩

/-- An empty module path on the command line is accepted, and `T` is taken for a predeclared type
there. -/
theorem not_declared_slash_place : ∃ settings options,
    Settings.resolve slashPlace .empty ⟨"/"⟩ none { module := some "" } = .ok settings ∧
    settings.analysisOptions slashPlace.tree ⟨"/"⟩ = .ok options ∧ moduleBase options.module = "" ∧
    ∃ file, .ok file ∈ scan (options.project slashPlace.tree) (.default false) ∧
      isPredeclaredType "T" = false ∧
      (Context.mk file.packagePath file.imports).identify (.ident "T") =
        .ok (.predeclared "T") := by
  have resolves : ∃ settings,
      Settings.resolve slashPlace .empty ⟨"/"⟩ none { module := some "" } = .ok settings ∧
      settings.contextType = defaultContextType ∧ settings.module.getD "/" = "" := by
    simp only [Settings.resolve, Settings.overlayFile, Option.filter_none,
      project_file_path_slash_place]
    exact ⟨_, rfl, rfl, rfl⟩
  obtain ⟨settings, succeeds, context, given⟩ := resolves
  obtain ⟨options, accepted, module, atRoot⟩ := exists_options_slash_place context given
  obtain ⟨file, scans, package⟩ := exists_scans_slash_place options atRoot
  have own : isPredeclaredType "T" = false := by decide
  refine ⟨settings, options, succeeds, accepted, ?_, file, Project.mem_scan_iff.2 ⟨_, scans⟩, own,
    ?_⟩
  · rw [module]
    decide
  · have nothing : packagePath "" (pathThrough []) = "" := by decide
    rw [Context.identify_ident own, package, module, nothing]
    rfl

end EndpointAtlas
