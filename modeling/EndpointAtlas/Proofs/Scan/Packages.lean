import EndpointAtlas.Proofs.Resolution.Declarations
import EndpointAtlas.Proofs.Scan.DefaultFilter
import EndpointAtlas.Proofs.Scan.Directories
import EndpointAtlas.Scan

/-!
The packages of a scan. The walk over a whole tree and the listing of one directory choose the same
files: those that the walk finds of a package are those that are listed in the directory to which
the package leads back, in the same order.
-/

namespace EndpointAtlas

open Go

def isSourceName (includeTests : Bool) (name : String) : Bool :=
  isVisibleName name && isGoName name && (includeTests || !isTestName name)

def isEntered (names : List String) : Bool :=
  names.all isVisibleName && !names.any isClosedDirectory

theorem is_reached_concat (names : List String) (last : String) :
    isReached (names ++ [last]) = (isEntered names && isVisibleName last) := by
  simp [isReached, isEntered, Bool.and_right_comm]

section

variable {directory : Location} {entry : Location × Node}

theorem name_in_eq_some_iff {location : Location} {name : String} :
    nameIn? directory location = some name ↔ location = directory ++ [name] := by
  constructor
  · exact Project.eq_of_name_in
  · rintro rfl
    rw [nameIn?, List.isPrefixOf?_eq_some_iff_append_eq.2 rfl]

theorem file_below_eq_some_iff {components : List String} {content : List Text.Glyph} :
    fileBelow? directory entry = some (components, content) ↔
      entry.1 = directory ++ components ∧ ∃ executable, entry.2 = .file content executable := by
  obtain ⟨location, node⟩ := entry
  unfold fileBelow?
  cases node with
  | directory => cases directory.isPrefixOf? location <;> simp
  | file held executable =>
      cases below : directory.isPrefixOf? location with
      | none =>
          have apart : location ≠ directory ++ components := by
            rintro rfl
            rw [List.isPrefixOf?_eq_some_iff_append_eq.2 rfl] at below
            cases below
          simp [apart]
      | some rest =>
          obtain rfl := List.isPrefixOf?_eq_some_iff_append_eq.1 below
          simp

theorem source_in_eq_some_iff {includeTests : Bool} {name : String} {content : List Text.Glyph} :
    sourceIn? directory includeTests entry = some (name, content) ↔
      entry.1 = directory ++ [name] ∧ (∃ executable, entry.2 = .file content executable) ∧
        isSourceName includeTests name = true := by
  obtain ⟨location, node⟩ := entry
  unfold sourceIn?
  simp only [← name_in_eq_some_iff]
  cases node with
  | directory => cases nameIn? directory location <;> simp
  | file held executable =>
      cases nameIn? directory location with
      | none => simp
      | some other =>
          simp only [Option.ite_none_right_eq_some, Option.some.injEq, Prod.mk.injEq,
            Node.file.injEq, exists_and_left, exists_eq', and_true]
          constructor
          · rintro ⟨isSource, rfl, rfl⟩
            exact ⟨rfl, rfl, isSource⟩
          · rintro ⟨rfl, rfl, isSource⟩
            exact ⟨isSource, rfl, rfl⟩

end

theorem exists_map_m {α β γ : Type} {step : α → Except Failure β} {view : β → γ} {seen : α → γ}
    {items : List α} (steps : ∀ item ∈ items, ∃ result, step item = .ok result ∧
      view result = seen item) :
    ∃ results, items.mapM step = .ok results ∧ results.map view = items.map seen := by
  induction items with
  | nil => exact ⟨[], rfl, rfl⟩
  | cons head rest ih =>
      obtain ⟨result, ran, shown⟩ := steps head List.mem_cons_self
      obtain ⟨results, others, views⟩ := ih fun item member =>
        steps item (List.mem_cons_of_mem _ member)
      refine ⟨result :: results, ?_, by simp [shown, views]⟩
      rw [List.mapM_cons, ran, others]
      rfl

namespace Project

/-- The names below the root and the content of an entry that a walk without patterns accepts. -/
def walked? (project : Project) (root : Location) (entry : Location × Node) :
    Option (List String × List Text.Glyph) :=
  (fileBelow? root entry).filter fun file =>
    isReached file.1 && (FileFilter.default project.includeTests).accepts (pathThrough file.1)

def packageThrough (project : Project) (names : List String) : String :=
  packagePath project.module (pathThrough names)

theorem scan_file_of_read (project : Project) (components : List String)
    {content : List Text.Glyph} {source : SourceFile}
    (read : SourceFile.ofSource? content = some source) :
    scanFile project components content =
      .ok ⟨project.packageThrough components.dropLast, components.getLast?.getD "", source,
        Imports.ofSpecs source.imports⟩ := by
  rw [scanFile, read]
  rfl

section

variable {project : Project} {root : Location}

theorem scan_all_eq (found : project.tree.find [] project.root = .ok root) :
    scanAll project (.default project.includeTests) =
      (project.tree.entries.filterMap (project.walked? root)).mapM fun file =>
        scanFile project file.1 file.2 := by
  have walked : project.tree.entries.filterMap (project.walked? root) =
      (project.tree.entries.filterMap (fileBelow? root)).filter fun file =>
        isReached file.1 && (FileFilter.default project.includeTests).accepts
          (pathThrough file.1) := List.filter_filterMap.symm
  rw [walked, scanAll, scan, found]
  exact List.mapM_map

theorem walked_eq_some_iff {entry : Location × Node} (named : ∀ name ∈ entry.1, IsEntryName name)
    {components : List String} {content : List Text.Glyph} :
    project.walked? root entry = some (components, content) ↔ ∃ names last,
      components = names ++ [last] ∧ entry.1 = root ++ (names ++ [last]) ∧
        (∃ executable, entry.2 = .file content executable) ∧ isEntered names = true ∧
          isSourceName project.includeTests last = true := by
  unfold walked?
  simp only [Option.filter_eq_some_iff, file_below_eq_some_iff, Bool.and_eq_true]
  constructor
  · rintro ⟨⟨location, isFile⟩, reached, accepted⟩
    rcases List.eq_nil_or_concat' components with rfl | ⟨names, last, rfl⟩
    · rw [accepts_nil] at accepted
      cases accepted
    · rw [location] at named
      have real : ∀ name ∈ names ++ [last], IsEntryName name :=
        fun name member => named name (List.mem_append_right _ member)
      rw [accepts_default real] at accepted
      rw [is_reached_concat, Bool.and_eq_true] at reached
      refine ⟨names, last, rfl, location, isFile, reached.1, ?_⟩
      rw [isSourceName, Bool.and_assoc, reached.2, accepted]
      rfl
  · rintro ⟨names, last, rfl, location, isFile, entered, isSource⟩
    rw [location] at named
    have real : ∀ name ∈ names ++ [last], IsEntryName name :=
      fun name member => named name (List.mem_append_right _ member)
    rw [isSourceName, Bool.and_assoc, Bool.and_eq_true] at isSource
    refine ⟨⟨location, isFile⟩, ?_, ?_⟩
    · rw [is_reached_concat, entered, isSource.1]
      rfl
    · rw [accepts_default real]
      exact isSource.2

/-- In the directory of an accepted file the walk and the listing choose the same entries. -/
theorem walked_eq_source_in {entry : Location × Node} (named : ∀ name ∈ entry.1, IsEntryName name)
    {names : List String} (others : ∀ name ∈ names, IsEntryName name)
    (entered : isEntered names = true) :
    ((project.walked? root entry).filter fun file =>
        project.packageThrough file.1.dropLast == project.packageThrough names).map
          (fun file => file.1.getLast?.getD "") =
      (sourceIn? (root ++ names) project.includeTests entry).map Prod.fst := by
  apply Option.ext
  intro name
  simp only [Option.map_eq_some_iff, Option.filter_eq_some_iff, Prod.exists, beq_iff_eq,
    walked_eq_some_iff named, source_in_eq_some_iff]
  constructor
  · rintro ⟨_, content, ⟨⟨between, last, rfl, location, isFile, -, isSource⟩, same⟩, rfl⟩
    have real : ∀ name ∈ between, IsEntryName name := by
      intro name member
      apply named
      rw [location]
      simp [member]
    rw [List.dropLast_concat] at same
    obtain rfl := package_path_injective real others same
    rw [List.getLast?_concat]
    exact ⟨last, content, ⟨by rw [location, List.append_assoc], isFile, isSource⟩, rfl⟩
  · rintro ⟨last, content, ⟨location, isFile, isSource⟩, rfl⟩
    refine ⟨names ++ [last], content, ⟨⟨names, last, rfl, ?_, isFile, entered, isSource⟩, ?_⟩, ?_⟩
    · rw [location, List.append_assoc]
    · rw [List.dropLast_concat]
    · rw [List.getLast?_concat]
      rfl

def Parses (project : Project) (root : Location) : Prop :=
  ∀ entry ∈ project.tree.entries, ∀ names last content, fileBelow? root entry =
    some (names ++ [last], content) → isGoName last = true →
      (SourceFile.ofSource? content).isSome = true

/-- Whether files have the packages and the names of those that the walk accepts, in its order. -/
def Shows (project : Project) (root : Location) (files : List ScannedFile) : Prop :=
  (files.map fun file => (file.packagePath, file.fileName)) =
    (project.tree.entries.filterMap (project.walked? root)).map fun file =>
      (project.packageThrough file.1.dropLast, file.1.getLast?.getD "")

/-- The files of one package are shown by those that the walk accepts in it. -/
theorem Shows.map_filter {files : List ScannedFile} (shows : project.Shows root files)
    (package : String) :
    (files.filter (·.packagePath == package)).map (fun file => some file.fileName) =
      ((project.tree.entries.filterMap (project.walked? root)).filter fun file =>
        project.packageThrough file.1.dropLast == package).map
          fun file => some (file.1.getLast?.getD "") := by
  have chosen := congrArg (List.map fun pair => some pair.2)
    (congrArg (List.filter (·.1 == package)) shows)
  simpa only [List.filter_map, List.map_map, Function.comp_def] using chosen

variable (wellFormed : project.tree.WellFormed)

include wellFormed

/-- A file that is shown stands in a directory that the walk enters. -/
theorem Shows.exists_names {files : List ScannedFile} (shows : project.Shows root files)
    {file : ScannedFile} (listed : file ∈ files) : ∃ names,
      file.packagePath = project.packageThrough names ∧ isEntered names = true ∧
        project.tree.node? (root ++ names) = some .directory := by
  have shown : (file.packagePath, file.fileName) ∈
      files.map fun file => (file.packagePath, file.fileName) := List.mem_map_of_mem listed
  rw [shows] at shown
  obtain ⟨⟨components, content⟩, walkedOne, same⟩ := List.mem_map.1 shown
  obtain ⟨entry, within, walked⟩ := List.mem_filterMap.1 walkedOne
  obtain ⟨names, last, rfl, location, -, entered, -⟩ :=
    (walked_eq_some_iff (wellFormed.named _ within)).1 walked
  rw [List.dropLast_concat] at same
  have member : (root ++ names ++ [last], entry.2) ∈ project.tree.entries := by
    rw [List.append_assoc, ← location]
    exact within
  exact ⟨names, (Prod.mk.inj same).1.symm, entered,
    wellFormed.above_of_mem member (List.cons_ne_nil _ _)⟩

/-- The walk reads every file that it accepts. -/
theorem exists_scan_all (found : project.tree.find [] project.root = .ok root)
    (parses : project.Parses root) : ∃ files,
      scanAll project (.default project.includeTests) = .ok files ∧ project.Shows root files := by
  rw [scan_all_eq found]
  apply exists_map_m
  intro file listed
  obtain ⟨components, content⟩ := file
  obtain ⟨entry, member, walked⟩ := List.mem_filterMap.1 listed
  obtain ⟨names, last, rfl, location, isFile, -, isSource⟩ :=
    (walked_eq_some_iff (wellFormed.named _ member)).1 walked
  have isGo : isGoName last = true := by
    simp only [isSourceName, Bool.and_eq_true] at isSource
    exact isSource.1.2
  have below := file_below_eq_some_iff.2 ⟨location, isFile⟩
  obtain ⟨source, read⟩ := Option.isSome_iff_exists.1
    (parses entry member names last content below isGo)
  exact ⟨_, scan_file_of_read project (names ++ [last]) read, rfl⟩

/-- The package of a directory leads to the directory again. -/
theorem exists_package_dir (found : project.tree.find [] project.root = .ok root)
    {names : List String} (isDirectory : project.tree.node? (root ++ names) = some .directory) :
    ∃ dir, packageDir? project.root project.module (project.packageThrough names) = some dir ∧
      dir.text ≠ "" ∧ project.tree.directory? dir = some (root ++ names) := by
  have named := wellFormed.named_below isDirectory
  have leads := (Tree.Leads.of_find found).1.foldl_join named fun above within => by
    obtain ⟨rest, rfl⟩ := within
    rw [← List.append_assoc] at isDirectory
    exact wellFormed.above_of_directory isDirectory
  exact ⟨_, package_dir_package_path named project.root project.module, leads.nonempty,
    leads.directory_eq isDirectory⟩

/-- The names of the files that are listed in a directory are those of the files that the walk
accepts in its package. -/
theorem map_file_name_package_files {dir : Path} {names : List String} (nonempty : dir.text ≠ "")
    (located : project.tree.directory? dir = some (root ++ names))
    (named : ∀ name ∈ names, IsEntryName name) (entered : isEntered names = true) :
    (packageFiles project.tree dir project.includeTests).map Path.fileName? =
      ((project.tree.entries.filterMap (project.walked? root)).filter fun file =>
        project.packageThrough file.1.dropLast == project.packageThrough names).map
          fun file => some (file.1.getLast?.getD "") := by
  have listed : (packageFiles project.tree dir project.includeTests).map Path.fileName? =
      ((packageSources project.tree dir project.includeTests).map Prod.fst).map some := by
    rw [packageFiles, List.map_map, List.map_map]
    apply List.map_congr_left
    intro file member
    rw [packageSources, located] at member
    obtain ⟨entry, within, shown⟩ := List.mem_filterMap.1 member
    have real : IsEntryName file.1 := by
      apply wellFormed.named _ within
      rw [(of_source_in shown).1]
      simp
    exact Path.file_name_join real nonempty
  rw [listed, packageSources, located, List.map_filterMap, List.filter_filterMap,
    List.map_filterMap, List.map_filterMap]
  apply List.filterMap_congr
  intro entry within
  rw [← walked_eq_source_in (wellFormed.named _ within) named entered, Option.map_map]
  rfl

end

/-- The walk over the files of a project whose Go files can all be parsed, without patterns, and the
listing of the directory of a package show the same files. Each package of a file that is found
leads to a directory in which exactly the files that are found with this package are listed, in the
same order; and the packages of different directories are different. -/
theorem scan_agrees {project : Project} {root : Location} (wellFormed : project.tree.WellFormed)
    (found : project.tree.find [] project.root = .ok root) (parses : project.Parses root) :
    ∃ filter files, FileFilter.ofPatterns [] [] project.includeTests = .ok filter ∧
      scanAll project filter = .ok files ∧
      (∀ file ∈ files, ∃ dir,
        packageDir? project.root project.module file.packagePath = some dir ∧
          (packageFiles project.tree dir project.includeTests).map Path.fileName? =
            (files.filter (·.packagePath == file.packagePath)).map fun other =>
              some other.fileName) ∧
      ∀ first second, project.tree.node? (root ++ first) = some .directory →
        project.tree.node? (root ++ second) = some .directory →
          project.packageThrough first = project.packageThrough second → first = second := by
  obtain ⟨files, scanned, shows⟩ := exists_scan_all wellFormed found parses
  refine ⟨_, files, FileFilter.of_patterns_nil _, scanned, ?_, ?_⟩
  · intro file listed
    obtain ⟨names, package, entered, isDirectory⟩ := shows.exists_names wellFormed listed
    obtain ⟨dir, leads, nonempty, located⟩ := exists_package_dir wellFormed found isDirectory
    have named := wellFormed.named_below isDirectory
    rw [shows.map_filter, package]
    exact ⟨dir, leads, map_file_name_package_files wellFormed nonempty located named entered⟩
  · intro first second isFirst isSecond same
    exact package_path_injective (wellFormed.named_below isFirst) (wellFormed.named_below isSecond)
      same

def packagesContent : List Text.Glyph := Text.Glyph.ofString "package p\n"

def packagesProject : Project where
  tree := ⟨[(["p"], .directory), (["p", "a"], .directory),
    (["p", "a", "_c.go"], .file packagesContent false),
    (["p", "a", "b.go"], .file packagesContent false),
    (["p", "a", "b_test.go"], .file packagesContent false),
    (["p", "m.go"], .file packagesContent false)], by decide⟩
  root := ⟨"/p/"⟩
  module := "m"
  includeTests := false

theorem scan_agrees_packages_project : ∃ filter files,
    FileFilter.ofPatterns [] [] packagesProject.includeTests = .ok filter ∧
      scanAll packagesProject filter = .ok files ∧
        ∀ file ∈ files, ∃ dir,
          packageDir? packagesProject.root packagesProject.module file.packagePath = some dir ∧
            (packageFiles packagesProject.tree dir packagesProject.includeTests).map
                Path.fileName? =
              (files.filter (·.packagePath == file.packagePath)).map fun other =>
                some other.fileName := by
  have wellFormed : packagesProject.tree.WellFormed := ⟨by decide, by decide⟩
  have found : packagesProject.tree.find [] packagesProject.root = .ok ["p"] := by rfl
  have parsed : (SourceFile.ofSource? packagesContent).isSome = true := by decide +kernel
  have parses : packagesProject.Parses ["p"] := by
    intro entry member names last content below _
    obtain ⟨-, executable, isFile⟩ := file_below_eq_some_iff.1 below
    simp only [packagesProject, List.mem_cons, List.not_mem_nil, or_false] at member
    rcases member with rfl | rfl | rfl | rfl | rfl | rfl <;> cases isFile <;> exact parsed
  obtain ⟨filter, files, filtered, scanned, agrees, -⟩ := scan_agrees wellFormed found parses
  exact ⟨filter, files, filtered, scanned, agrees⟩

end Project

end EndpointAtlas
