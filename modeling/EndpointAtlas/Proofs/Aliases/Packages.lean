import Mathlib.Data.List.Basic
import EndpointAtlas.Analysis
import EndpointAtlas.Proofs.Aliases.ReadBack
import EndpointAtlas.Proofs.Paths.RawParts

/-!
The packages of a document. All packages of a project start as its module path does, so either all
of them start with white space or none does; and the imports of a document are one line for each of
its packages, in increasing order.
-/

namespace EndpointAtlas

open Text

theorem below_module_eq_some_iff {module package : String} {rest : List Char} :
    belowModule? module package = some rest ↔
      package.toList = (moduleBase module).toList ++ '/' :: rest := by
  unfold belowModule? afterStart?
  constructor
  · intro below
    split at below
    · rename_i found
      obtain rfl := Option.some.inj below
      exact (List.isPrefixOf?_eq_some_iff_append_eq.1 found).symm
    · cases below
  · intro split
    have found := List.isPrefixOf?_eq_some_iff_append_eq.2 split.symm
    simp only [found]

theorem is_project_package_package_path (module : String) (dir : Path) :
    isProjectPackage module (packagePath module dir) = true := by
  rw [package_path_eq, isProjectPackage, packageBelow, String.join_cons]
  cases dir.normalParts with
  | nil => simp
  | cons part rest =>
      have below : belowModule? module
          (moduleBase module ++ String.join ((part :: rest).map ("/" ++ ·))) =
            some (part.toList ++ (String.join (rest.map ("/" ++ ·))).toList) := by
        refine below_module_eq_some_iff.2 ?_
        rw [List.map_cons, String.join_cons, String.toList_append, String.toList_append,
          String.toList_append]
        rfl
      rw [below]
      simp

theorem starts_blank_of_is_project_package {module package : String}
    (within : isProjectPackage module package = true) :
    startsBlank package.toList = startsBlank (moduleBase module).toList := by
  unfold isProjectPackage at within
  rw [Bool.or_eq_true, beq_iff_eq] at within
  rcases within with rfl | below
  · rfl
  · obtain ⟨rest, found⟩ := Option.isSome_iff_exists.1 below
    rw [below_module_eq_some_iff.1 found]
    cases (moduleBase module).toList with
    | nil =>
        show isBlank '/' = false
        decide
    | cons c tail => rfl

theorem exists_of_mem_map_m {α β : Type} {step : α → Except Failure β} {items : List α}
    {results : List β} (ran : items.mapM step = .ok results) {result : β}
    (member : result ∈ results) : ∃ item ∈ items, step item = .ok result := by
  induction items generalizing results with
  | nil =>
      obtain rfl := Except.ok.inj ran
      cases member
  | cons head rest ih =>
      rw [List.mapM_cons] at ran
      cases first : step head with
      | error failure =>
          rw [first] at ran
          cases ran
      | ok value =>
          cases others : rest.mapM step with
          | error failure =>
              rw [first, others] at ran
              cases ran
          | ok values =>
              rw [first, others] at ran
              obtain rfl := Except.ok.inj ran
              rcases List.mem_cons.1 member with rfl | later
              · exact ⟨head, List.mem_cons_self, first⟩
              · obtain ⟨item, listed, gives⟩ := ih others later
                exact ⟨item, List.mem_cons_of_mem _ listed, gives⟩

theorem exists_scan_file {tree : Tree} {options : AnalysisOptions} {files : List ScannedFile}
    (scanned : options.scannedFiles tree = .ok files) {file : ScannedFile}
    (listed : file ∈ files) : ∃ components content,
      scanFile (options.project tree) components content = .ok file := by
  unfold AnalysisOptions.scannedFiles at scanned
  cases filtered : FileFilter.ofPatterns options.inclusions options.exclusions
      options.includeTests with
  | error failure =>
      rw [filtered] at scanned
      cases scanned
  | ok filter =>
      rw [filtered] at scanned
      obtain ⟨_, member, rfl⟩ := exists_of_mem_map_m scanned listed
      unfold scan at member
      split at member
      · cases List.mem_singleton.1 member
      · obtain ⟨⟨components, content⟩, -, read⟩ := List.mem_map.1 member
        exact ⟨components, content, read⟩

theorem ScannedFile.is_project_package {tree : Tree} {options : AnalysisOptions}
    {files : List ScannedFile} (scanned : options.scannedFiles tree = .ok files)
    {file : ScannedFile} (listed : file ∈ files) :
    EndpointAtlas.isProjectPackage options.module file.packagePath = true := by
  obtain ⟨components, content, read⟩ := exists_scan_file scanned listed
  unfold scanFile at read
  split at read
  · cases read
  · obtain rfl := Except.ok.inj read
    exact is_project_package_package_path _ _

def importLine (package : String) : String :=
  packageAlias package ++ " \"" ++ package ++ "\""

theorem cut_first_import_line (package : String) :
    cutFirst (· == ' ') (importLine package).toList =
      some ((packageAlias package).toList, '"' :: (package.toList ++ ['"'])) := by
  have split : (importLine package).toList =
      (packageAlias package).toList ++ ' ' :: '"' :: (package.toList ++ ['"']) := by
    simp [importLine]
  exact cut_first_mark_eq_some_iff.2 ⟨split, blank_not_mem_package_alias package⟩

theorem import_line_injective {first second : String}
    (same : importLine first = importLine second) : first = second := by
  have lines := cut_first_import_line first
  rw [same, cut_first_import_line second] at lines
  have packages : first.toList = second.toList := by
    simpa using (congrArg Prod.snd (Option.some.inj lines)).symm
  exact String.toList_inj.1 packages

namespace Document

variable {document : Document} {package : String}

theorem imports_with_aliases (document : Document) :
    document.withAliases.imports = document.packages.keys.map importLine := by
  show document.packages.entries.map _ = (document.packages.entries.map Prod.fst).map importLine
  rw [List.map_map]
  apply List.map_congr_left
  intro entry member
  obtain ⟨package, -, rfl⟩ := List.mem_map.1 (Table.mem_of_mem_of_list member)
  rfl

theorem mem_packages_iff : package ∈ document.packages.keys ↔
    (∃ key ∈ document.types.keys, typePackage? key = some package) ∨
      ∃ name controller, document.controllers.get? name = some controller ∧
        controller.package = package := by
  unfold packages
  rw [Table.mem_keys_of_list, List.map_map, List.mem_map]
  simp only [List.mem_append, List.mem_filterMap, List.mem_map, Table.mem_values_iff,
    Function.comp_apply, exists_eq_right]
  grind

end Document

end EndpointAtlas
