import EndpointAtlas.Proofs.Aliases.Packages
import EndpointAtlas.Proofs.Aliases.Spelling
import EndpointAtlas.Proofs.Registration.Reachable

/-!
The imports of a document as a block of import declarations. Nothing keeps two packages apart whose
paths are alike, and no path is made to start with a letter: the aliases are distinct exactly if no
two of the packages are alike, and they are identifiers where the paths spell some.
-/

namespace EndpointAtlas

open Text

/-- The alias that a line of imports declares, which is what stands before its first space. -/
def declaredAlias? (line : String) : Option String :=
  (cutFirst (· == ' ') line.toList).map fun (before, _) => String.ofList before

@[simp] theorem declared_alias_import_line (package : String) :
    declaredAlias? (importLine package) = some (packageAlias package) := by
  simp [declaredAlias?, cut_first_import_line]

def Document.importAliases (document : Document) : List String :=
  document.imports.filterMap declaredAlias?

theorem Document.import_aliases_eq {document : Document} {packages : List String}
    (lines : document.imports = packages.map importLine) :
    document.importAliases = packages.map packageAlias := by
  simp only [importAliases, lines, List.filterMap_map, Function.comp_def,
    declared_alias_import_line, List.filterMap_eq_map']

theorem nodup_map_package_alias_iff {packages : List String} :
    (packages.map packageAlias).Nodup ↔
      packages.Pairwise fun package other => ¬ Alike package.toList other.toList := by
  rw [List.Nodup, List.pairwise_map]
  simp only [ne_eq, package_alias_eq_iff]

theorem is_identifier_package_alias {package : String} (spells : SpellsIdentifier package.toList) :
    Go.IsIdentifier (packageAlias package).toList := by
  rw [packageAlias, String.toList_ofList]
  exact is_identifier_alias_from_iff.2 spells

/-- The imports of a document are one line for each of its packages, in increasing order. No two of
them declare the same alias exactly if no two of the packages are alike, and the alias of a package
whose path spells an identifier is one. -/
theorem import_aliases_of_analyze {tree : Tree} {options : AnalysisOptions} {document : Document}
    (succeeds : (analyze tree options).1 = .ok document) :
    ∃ packages : List String, packages.Pairwise (· < ·) ∧
      document.imports = packages.map importLine ∧
      document.importAliases = packages.map packageAlias ∧
      (document.importAliases.Nodup ↔
        packages.Pairwise fun package other => ¬ Alike package.toList other.toList) ∧
      ∀ package ∈ packages, SpellsIdentifier package.toList →
        Go.IsIdentifier (packageAlias package).toList := by
  obtain ⟨_, after, -, -, rfl⟩ := completes_of_analyze succeeds
  have lines := Document.imports_with_aliases after.document
  have aliases := Document.import_aliases_eq lines
  refine ⟨after.document.packages.keys, List.pairwise_map.2 after.document.packages.increasing,
    lines, aliases, ?_, fun package _ => is_identifier_package_alias⟩
  rw [aliases, nodup_map_package_alias_iff]

def alikeTree : Tree :=
  ⟨[(["a-b"], .directory),
    (["a-b", "a.go"],
      .file (Text.Glyph.ofString "package a\n// @Controller\ntype C struct \x7b\x7d\n") false),
    (["a_b"], .directory),
    (["a_b", "b.go"],
      .file (Text.Glyph.ofString "package b\n// @Controller\ntype D struct \x7b\x7d\n") false)],
    by decide⟩

def digitOptions : AnalysisOptions := { mutualOptions with module := "9" }

theorem exists_import_aliases_alike_tree : ∃ document,
    (analyze alikeTree digitOptions).1 = .ok document ∧
      document.importAliases = ["9_a_b", "9_a_b"] := by
  have declared : (analyze alikeTree digitOptions).1.toOption.map (·.importAliases) =
      some ["9_a_b", "9_a_b"] := by decide +kernel
  exact exists_ok_of_to_option declared

/-- The alias that is declared twice there shows that two of the packages are alike. -/
theorem alike_of_import_aliases : ∃ document, ∃ packages : List String,
    (analyze alikeTree digitOptions).1 = .ok document ∧
      document.imports = packages.map importLine ∧
        ¬ packages.Pairwise fun package other => ¬ Alike package.toList other.toList := by
  obtain ⟨document, succeeds, aliases⟩ := exists_import_aliases_alike_tree
  obtain ⟨packages, -, lines, -, distinct, -⟩ := import_aliases_of_analyze succeeds
  refine ⟨document, packages, succeeds, lines, fun apart => ?_⟩
  have nodup := distinct.2 apart
  rw [aliases] at nodup
  exact absurd nodup (by decide)

/-- Neither are the aliases of a document always distinct, nor are they always identifiers. -/
theorem import_aliases_repeat : ∃ document,
    (analyze alikeTree digitOptions).1 = .ok document ∧ ¬ document.importAliases.Nodup ∧
      ∃ aliasName ∈ document.importAliases, ¬ Go.IsIdentifier aliasName.toList := by
  obtain ⟨document, succeeds, aliases⟩ := exists_import_aliases_alike_tree
  refine ⟨document, succeeds, by simp [aliases], "9_a_b", by simp [aliases], fun is => ?_⟩
  have digit : Go.Lexeme.isNameStart '9' = true := is.start '9' rfl
  exact absurd digit (by decide)

end EndpointAtlas
