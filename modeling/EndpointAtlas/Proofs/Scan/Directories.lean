import Mathlib.Data.List.Induction
import EndpointAtlas.Proofs.Scan.Names

/-!
Directories of a tree and the paths that lead to them. In a tree that is well formed the names on
the way to an entry are names of directories, and a path through them leads there.
-/

namespace EndpointAtlas

namespace Tree

/-- Whether all entries have names that entries can have, and stand in directories. -/
structure WellFormed (tree : Tree) : Prop where
  named : ∀ entry ∈ tree.entries, ∀ name ∈ entry.1, IsEntryName name
  closed : ∀ entry ∈ tree.entries, tree.node? entry.1.dropLast = some .directory

/-- Whether a path, seen from the root, leads to a location. -/
structure Leads (tree : Tree) (path : Path) (location : Location) : Prop where
  nonempty : path.text ≠ ""
  follows : tree.follow [] path.parts = .ok location

theorem follow_append (tree : Tree) (location : Location) (first second : List (List Char)) :
    tree.follow location (first ++ second) =
      (tree.follow location first).bind fun reached => tree.follow reached second := by
  induction first generalizing location with
  | nil => rfl
  | cons part rest ih =>
      rw [List.cons_append, follow, follow]
      cases tree.node? location with
      | none => rfl
      | some node =>
          cases node with
          | file _ _ => rfl
          | directory =>
              simp only [ih]
              split
              · rfl
              · split <;> rfl

section

variable {tree : Tree} {path : Path} {location : Location}

theorem Leads.of_find (found : tree.find [] path = .ok location) :
    tree.Leads path location ∧ (tree.node? location).isSome = true := by
  unfold find at found
  cases located : tree.locate [] path with
  | error fault =>
      rw [located] at found
      cases found
  | ok reached =>
      simp only [located, bind, Except.bind] at found
      split at found
      · rename_i present
        obtain rfl := Except.ok.inj found
        unfold locate at located
        split at located
        · cases located
        · rename_i nonempty
          exact ⟨⟨by simpa using nonempty, by simpa using located⟩, present⟩
      · cases found

theorem Leads.directory_eq (leads : tree.Leads path location)
    (isDirectory : tree.node? location = some .directory) :
    tree.directory? path = some location := by
  have located : tree.locate [] path = .ok location := by
    simp [locate, leads.nonempty, leads.follows]
  have found : tree.find [] path = .ok location := by
    simp [find, located, isDirectory, bind, Except.bind]
  simp [directory?, found, isDirectory]

theorem follow_empty {last : Location} (follows : tree.follow last [[]] = .ok location) :
    last = location := by
  unfold follow at follows
  split at follows
  · cases follows
  · cases follows
  · exact Except.ok.inj follows

theorem follow_name (isDirectory : tree.node? location = some .directory) {name : String}
    (named : IsEntryName name) : tree.follow location [name.toList] = .ok (location ++ [name]) := by
  have normal := named.1
  simp only [Path.isNormalPart, Bool.and_eq_true, Bool.not_eq_true', bne_iff_ne, ne_eq] at normal
  simp [follow, isDirectory, normal]

/-- A name after a path to a directory leads to what has the name there. -/
theorem Leads.join (leads : tree.Leads path location)
    (isDirectory : tree.node? location = some .directory) {name : String}
    (named : IsEntryName name) : tree.Leads (path.join ⟨name⟩) (location ++ [name]) := by
  obtain ⟨before, base, split⟩ := Path.exists_parts_join named.2 leads.nonempty
  have follows : tree.follow [] before = .ok location := by
    have whole := leads.follows
    rcases base with base | base
    · rwa [base] at whole
    · rw [base, follow_append] at whole
      cases reached : tree.follow [] before with
      | error fault =>
          rw [reached] at whole
          cases whole
      | ok last =>
          rw [reached] at whole
          rw [follow_empty whole]
  constructor
  · intro empty
    rw [Path.parts, empty] at split
    have last : [] = name.toList := by simpa using congrArg List.getLast? split
    simpa [Path.isNormalPart, ← last] using named.1
  · rw [split, follow_append, follows]
    exact follow_name isDirectory named

theorem Leads.foldl_join {names : List String} (leads : tree.Leads path location)
    (named : ∀ name ∈ names, IsEntryName name)
    (through : ∀ above, above <+: names → tree.node? (location ++ above) = some .directory) :
    tree.Leads (names.foldl (fun dir name => dir.join ⟨name⟩) path) (location ++ names) := by
  induction names generalizing path location with
  | nil => simpa using leads
  | cons name rest ih =>
      have isDirectory : tree.node? location = some .directory := by
        simpa using through [] List.nil_prefix
      have next := leads.join isDirectory (named name List.mem_cons_self)
      rw [List.foldl_cons, List.append_cons]
      apply ih next
      · exact fun other member => named other (List.mem_cons_of_mem _ member)
      · intro above within
        simpa using through (name :: above) (by simpa using within)

theorem eq_nil_or_mem_of_node {node : Node} (found : tree.node? location = some node) :
    location = [] ∨ (location, node) ∈ tree.entries := by
  unfold node? at found
  split at found
  · rename_i empty
    exact .inl (List.isEmpty_iff.1 empty)
  · obtain ⟨before, after, split, -⟩ := List.lookup_eq_some_iff.1 found
    exact .inr (by simp [split])

namespace WellFormed

variable (wellFormed : tree.WellFormed)

include wellFormed

theorem named_below {names : List String} {node : Node}
    (found : tree.node? (location ++ names) = some node) :
    ∀ name ∈ names, IsEntryName name := by
  intro name member
  have within : name ∈ location ++ names := List.mem_append_right _ member
  rcases eq_nil_or_mem_of_node found with root | listed
  · rw [root] at within
    cases within
  · exact wellFormed.named _ listed name within

theorem above_of_mem {rest : Location} {node : Node}
    (listed : (location ++ rest, node) ∈ tree.entries) (nonempty : rest ≠ []) :
    tree.node? location = some .directory := by
  induction rest using List.reverseRecOn generalizing node with
  | nil => exact absurd rfl nonempty
  | append_singleton between last ih =>
      have isDirectory := wellFormed.closed _ listed
      rw [← List.append_assoc, List.dropLast_concat] at isDirectory
      by_cases direct : between = []
      · rwa [direct, List.append_nil] at isDirectory
      · rcases eq_nil_or_mem_of_node isDirectory with root | listedToo
        · simp [direct] at root
        · exact ih listedToo direct

theorem above_of_directory {rest : Location}
    (isDirectory : tree.node? (location ++ rest) = some .directory) :
    tree.node? location = some .directory := by
  by_cases same : rest = []
  · rwa [same, List.append_nil] at isDirectory
  · rcases eq_nil_or_mem_of_node isDirectory with root | listed
    · simp [same] at root
    · exact wellFormed.above_of_mem listed same

end WellFormed

end

end Tree

end EndpointAtlas
