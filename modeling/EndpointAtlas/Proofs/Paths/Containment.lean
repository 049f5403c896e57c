import Mathlib.Algebra.Order.BigOperators.Group.List
import Mathlib.Algebra.Order.Group.Nat
import Mathlib.Data.List.Infix
import EndpointAtlas.Proofs.Paths.Components
import EndpointAtlas.Proofs.Paths.RoundTrip
import EndpointAtlas.Proofs.Resolution.History
import EndpointAtlas.Proofs.Scan.Packages

/-!
Which packages stay in their project. A package may hold points between its slashes. Its directory
lies below every root exactly when no start of what follows the module path goes up more often than
it goes down, and then only files below the root are read for the package.
-/

namespace EndpointAtlas

namespace Path

def Component.isName : Component → Bool
  | .name _ => true
  | _ => false

/-- Whether a way never goes above a place that lies so many names above its start. -/
def StaysWithin (allowance : Nat) (turns : List Component) : Prop :=
  ∀ before ∈ turns.inits, before.count .above ≤ before.countP Component.isName + allowance

instance (allowance : Nat) (turns : List Component) : Decidable (StaysWithin allowance turns) :=
  inferInstanceAs (Decidable (∀ before ∈ turns.inits, _))

theorem stays_within_iff {allowance : Nat} {turns : List Component} :
    StaysWithin allowance turns ↔ ∀ before, before <+: turns →
      before.count .above ≤ before.countP Component.isName + allowance := by
  simp only [StaysWithin, List.mem_inits]

theorem stays_within_nil (allowance : Nat) : StaysWithin allowance [] := by
  simp [StaysWithin]

theorem stays_within_cons {allowance : Nat} {turn : Component} {rest : List Component} :
    StaysWithin allowance (turn :: rest) ↔ ∀ before, before <+: rest →
      (turn :: before).count .above ≤ (turn :: before).countP Component.isName + allowance := by
  rw [stays_within_iff]
  constructor
  · intro stays before within
    exact stays _ (List.cons_prefix_cons.2 ⟨rfl, within⟩)
  · intro stays before within
    cases before with
    | nil => simp
    | cons first others =>
        obtain ⟨rfl, inner⟩ := List.cons_prefix_cons.1 within
        exact stays others inner

theorem stays_within_name {allowance : Nat} {text : String} {rest : List Component} :
    StaysWithin allowance (.name text :: rest) ↔ StaysWithin (allowance + 1) rest := by
  rw [stays_within_cons, stays_within_iff]
  refine forall_congr' fun before => imp_congr_right fun _ => ?_
  simp only [List.countP_cons, Component.isName]
  simp [Nat.add_assoc, Nat.add_comm 1]

theorem stays_within_above {allowance : Nat} {rest : List Component} :
    StaysWithin allowance (.above :: rest) ↔
      ∃ smaller, allowance = smaller + 1 ∧ StaysWithin smaller rest := by
  rw [stays_within_cons]
  simp only [stays_within_iff, List.count_cons_self, List.countP_cons, Component.isName]
  constructor
  · intro stays
    have first := stays [] List.nil_prefix
    simp at first
    refine ⟨allowance - 1, by omega, fun before within => ?_⟩
    have bound := stays before within
    simp at bound
    omega
  · intro fewer before within
    obtain ⟨smaller, rfl, stays⟩ := fewer
    have bound := stays before within
    simp
    omega

theorem stays_within_still {allowance : Nat} {turn : Component} {rest : List Component}
    (still : turn = .root ∨ turn = .here) :
    StaysWithin allowance (turn :: rest) ↔ StaysWithin allowance rest := by
  rw [stays_within_cons, stays_within_iff]
  refine forall_congr' fun before => imp_congr_right fun _ => ?_
  rcases still with rfl | rfl <;> simp [Component.isName]

namespace Place

/-- A way that goes up no more often than it may leads to a place below the outer names. -/
theorem foldl_enter_of_stays_within {turns : List Component} {extra : List String}
    (stays : StaysWithin extra.length turns) (absolute : Bool) (climbs : Nat)
    (outer : List String) : ∃ inner, turns.foldl enter ⟨absolute, climbs, outer ++ extra⟩ =
      ⟨absolute, climbs, outer ++ inner⟩ := by
  induction turns generalizing extra with
  | nil => exact ⟨extra, rfl⟩
  | cons turn rest ih =>
      rw [List.foldl_cons]
      cases turn with
      | root => exact ih ((stays_within_still (.inl rfl)).1 stays)
      | here => exact ih ((stays_within_still (.inr rfl)).1 stays)
      | name text =>
          have longer : StaysWithin (extra ++ [text]).length rest := by
            simpa using stays_within_name.1 stays
          obtain ⟨inner, led⟩ := ih longer
          refine ⟨inner, ?_⟩
          rw [← led, enter, List.append_assoc]
      | above =>
          obtain ⟨smaller, length, shorter⟩ := stays_within_above.1 stays
          have nonempty : extra ≠ [] := by
            intro nothing
            subst nothing
            cases length
          have fewer : extra.dropLast.length = smaller := by simp [length]
          obtain ⟨inner, led⟩ := ih (fewer ▸ shorter)
          refine ⟨inner, ?_⟩
          rw [← led, enter, if_pos (by simp [nonempty]), List.dropLast_append_of_ne_nil nonempty]

theorem mem_names_foldl_enter {turns : List Component} {place : Place} {text : String}
    (member : text ∈ (turns.foldl enter place).names) :
    text ∈ place.names ∨ .name text ∈ turns := by
  induction turns generalizing place with
  | nil => exact .inl member
  | cons turn rest ih =>
      rcases ih member with earlier | later
      · cases turn with
        | root => exact .inl earlier
        | here => exact .inl earlier
        | name other =>
            rcases List.mem_append.1 earlier with earlier | last
            · exact .inl earlier
            · obtain rfl := List.mem_singleton.1 last
              exact .inr List.mem_cons_self
        | above =>
            rw [enter] at earlier
            split at earlier
            · exact .inl (List.mem_of_mem_dropLast earlier)
            · split at earlier
              · exact .inl earlier
              · exact .inl earlier
      · exact .inr (List.mem_cons_of_mem _ later)

/-- A way that does not name the outer name, and leads below it, never goes above it. -/
theorem stays_within_of_mem_names {turns : List Component} {fresh : String} {extra : List String}
    {absolute : Bool} {climbs : Nat} (unnamed : .name fresh ∉ turns)
    (member : fresh ∈ (turns.foldl enter ⟨absolute, climbs, fresh :: extra⟩).names) :
    StaysWithin extra.length turns := by
  induction turns generalizing extra with
  | nil => exact stays_within_nil _
  | cons turn rest ih =>
      have other : .name fresh ∉ rest := fun within => unnamed (List.mem_cons_of_mem _ within)
      rw [List.foldl_cons] at member
      cases turn with
      | root => exact (stays_within_still (.inl rfl)).2 (ih other member)
      | here => exact (stays_within_still (.inr rfl)).2 (ih other member)
      | name text =>
          have longer : StaysWithin (extra ++ [text]).length rest := ih other member
          rw [List.length_append] at longer
          exact stays_within_name.2 longer
      | above =>
          cases extra with
          | nil =>
              -- The outer name itself is left here, and nothing enters it again.
              rcases mem_names_foldl_enter member with absent | named
              · cases absent
              · exact absurd named other
          | cons first others =>
              have shorter : StaysWithin (first :: others).dropLast.length rest := ih other member
              refine stays_within_above.2 ⟨_, ?_, shorter⟩
              simp

end Place

theorem exists_is_entry_name (names : List String) : ∃ name, IsEntryName name ∧ name ∉ names := by
  let length := (names.map String.length).sum + 2
  have chars : (String.ofList (List.replicate length 'a')).toList = List.replicate length 'a' :=
    String.toList_ofList
  refine ⟨String.ofList (List.replicate length 'a'), ⟨?_, ?_⟩, fun member => ?_⟩
  · simp [isNormalPart, length, List.replicate_succ]
  · simp [chars, List.mem_replicate]
  · have bound := List.single_le_sum (fun _ _ => Nat.zero_le _) _
      (@List.mem_map_of_mem _ _ _ _ String.length member)
    rw [← String.length_toList, chars, List.length_replicate] at bound
    omega

end Path

/-- A path that can be followed leads to where its points say, since a tree has no links. -/
theorem Tree.foldl_enter_of_follow {tree : Tree} {start reached : Location}
    {parts : List (List Char)} (follows : tree.follow start parts = .ok reached) :
    (parts.filterMap Path.component?).foldl Path.Place.enter ⟨true, 0, start⟩ =
      ⟨true, 0, reached⟩ := by
  induction parts generalizing start with
  | nil =>
      obtain rfl := Except.ok.inj follows
      rfl
  | cons part rest ih =>
      unfold follow at follows
      split at follows
      · cases follows
      · cases follows
      · split at follows
        · rename_i still
          rw [List.filterMap_cons, Path.component?, if_pos still]
          exact ih follows
        · rename_i moves
          split at follows
          · rename_i points
            rw [List.filterMap_cons, Path.component?, if_neg moves, if_pos points, ← ih follows]
            rw [List.foldl_cons, Path.Place.enter]
            by_cases empty : start = [] <;> simp [empty]
          · rename_i plain
            rw [List.filterMap_cons, Path.component?, if_neg moves, if_neg plain, ← ih follows]
            rfl

theorem Tree.exists_of_directory {tree : Tree} {dir : Path} {directory : Location}
    (located : tree.directory? dir = some directory) : tree.find [] dir = .ok directory := by
  unfold directory? at located
  split at located
  · rename_i reached found
    split at located
    · rw [found, Option.some.inj located]
    · cases located
  · cases located

/-- The way from the root of a project to the directory of a package. -/
def turnsBelow (module package : String) : List Path.Component :=
  (Path.mk (String.ofList ((belowModule? module package).getD []))).turns

theorem turns_of_package_dir {root dir : Path} {module package : String}
    (found : packageDir? root module package = some dir) :
    dir.turns = root.turns ++ turnsBelow module package ∧ dir.isAbsolute = root.isAbsolute := by
  unfold packageDir? packageDirBy? at found
  split at found
  · rename_i whole
    have nothing : belowModule? module package = none := by
      rw [beq_iff_eq.1 whole, Option.eq_none_iff_forall_ne_some]
      intro rest below
      simpa using below_module_eq_some_iff.1 below
    obtain rfl := Option.some.inj found
    rw [turnsBelow, nothing]
    exact ⟨(List.append_nil _).symm, rfl⟩
  · obtain ⟨rest, below, rfl⟩ := Option.map_eq_some_iff.1 found
    have clean : ∀ part ∈ rest.splitOn '/', '/' ∉ part :=
      fun _ member => not_mem_of_mem_split_on member
    have way : turnsBelow module package = (rest.splitOn '/').filterMap Path.component? := by
      rw [turnsBelow, below, Option.getD_some, Path.turns, Path.parts, String.toList_ofList]
    rw [way]
    exact Path.foldl_join root clean

theorem place_of_package_dir {root dir : Path} {module package : String}
    (found : packageDir? root module package = some dir) :
    dir.place = (turnsBelow module package).foldl Path.Place.enter root.place := by
  obtain ⟨turned, starts⟩ := turns_of_package_dir found
  rw [Path.place, turned, starts, List.foldl_append]
  rfl

def Project.Opens (project : Project) (package : String) (entry : Location × Node) : Prop :=
  ∃ dir directory, packageDir? project.root project.module package = some dir ∧
    project.tree.directory? dir = some directory ∧ entry ∈ project.tree.entries ∧
      (sourceIn? directory project.includeTests entry).isSome = true

/-- Whether a package stays in every project with the module path. -/
structure Contained (module package : String) : Prop where
  /-- Its directory is the root or lies below it once the points are resolved. -/
  within (root dir : Path) : packageDir? root module package = some dir →
    root.place.Within dir.place
  /-- The files that are read for it lie below the root. -/
  opens (project : Project) (root : Location) : project.module = module →
    project.tree.find [] project.root = .ok root →
      ∀ entry, project.Opens package entry → root <+: entry.1

section

variable {module package : String}

theorem within_of_package_dir (stays : Path.StaysWithin 0 (turnsBelow module package))
    {root dir : Path} (found : packageDir? root module package = some dir) :
    root.place.Within dir.place := by
  obtain ⟨inner, led⟩ := @Path.Place.foldl_enter_of_stays_within _ [] stays
    root.place.absolute root.place.climbs root.place.names
  rw [List.append_nil] at led
  rw [place_of_package_dir found, led]
  exact ⟨rfl, rfl, List.prefix_append _ _⟩

theorem prefix_of_opens (stays : Path.StaysWithin 0 (turnsBelow module package))
    {project : Project} (same : project.module = module) {root : Location}
    (found : project.tree.find [] project.root = .ok root) {entry : Location × Node}
    (opens : project.Opens package entry) : root <+: entry.1 := by
  obtain ⟨dir, directory, leads, located, -, chosen⟩ := opens
  rw [same] at leads
  have outer := Tree.foldl_enter_of_follow (Tree.Leads.of_find found).1.follows
  have inner := Tree.foldl_enter_of_follow
    (Tree.Leads.of_find (Tree.exists_of_directory located)).1.follows
  obtain ⟨more, led⟩ := @Path.Place.foldl_enter_of_stays_within _ [] stays true 0 root
  have turned := (turns_of_package_dir leads).1
  unfold Path.turns at turned
  rw [turned, List.foldl_append, outer] at inner
  rw [List.append_nil, inner] at led
  have below : directory = root ++ more := congrArg Path.Place.names led
  obtain ⟨⟨name, content⟩, shown⟩ := Option.isSome_iff_exists.1 chosen
  rw [(source_in_eq_some_iff.1 shown).1, below, List.append_assoc]
  exact List.prefix_append _ _

theorem stays_within_of_within (within : ∀ root dir, packageDir? root module package = some dir →
    root.place.Within dir.place) : Path.StaysWithin 0 (turnsBelow module package) := by
  by_cases project : isProjectPackage module package = true
  · -- A root with a name that the package does not mention is left as soon as the way goes up.
    obtain ⟨fresh, named, absent⟩ := Path.exists_is_entry_name
      ((turnsBelow module package).filterMap Path.Component.name?)
    have unnamed : .name fresh ∉ turnsBelow module package :=
      fun member => absent (List.mem_filterMap.2 ⟨_, member, rfl⟩)
    let root : Path := (Path.mk "/").join ⟨fresh⟩
    have start : root.place = ⟨true, 0, [fresh]⟩ := by
      have turned : root.turns = [.name fresh] := by
        rw [Path.turns_join named.2, Path.component_of_is_normal_part named.1, String.ofList_toList]
        rfl
      rw [Path.place, turned, Path.is_absolute_join named.2]
      rfl
    rw [← package_dir_is_some root] at project
    obtain ⟨dir, found⟩ := Option.isSome_iff_exists.1 project
    have inside := (within root dir found).2.2
    rw [place_of_package_dir found, start] at inside
    exact Path.Place.stays_within_of_mem_names unnamed (inside.subset List.mem_cons_self)
  · have nothing : belowModule? module package = none := by
      simp only [isProjectPackage, Bool.or_eq_true, not_or, Bool.not_eq_true] at project
      simpa using project.2
    rw [turnsBelow, nothing]
    exact Path.stays_within_nil 0

/-- A package stays in its projects exactly when what follows the module path never goes up more
often than down. -/
theorem contained_iff :
    Contained module package ↔ Path.StaysWithin 0 (turnsBelow module package) := by
  constructor
  · intro contained
    exact stays_within_of_within contained.within
  · intro stays
    exact ⟨fun _ _ found => within_of_package_dir stays found,
      fun _ _ same found _ opens => prefix_of_opens stays same found opens⟩

end

/-- A package whose points leave no more than they have entered. -/
theorem contained_detour : Contained "m" "m/a/./../b" :=
  contained_iff.2 (by decide +kernel)

def importingContent : List Text.Glyph :=
  Text.Glyph.ofString "package p\n\nimport x \"m/../x\"\n"

def strayContent : List Text.Glyph :=
  Text.Glyph.ofString "package x\n\ntype T struct \x7b\x7d\n"

def strayProject : Project where
  tree := ⟨[(["p"], .directory), (["p", "a.go"], .file importingContent false),
    (["x"], .directory), (["x", "t.go"], .file strayContent false)], by decide⟩
  root := ⟨"/p"⟩
  module := "m"
  includeTests := false

/-- The imported package leads out of the project, and a type is found in a file there. -/
theorem not_contained_stray :
    (Go.SourceFile.ofSource? importingContent).map (·.imports) = some [⟨some "x", "m/../x"⟩] ∧
      packageDir? strayProject.root strayProject.module "m/../x" = some ⟨"/p/../x"⟩ ∧
        ¬ strayProject.root.place.Within (Path.mk "/p/../x").place ∧
          (∃ entry, strayProject.Opens "m/../x" entry ∧ ¬ ["p"] <+: entry.1) ∧
            ((Resolver.ask strayProject .initial ⟨"m/../x", "T"⟩).1.toOption.join.map (·.file)) =
              some ⟨"/p/../x/t.go"⟩ := by
  have leads : packageDir? strayProject.root strayProject.module "m/../x" = some ⟨"/p/../x"⟩ := by
    decide +kernel
  have located : strayProject.tree.directory? ⟨"/p/../x"⟩ = some ["x"] := by decide +kernel
  have opened : strayProject.Opens "m/../x" (["x", "t.go"], .file strayContent false) :=
    ⟨_, _, leads, located, by simp [strayProject], by decide +kernel⟩
  exact ⟨by decide +kernel, leads, by decide +kernel, ⟨_, opened, by decide⟩, by decide +kernel⟩

end EndpointAtlas
