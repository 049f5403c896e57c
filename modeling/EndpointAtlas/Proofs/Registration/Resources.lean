import Mathlib.Data.List.Dedup
import EndpointAtlas.Document.Report
import EndpointAtlas.Proofs.Registration.Controllers
import EndpointAtlas.Proofs.Registration.Order

/-!
Which endpoints there are in the end. An endpoint stands under the name of its function at the
controller that its receiver names, and of two that would stand in one place the later one counts.
So there are as many as there are places, and one for each annotated function exactly where no two
of them share a place.
-/

namespace EndpointAtlas

open Go

def endpoints (files : List ScannedFile) : List (ScannedFile × FuncDecl) :=
  (declaredFuncs files).filter fun declared => isEndpoint declared.2

/-- Where the endpoint of a function stands: at its controller and under its name. -/
def placeIn (declared : ScannedFile × FuncDecl) : String × String :=
  (receiverName declared.2, declared.2.name)

def endpointAt? (controllers : Table Controller) (place : String × String) : Option Resource :=
  (controllers.get? place.1).bind fun controller => controller.resources.get? place.2

section

variable {project : Project} {contextType : Ident} {controllers after : Table Controller}
  {files : List ScannedFile} {place : String × String}

theorem endpoint_at_with_resource {file : ScannedFile} {owner label : String}
    (owned : owns controllers file owner = true) (resource : Resource) :
    endpointAt? (withResource controllers owner label resource) place =
      if place = (owner, label) then some resource else endpointAt? controllers place := by
  obtain ⟨name, title⟩ := place
  unfold endpointAt? withResource
  rw [Table.get_modify]
  by_cases same : name = owner
  · subst same
    unfold owns at owned
    cases held : controllers.get? name with
    | none => simp [held] at owned
    | some controller => simp [Table.get_insert]
  · simp [same]

theorem endpoint_at_with_endpoint {declared : ScannedFile × FuncDecl}
    (changed : withEndpoint project contextType controllers declared = some after) :
    endpointAt? after place =
      if isEndpoint declared.2 = true ∧ placeIn declared = place then
        project.endpoint? contextType declared
      else endpointAt? controllers place := by
  rcases with_endpoint_cases changed with ⟨silent, rfl⟩ | ⟨annotated, owned, resource, made, rfl⟩
  · simp [silent]
  · rw [endpoint_at_with_resource owned, made]
    simp [annotated, placeIn, eq_comm]

/-- In each place stands the last of the endpoints that go there. -/
theorem endpoint_at_with_endpoints {declared : List (ScannedFile × FuncDecl)}
    (changed : declared.foldlM (withEndpoint project contextType) controllers = some after) :
    endpointAt? after place =
      match (declared.filter fun item => isEndpoint item.2 && placeIn item = place).getLast? with
      | some last => project.endpoint? contextType last
      | none => endpointAt? controllers place := by
  induction declared generalizing controllers with
  | nil =>
      obtain rfl := Option.some.inj changed
      rfl
  | cons head rest ih =>
      rw [List.foldlM_cons] at changed
      obtain ⟨between, first, others⟩ := Option.bind_eq_some_iff.1 changed
      rw [ih others, endpoint_at_with_endpoint first, List.filter_cons]
      by_cases here : isEndpoint head.2 = true ∧ placeIn head = place
      · have kept : (isEndpoint head.2 && decide (placeIn head = place)) = true := by
          simpa using here
        rw [if_pos here, if_pos kept, List.getLast?_cons]
        cases (rest.filter _).getLast? <;> rfl
      · have passed : ¬ (isEndpoint head.2 && decide (placeIn head = place)) = true := by
          simpa using here
        rw [if_neg here, if_neg passed]

theorem owns_eq (file : ScannedFile) (name : String) : owns controllers file name =
    (placeOf controllers name).any fun place => place.1 = file.packagePath := by
  unfold owns placeOf
  cases controllers.get? name <;> rfl

/-- Every endpoint has its owner, which no later endpoint takes from it, and is not at fault. -/
theorem owned_of_with_endpoints {declared : List (ScannedFile × FuncDecl)}
    (changed : declared.foldlM (withEndpoint project contextType) controllers = some after)
    {item : ScannedFile × FuncDecl} (member : item ∈ declared)
    (annotated : isEndpoint item.2 = true) :
    owns after item.1 (receiverName item.2) = true ∧
      (project.endpoint? contextType item).isSome = true := by
  induction declared generalizing controllers with
  | nil => cases member
  | cons head rest ih =>
      rw [List.foldlM_cons] at changed
      obtain ⟨between, first, others⟩ := Option.bind_eq_some_iff.1 changed
      rcases List.mem_cons.1 member with rfl | later
      · rcases with_endpoint_cases first with ⟨silent, -⟩ | ⟨-, owned, resource, made, -⟩
        · rw [silent] at annotated
          cases annotated
        · refine ⟨?_, Option.isSome_iff_exists.2 ⟨resource, made⟩⟩
          rw [owns_eq, place_of_eq_bare, bare_with_endpoints others, bare_with_endpoint first,
            ← place_of_eq_bare, ← owns_eq]
          exact owned
      · exact ih others later

theorem endpoint_at_with_controllers {declared : List (ScannedFile × TypeSpec)}
    (changed : declared.foldlM withController .empty = some after) :
    endpointAt? after place = none := by
  unfold endpointAt?
  cases held : after.get? place.1 with
  | none => rfl
  | some controller =>
      rcases (get_with_controllers changed).1 held with nothing | ⟨item, -, -, -, rfl⟩
      · cases nothing
      · rfl

theorem endpoint_at_controllers (held : controllers? project contextType files = some controllers) :
    endpointAt? controllers place =
      ((endpoints files).filter fun item => placeIn item = place).getLast?.bind
        (project.endpoint? contextType) := by
  obtain ⟨declared, types, funcs⟩ := Option.bind_eq_some_iff.1 held
  rw [endpoint_at_with_endpoints funcs, endpoint_at_with_controllers types, endpoints,
    List.filter_filter]
  simp only [Bool.and_comm]
  split
  · rename_i last found
    rw [found]
    rfl
  · rename_i empty
    rw [empty]
    rfl

theorem owned_of_controllers (held : controllers? project contextType files = some controllers)
    {item : ScannedFile × FuncDecl} (member : item ∈ endpoints files) :
    owns controllers item.1 (receiverName item.2) = true ∧
      (project.endpoint? contextType item).isSome = true := by
  obtain ⟨declared, types, funcs⟩ := Option.bind_eq_some_iff.1 held
  obtain ⟨listed, annotated⟩ := List.mem_filter.1 member
  exact owned_of_with_endpoints funcs listed annotated

theorem is_some_endpoint_at_iff (held : controllers? project contextType files = some controllers) :
    (endpointAt? controllers place).isSome = true ↔ place ∈ (endpoints files).map placeIn := by
  rw [endpoint_at_controllers held, List.mem_map]
  cases found : ((endpoints files).filter fun item => placeIn item = place).getLast? with
  | none =>
      have nobody := List.getLast?_eq_none_iff.1 found
      simp only [Option.bind_none, Option.isSome_none, Bool.false_eq_true, false_iff]
      rintro ⟨item, member, here⟩
      have kept : item ∈ (endpoints files).filter fun item => placeIn item = place :=
        List.mem_filter.2 ⟨member, decide_eq_true here⟩
      rw [nobody] at kept
      cases kept
  | some last =>
      obtain ⟨member, here⟩ := List.mem_filter.1 (List.mem_of_getLast? found)
      simp only [Option.bind_some, (owned_of_controllers held member).2, true_iff]
      exact ⟨last, member, of_decide_eq_true here⟩

end

def placesOf (controllers : Table Controller) : List (String × String) :=
  controllers.entries.flatMap fun entry => entry.2.resources.keys.map (entry.1, ·)

theorem Table.nodup_keys {α : Type} (table : Table α) : table.keys.Nodup := by
  refine List.pairwise_map.2 (table.increasing.imp fun {first second} below same => ?_)
  exact String.lt_irrefl _ (same ▸ below)

theorem mem_places_of_iff {controllers : Table Controller} {place : String × String} :
    place ∈ placesOf controllers ↔ (endpointAt? controllers place).isSome = true := by
  obtain ⟨owner, label⟩ := place
  unfold placesOf endpointAt?
  simp only [List.mem_flatMap, List.mem_map, Prod.mk.injEq]
  constructor
  · rintro ⟨entry, member, _, within, rfl, rfl⟩
    rw [Table.get_of_mem member]
    exact Table.contains_iff_mem_keys.2 within
  · intro present
    cases held : controllers.get? owner with
    | none => simp [held] at present
    | some controller =>
        rw [held] at present
        exact ⟨_, Table.mem_of_get held, label, Table.contains_iff_mem_keys.1 present, rfl, rfl⟩

theorem nodup_places_of (controllers : Table Controller) : (placesOf controllers).Nodup := by
  apply List.nodup_flatMap.2
  constructor
  · intro entry _
    exact (Table.nodup_keys _).map fun _ _ same => (Prod.mk.inj same).2
  · refine controllers.increasing.imp fun {first second} below place inFirst inSecond => ?_
    obtain ⟨_, -, rfl⟩ := List.mem_map.1 inFirst
    obtain ⟨_, -, same⟩ := List.mem_map.1 inSecond
    exact String.lt_irrefl _ ((Prod.mk.inj same).1 ▸ below)

theorem length_places_of (document : Document) :
    (placesOf document.controllers).length = document.resourceCount := by
  simp [placesOf, Document.resourceCount, Table.values, Table.keys, List.length_flatMap,
    List.map_map, Function.comp_def]

theorem resource_count_with_aliases (document : Document) :
    document.withAliases.resourceCount = document.resourceCount := by
  simp [Document.resourceCount, Document.withAliases, Table.values, Table.mapValues,
    List.length_flatMap, List.map_map, Function.comp_def, Controller.withAlias]

theorem nodup_places_iff (files : List ScannedFile) :
    ((endpoints files).map placeIn).Nodup ↔ (declaredFuncs files).Pairwise Apart := by
  unfold endpoints List.Nodup
  rw [List.pairwise_map, List.pairwise_filter]
  simp only [placeIn, ne_eq, Prod.mk.injEq, not_and]
  exact Iff.rfl

theorem length_dedup_eq_iff {α : Type} [DecidableEq α] {items : List α} :
    items.dedup.length = items.length ↔ items.Nodup :=
  ⟨fun same => List.dedup_eq_self.1 ((List.dedup_sublist items).eq_of_length same),
    fun nodup => by rw [List.dedup_eq_self.2 nodup]⟩

theorem length_places_of_controllers {project : Project} {contextType : Ident}
    {files : List ScannedFile} {controllers : Table Controller}
    (held : controllers? project contextType files = some controllers) :
    (placesOf controllers).length = ((endpoints files).map placeIn).dedup.length := by
  apply List.Perm.length_eq
  rw [List.perm_ext_iff_of_nodup (nodup_places_of controllers) (List.nodup_dedup _)]
  intro place
  rw [mem_places_of_iff, is_some_endpoint_at_iff held, List.mem_dedup]

/-- A document has one endpoint for each place, and one for each annotated function exactly where
no two of them are methods of one name with one receiver. -/
theorem resource_count_of_analyze {tree : Tree} {options : AnalysisOptions} {document : Document}
    {files : List ScannedFile} (succeeds : (analyze tree options).1 = .ok document)
    (scanned : options.scannedFiles tree = .ok files) :
    document.resourceCount = ((endpoints files).map placeIn).dedup.length ∧
      (document.resourceCount = (endpoints files).length ↔
        (declaredFuncs files).Pairwise Apart) := by
  obtain ⟨others, after, scannedOthers, complete, rfl⟩ := completes_of_analyze succeeds
  rw [scanned] at scannedOthers
  obtain rfl := Except.ok.inj scannedOthers
  have count : after.document.withAliases.resourceCount =
      ((endpoints files).map placeIn).dedup.length := by
    rw [resource_count_with_aliases, ← length_places_of,
      length_places_of_controllers complete.controllers]
  refine ⟨count, ?_⟩
  rw [count, ← nodup_places_iff, ← length_dedup_eq_iff, List.length_map]

/-- Two endpoints of one controller in two files, of different names. -/
theorem resource_count_scattered_tree : ∃ document files,
    (analyze scatteredTree mutualOptions).1 = .ok document ∧
      mutualOptions.scannedFiles scatteredTree = .ok files ∧ (endpoints files).length = 2 ∧
        document.resourceCount = (endpoints files).length := by
  have succeeds : (analyze scatteredTree mutualOptions).1.toOption.map (fun _ => true) =
      some true := by decide +kernel
  have apart : (mutualOptions.scannedFiles scatteredTree).toOption.map (fun files =>
      (decide ((declaredFuncs files).Pairwise Apart), (endpoints files).length)) =
        some (true, 2) := by decide +kernel
  obtain ⟨document, succeeds, -⟩ := exists_ok_of_to_option succeeds
  obtain ⟨files, scanned, shown⟩ := exists_ok_of_to_option apart
  obtain ⟨apart, count⟩ := Prod.mk.inj shown
  exact ⟨document, files, succeeds, scanned, count,
    (resource_count_of_analyze succeeds scanned).2.2 (of_decide_eq_true apart)⟩

def variantTree : Tree :=
  ⟨[(["a_linux.go"], .file (Text.Glyph.ofString ("package m\n// @Controller\n" ++
      "type C struct \x7b\x7d\n// @Resource GET /a\nfunc (c C) Get() \x7b\x7d\n")) false),
    (["b_windows.go"], .file (Text.Glyph.ofString ("package m\n// @Resource PUT /b\n" ++
      "func (c *C) Get() \x7b\x7d\n")) false)], by decide⟩

/-- There the later variant takes the place of the earlier one. -/
theorem resource_count_variant_tree : ∃ document files,
    (analyze variantTree mutualOptions).1 = .ok document ∧
      mutualOptions.scannedFiles variantTree = .ok files ∧
        document.resourceCount ≠ (endpoints files).length := by
  have counted : (analyze variantTree mutualOptions).1.toOption.map (·.resourceCount) =
      some 1 := by decide +kernel
  have listed : (mutualOptions.scannedFiles variantTree).toOption.map (fun files =>
      (endpoints files).length) = some 2 := by decide +kernel
  obtain ⟨document, succeeds, single⟩ := exists_ok_of_to_option counted
  obtain ⟨files, scanned, both⟩ := exists_ok_of_to_option listed
  refine ⟨document, files, succeeds, scanned, ?_⟩
  rw [single, both]
  decide

end EndpointAtlas
