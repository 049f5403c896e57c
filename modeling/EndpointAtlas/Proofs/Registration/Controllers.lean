import EndpointAtlas.Proofs.Registration.Endpoints

/-!
Which controllers there are. Every annotated struct is one under its name, in the package of its
file, and there are no others; endpoints are added to controllers without moving them.
-/

namespace EndpointAtlas

open Go

def Controls (files : List ScannedFile) (package name : String) : Prop :=
  ∃ file ∈ files, ∃ spec ∈ file.source.types,
    isController spec = true ∧ file.packagePath = package ∧ spec.name = name

def controllerSpecs (files : List ScannedFile) : List (ScannedFile × TypeSpec) :=
  (declaredTypes files).filter fun declared => isController declared.2

def Controller.bare (controller : Controller) : Controller :=
  { controller with resources := .empty }

/-- What a function becomes as an endpoint, if it is one and not at fault. -/
def Project.endpoint? (project : Project) (contextType : Ident)
    (declared : ScannedFile × FuncDecl) : Option Resource :=
  ((Annotations.ofDoc declared.2.doc).get "@Resource").head?.bind
    (project.resource? contextType declared.1 declared.2)

def placeOf (controllers : Table Controller) (name : String) : Option (String × String) :=
  (controllers.get? name).map fun controller => (controller.package, controller.name)

section

variable {project : Project} {contextType : Ident} {controllers after : Table Controller}
  {files : List ScannedFile} {package name : String}

/-- What a function does to the controllers: nothing, or it gives its owner an endpoint. -/
theorem with_endpoint_cases {declared : ScannedFile × FuncDecl}
    (changed : withEndpoint project contextType controllers declared = some after) :
    (isEndpoint declared.2 = false ∧ after = controllers) ∨
      (isEndpoint declared.2 = true ∧
        owns controllers declared.1 (receiverName declared.2) = true ∧
        ∃ resource, project.endpoint? contextType declared = some resource ∧
          after = withResource controllers (receiverName declared.2) declared.2.name resource) := by
  obtain ⟨file, func⟩ := declared
  unfold withEndpoint at changed
  unfold isEndpoint Project.endpoint?
  dsimp only at changed ⊢
  cases annotated : (Annotations.ofDoc func.doc).get "@Resource" with
  | nil =>
      rw [annotated] at changed
      exact .inl ⟨rfl, (Option.some.inj changed).symm⟩
  | cons argument others =>
      rw [annotated] at changed
      dsimp only at changed
      split at changed
      · rename_i owned
        obtain ⟨resource, made, rfl⟩ := Option.map_eq_some_iff.1 changed
        exact .inr ⟨rfl, owned, resource, made, rfl⟩
      · cases changed

theorem bare_with_resource (owner label : String) (resource : Resource) :
    ((withResource controllers owner label resource).get? name).map Controller.bare =
      (controllers.get? name).map Controller.bare := by
  unfold withResource
  rw [Table.get_modify]
  split
  · rename_i same
    subst same
    cases controllers.get? name <;> rfl
  · rfl

theorem bare_with_endpoint {declared : ScannedFile × FuncDecl}
    (changed : withEndpoint project contextType controllers declared = some after) :
    (after.get? name).map Controller.bare = (controllers.get? name).map Controller.bare := by
  rcases with_endpoint_cases changed with ⟨-, rfl⟩ | ⟨-, -, resource, -, rfl⟩
  · rfl
  · exact bare_with_resource _ _ resource

theorem bare_with_endpoints {declared : List (ScannedFile × FuncDecl)}
    (changed : declared.foldlM (withEndpoint project contextType) controllers = some after) :
    (after.get? name).map Controller.bare = (controllers.get? name).map Controller.bare := by
  induction declared generalizing controllers with
  | nil =>
      obtain rfl := Option.some.inj changed
      rfl
  | cons head rest ih =>
      rw [List.foldlM_cons] at changed
      obtain ⟨between, first, others⟩ := Option.bind_eq_some_iff.1 changed
      exact (ih others).trans (bare_with_endpoint first)

theorem place_of_eq_bare (controllers : Table Controller) (name : String) :
    placeOf controllers name = ((controllers.get? name).map Controller.bare).map fun controller =>
      (controller.package, controller.name) := by
  rw [Option.map_map]
  rfl

/-- What a type declaration does to the controllers: nothing, or it adds one of a free name. -/
theorem with_controller_cases {declared : ScannedFile × TypeSpec}
    (changed : withController controllers declared = some after) :
    (isController declared.2 = false ∧ after = controllers) ∨
      (isController declared.2 = true ∧ controllers.get? declared.2.name = none ∧
        after = controllers.insert declared.2.name (controllerOf declared.1 declared.2)) := by
  obtain ⟨file, spec⟩ := declared
  unfold withController at changed
  dsimp only at changed ⊢
  split at changed
  · rename_i annotated
    split at changed
    · cases changed
    · rename_i free
      exact .inr ⟨annotated, by simpa [Table.contains] using free, (Option.some.inj changed).symm⟩
  · rename_i unannotated
    exact .inl ⟨by simpa using unannotated, (Option.some.inj changed).symm⟩

theorem get_with_controller {declared : ScannedFile × TypeSpec} {controller : Controller}
    (changed : withController controllers declared = some after) :
    after.get? name = some controller ↔ controllers.get? name = some controller ∨
      isController declared.2 = true ∧ declared.2.name = name ∧
        controller = controllerOf declared.1 declared.2 := by
  rcases with_controller_cases changed with ⟨unannotated, rfl⟩ | ⟨annotated, absent, rfl⟩
  · simp [unannotated]
  · rw [Table.get_insert]
    by_cases same : name = declared.2.name
    · subst same
      simp [annotated, absent, eq_comm]
    · simp [same, Ne.symm same]

theorem get_with_controllers {declared : List (ScannedFile × TypeSpec)} {controller : Controller}
    (changed : declared.foldlM withController controllers = some after) :
    after.get? name = some controller ↔ controllers.get? name = some controller ∨
      ∃ item ∈ declared, isController item.2 = true ∧ item.2.name = name ∧
        controller = controllerOf item.1 item.2 := by
  induction declared generalizing controllers with
  | nil =>
      obtain rfl := Option.some.inj changed
      simp
  | cons head rest ih =>
      rw [List.foldlM_cons] at changed
      obtain ⟨between, first, others⟩ := Option.bind_eq_some_iff.1 changed
      rw [ih others, get_with_controller first]
      simp [or_assoc]

/-- Controllers that have been added have different names, which were free before. -/
theorem nodup_of_with_controllers {declared : List (ScannedFile × TypeSpec)}
    (changed : declared.foldlM withController controllers = some after) :
    ((declared.filter fun item => isController item.2).map (·.2.name)).Nodup ∧
      ∀ item ∈ declared, isController item.2 = true → controllers.get? item.2.name = none := by
  induction declared generalizing controllers with
  | nil => simp
  | cons head rest ih =>
      rw [List.foldlM_cons] at changed
      obtain ⟨between, first, others⟩ := Option.bind_eq_some_iff.1 changed
      obtain ⟨distinct, free⟩ := ih others
      rcases with_controller_cases first with ⟨unannotated, rfl⟩ | ⟨annotated, absent, rfl⟩
      · refine ⟨by simpa [List.filter_cons, unannotated] using distinct,
        fun item member known => ?_⟩
        rcases List.mem_cons.1 member with rfl | further
        · rw [unannotated] at known
          cases known
        · exact free item further known
      · have later : ∀ item ∈ rest, isController item.2 = true →
            item.2.name ≠ head.2.name ∧ controllers.get? item.2.name = none := by
          intro item member known
          have untaken := free item member known
          rw [Table.get_insert] at untaken
          split at untaken
          · cases untaken
          · rename_i other
            exact ⟨other, untaken⟩
        rw [List.filter_cons, if_pos annotated, List.map_cons, List.nodup_cons]
        refine ⟨⟨fun taken => ?_, distinct⟩, fun item member known => ?_⟩
        · obtain ⟨item, kept, same⟩ := List.mem_map.1 taken
          obtain ⟨member, known⟩ := List.mem_filter.1 kept
          exact (later item member known).1 same
        · rcases List.mem_cons.1 member with rfl | further
          · exact absent
          · exact (later item further known).2

/-- But for their endpoints, the controllers of some files are what the annotated structs in them
say. -/
theorem bare_controllers (held : controllers? project contextType files = some controllers)
    {header : Controller} : (controllers.get? name).map Controller.bare = some header ↔
      ∃ item ∈ controllerSpecs files, item.2.name = name ∧
        header = controllerOf item.1 item.2 := by
  obtain ⟨declared, types, funcs⟩ := Option.bind_eq_some_iff.1 held
  rw [bare_with_endpoints funcs, Option.map_eq_some_iff]
  simp only [get_with_controllers types, Table.get_empty, reduceCtorEq, false_or,
    controllerSpecs, List.mem_filter]
  constructor
  · rintro ⟨_, ⟨item, member, annotated, named, rfl⟩, rfl⟩
    exact ⟨item, ⟨member, annotated⟩, named, rfl⟩
  · rintro ⟨item, ⟨member, annotated⟩, named, rfl⟩
    exact ⟨_, ⟨item, member, annotated, named, rfl⟩, rfl⟩

theorem nodup_controller_specs (held : controllers? project contextType files = some controllers) :
    ((controllerSpecs files).map (·.2.name)).Nodup := by
  obtain ⟨declared, types, -⟩ := Option.bind_eq_some_iff.1 held
  exact (nodup_of_with_controllers types).1

theorem controls_iff : Controls files package name ↔
    ∃ item ∈ controllerSpecs files, item.1.packagePath = package ∧ item.2.name = name := by
  unfold Controls controllerSpecs declaredTypes
  simp only [List.mem_filter, List.mem_flatMap, List.mem_map]
  constructor
  · rintro ⟨file, listed, spec, within, annotated, place, named⟩
    exact ⟨(file, spec), ⟨⟨file, listed, spec, within, rfl⟩, annotated⟩, place, named⟩
  · rintro ⟨_, ⟨⟨file, listed, spec, within, rfl⟩, annotated⟩, place, named⟩
    exact ⟨file, listed, spec, within, annotated, place, named⟩

/-- The controllers of some files are the annotated structs in them, each in its package. -/
theorem place_of_controllers (held : controllers? project contextType files = some controllers)
    {label : String} : placeOf controllers name = some (package, label) ↔
      Controls files package name ∧ label = name := by
  have place : placeOf controllers name = some (package, label) ↔ ∃ header,
      (controllers.get? name).map Controller.bare = some header ∧
        (header.package, header.name) = (package, label) := by
    rw [place_of_eq_bare, Option.map_eq_some_iff]
  simp only [place, bare_controllers held, controls_iff]
  constructor
  · rintro ⟨_, ⟨item, member, named, rfl⟩, same⟩
    obtain ⟨rfl, rfl⟩ := Prod.mk.inj same
    exact ⟨⟨item, member, rfl, named⟩, named⟩
  · rintro ⟨⟨item, member, rfl, named⟩, rfl⟩
    exact ⟨_, ⟨item, member, named, rfl⟩, Prod.ext rfl named⟩

end

end EndpointAtlas
