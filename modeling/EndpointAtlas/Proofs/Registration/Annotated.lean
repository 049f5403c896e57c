import EndpointAtlas.Proofs.Aliases.Packages
import EndpointAtlas.Proofs.Annotations.Tags
import EndpointAtlas.Proofs.Go.DeclaredNames
import EndpointAtlas.Proofs.Registration.Receivers
import EndpointAtlas.Proofs.Registration.Resources

/-!
What annotations make of a project. Each annotated struct is a controller, each annotated function
belongs to one of its package, and the endpoints of a controller are those of its functions, with
what their annotations say.
-/

namespace EndpointAtlas

open Go

/-- An endpoint as the annotations of a function describe it. -/
structure Describes (project : Project) (contextType : Ident)
    (declared : ScannedFile × FuncDecl) (resource : Resource) : Prop where
  package : resource.package = declared.1.packagePath
  file : resource.file = declared.1.fileName
  name : resource.name = declared.2.name
  route : ∃ argument others extra,
    (Annotations.ofDoc declared.2.doc).get "@Resource" = argument :: others ∧
      (Text.words argument.toList).map String.ofList = resource.method :: resource.path :: extra
  params : project.params? contextType declared.1.context declared.2 resource.path
    (Annotations.ofDoc declared.2.doc) = some resource.params
  summary : ∀ text, resource.summary = some text ↔ text ≠ "" ∧
    ((Annotations.ofDoc declared.2.doc).get "@Summary").head? = some text
  details : ∀ text, resource.details = some text ↔ ∃ lines, lines ≠ [] ∧
    ((Annotations.ofDoc declared.2.doc).get "@Details").filter (!·.isEmpty) = lines ∧
      text = String.intercalate "\n" lines
  tags : resource.tags.map String.toList =
    ((Annotations.ofDoc declared.2.doc).get "@Tags").flatMap fun argument =>
      (argument.toList.splitOnP fun c => c == ',' || Text.isBlank c).filter (!·.isEmpty)

/-- A controller as the annotation of a struct describes it, with the endpoints of its functions. -/
structure Presents (project : Project) (contextType : Ident) (files : List ScannedFile)
    (declared : ScannedFile × TypeSpec) (controller : Controller) : Prop where
  package : controller.package = declared.1.packagePath
  file : controller.file = declared.1.packagePath ++ "/" ++ declared.1.fileName
  name : controller.name = declared.2.name
  base : ((Annotations.ofDoc declared.2.doc).get "@Controller").head? = some controller.base
  resources : ∀ label resource, controller.resources.get? label = some resource ↔
    ∃ handler ∈ endpoints files, HasReceiver handler.2 declared.2.name ∧ handler.2.name = label ∧
      Describes project contextType handler resource

section

variable (annotations : Annotations)

theorem nonempty_first_eq_some_iff {tag text : String} :
    annotations.nonemptyFirst? tag = some text ↔
      text ≠ "" ∧ (annotations.get tag).head? = some text := by
  unfold Annotations.nonemptyFirst? Annotations.first?
  rw [Option.filter_eq_some_iff]
  simp [and_comm]

theorem details_of_eq_some_iff {text : String} :
    detailsOf annotations = some text ↔ ∃ lines, lines ≠ [] ∧
      (annotations.get "@Details").filter (!·.isEmpty) = lines ∧
        text = String.intercalate "\n" lines := by
  unfold detailsOf
  dsimp only
  cases (annotations.get "@Details").filter (!·.isEmpty) with
  | nil => simp
  | cons line rest => simp [eq_comm]

theorem to_list_tags_of : (tagsOf annotations).map String.toList =
    (annotations.get "@Tags").flatMap fun argument =>
      (argument.toList.splitOnP fun c => c == ',' || Text.isBlank c).filter (!·.isEmpty) := by
  unfold tagsOf isTagSeparator
  rw [List.map_flatMap]
  simp only [List.map_map, Function.comp_def, String.toList_ofList, List.map_id']

end

theorem route_eq_some_iff {argument method path : String} :
    Project.route? argument = some (method, path) ↔
      ∃ extra, (Text.words argument.toList).map String.ofList = method :: path :: extra := by
  unfold Project.route?
  rcases (Text.words argument.toList).map String.ofList with _ | ⟨first, _ | ⟨second, rest⟩⟩ <;>
    simp

theorem endpoint_eq_some_iff {project : Project} {contextType : Ident}
    {declared : ScannedFile × FuncDecl} {resource : Resource} :
    project.endpoint? contextType declared = some resource ↔
      Describes project contextType declared resource := by
  obtain ⟨file, func⟩ := declared
  unfold Project.endpoint? Project.resource?
  constructor
  · intro made
    obtain ⟨argument, first, made⟩ := Option.bind_eq_some_iff.1 made
    obtain ⟨⟨method, path⟩, routed, made⟩ := Option.bind_eq_some_iff.1 made
    obtain ⟨params, typed, rfl⟩ := Option.map_eq_some_iff.1 made
    obtain ⟨others, arguments⟩ := List.head?_eq_some_iff.1 first
    obtain ⟨extra, words⟩ := route_eq_some_iff.1 routed
    exact {
      package := rfl
      file := rfl
      name := rfl
      route := ⟨argument, others, extra, arguments, words⟩
      params := typed
      summary := fun _ => nonempty_first_eq_some_iff _
      details := fun _ => details_of_eq_some_iff _
      tags := to_list_tags_of _ }
  · rintro ⟨package, inFile, name, ⟨argument, others, extra, arguments, words⟩, typed, summary,
      details, tags⟩
    have routed := route_eq_some_iff.2 ⟨extra, words⟩
    have summarized : (Annotations.ofDoc func.doc).nonemptyFirst? "@Summary" = resource.summary :=
      Option.ext fun text => (nonempty_first_eq_some_iff _).trans (summary text).symm
    have detailed : detailsOf (Annotations.ofDoc func.doc) = resource.details :=
      Option.ext fun text => (details_of_eq_some_iff _).trans (details text).symm
    have tagged : tagsOf (Annotations.ofDoc func.doc) = resource.tags :=
      List.map_injective_iff.2 (fun _ _ => String.toList_inj.1)
        ((to_list_tags_of _).trans tags.symm)
    dsimp only at package inFile name
    simp only [arguments, List.head?_cons, Option.bind_some, routed, typed, Option.map_some,
      summarized, detailed, tagged]
    rw [← package, ← inFile, ← name]

section

variable {project : Project} {contextType : Ident} {controllers : Table Controller}
  {files : List ScannedFile}

/-- Where no two endpoints share a place, each of them stands in its own. -/
theorem endpoint_at_eq_some_iff
    (held : controllers? project contextType files = some controllers)
    (apart : (declaredFuncs files).Pairwise Apart) {place : String × String}
    {resource : Resource} : endpointAt? controllers place = some resource ↔
      ∃ handler ∈ endpoints files, placeIn handler = place ∧
        Describes project contextType handler resource := by
  rw [endpoint_at_controllers held, Option.bind_eq_some_iff]
  simp only [endpoint_eq_some_iff]
  constructor
  · rintro ⟨last, found, describes⟩
    obtain ⟨member, here⟩ := List.mem_filter.1 (List.mem_of_getLast? found)
    exact ⟨last, member, of_decide_eq_true here, describes⟩
  · rintro ⟨handler, member, here, describes⟩
    have kept : handler ∈ (endpoints files).filter fun item => placeIn item = place :=
      List.mem_filter.2 ⟨member, decide_eq_true here⟩
    cases found : ((endpoints files).filter fun item => placeIn item = place).getLast? with
    | none =>
        rw [List.getLast?_eq_none_iff.1 found] at kept
        cases kept
    | some last =>
        obtain ⟨listed, there⟩ := List.mem_filter.1 (List.mem_of_getLast? found)
        have same : last = handler := List.inj_on_of_nodup_map ((nodup_places_iff files).2 apart)
          listed member ((of_decide_eq_true there).trans here.symm)
        exact ⟨last, rfl, same ▸ describes⟩

theorem presents_of_controllers
    (held : controllers? project contextType files = some controllers)
    (apart : (declaredFuncs files).Pairwise Apart)
    (names : ∀ file ∈ files, file.source.HasNames) {declared : ScannedFile × TypeSpec}
    (member : declared ∈ controllerSpecs files) :
    ∃ controller, controllers.get? declared.2.name = some controller ∧
      Presents project contextType files declared controller := by
  obtain ⟨controller, found, header⟩ := Option.map_eq_some_iff.1
    ((bare_controllers held).2 ⟨declared, member, rfl, rfl⟩)
  obtain ⟨listed, annotated⟩ := List.mem_filter.1 member
  obtain ⟨file, scanned, own⟩ := List.mem_flatMap.1 listed
  obtain ⟨spec, within, rfl⟩ := List.mem_map.1 own
  have named : Lexeme.IsName spec.name := names file scanned spec within
  refine ⟨controller, found, ?_⟩
  constructor
  · exact congrArg Controller.package header
  · exact congrArg Controller.file header
  · exact congrArg Controller.name header
  · have base : controller.base = ((Annotations.ofDoc spec.doc).first? "@Controller").getD "" :=
      congrArg Controller.base header
    have occurs := Annotations.contains_of_doc_iff.1 (Bool.and_eq_true_iff.1 annotated).2
    obtain ⟨first, rest, arguments⟩ := List.exists_cons_of_ne_nil occurs
    rw [base, Annotations.first?, arguments]
    rfl
  · intro label resource
    have stands : controller.resources.get? label =
        endpointAt? controllers (spec.name, label) := by
      simp only [endpointAt?, found, Option.bind_some]
    rw [stands, endpoint_at_eq_some_iff held apart]
    simp only [placeIn, Prod.mk.injEq, and_assoc, receiver_name_eq_iff named]

theorem has_receiver_of_controllers
    (held : controllers? project contextType files = some controllers)
    (names : ∀ file ∈ files, file.source.HasNames) {declared : ScannedFile × FuncDecl}
    (member : declared ∈ endpoints files) :
    ∃ name, HasReceiver declared.2 name ∧ Controls files declared.1.packagePath name := by
  have owned := (owned_of_controllers held member).1
  rw [owns_eq, Option.any_eq_true] at owned
  obtain ⟨⟨package, label⟩, place, same⟩ := owned
  obtain ⟨controls, -⟩ := (place_of_controllers held).1 place
  obtain ⟨file, listed, spec, within, -, -, named⟩ := id controls
  have isName : Lexeme.IsName (receiverName declared.2) := named ▸ names file listed spec within
  refine ⟨receiverName declared.2, (receiver_name_eq_iff isName).1 rfl, ?_⟩
  rw [← of_decide_eq_true same]
  exact controls

end

theorem ScannedFile.has_names {tree : Tree} {options : AnalysisOptions}
    {files : List ScannedFile} (scanned : options.scannedFiles tree = .ok files)
    {file : ScannedFile} (listed : file ∈ files) : file.source.HasNames := by
  obtain ⟨components, content, read⟩ := exists_scan_file scanned listed
  unfold scanFile at read
  split at read
  · cases read
  · rename_i source parsed
    obtain rfl := Except.ok.inj read
    exact SourceFile.has_names_of_of_source parsed

theorem Presents.with_alias {project : Project} {contextType : Ident} {files : List ScannedFile}
    {declared : ScannedFile × TypeSpec} {controller : Controller}
    (presents : Presents project contextType files declared controller) :
    Presents project contextType files declared controller.withAlias :=
  { presents with }

/-- Where the analysis succeeds and no two endpoints of one receiver have one name, there is one
controller for each annotated struct, which it describes; and each annotated function has a receiver
that names a controller of its package. -/
theorem controllers_of_analyze {tree : Tree} {options : AnalysisOptions} {document : Document}
    {files : List ScannedFile} (succeeds : (analyze tree options).1 = .ok document)
    (scanned : options.scannedFiles tree = .ok files)
    (apart : (declaredFuncs files).Pairwise Apart) :
    document.controllers.keys.Perm ((controllerSpecs files).map (·.2.name)) ∧
      (∀ declared ∈ controllerSpecs files, ∃ controller,
        document.controllers.get? declared.2.name = some controller ∧
          Presents (options.project tree) options.contextType files declared controller) ∧
      ∀ declared ∈ endpoints files, ∃ name, HasReceiver declared.2 name ∧
        Controls files declared.1.packagePath name := by
  obtain ⟨others, after, scannedOthers, complete, rfl⟩ := completes_of_analyze succeeds
  rw [scanned] at scannedOthers
  obtain rfl := Except.ok.inj scannedOthers
  have names : ∀ file ∈ files, file.source.HasNames := fun _ listed =>
    ScannedFile.has_names scanned listed
  have held := complete.controllers
  refine ⟨?_, fun declared member => ?_, fun declared member =>
    has_receiver_of_controllers held names member⟩
  · refine (List.perm_ext_iff_of_nodup (Table.nodup_keys _) (nodup_controller_specs held)).2
      fun name => ?_
    rw [← Table.contains_iff_mem_keys, Table.contains, Document.withAliases, Table.get_map_values,
      Option.isSome_map, ← Option.isSome_map (f := Controller.bare), Option.isSome_iff_exists]
    simp only [bare_controllers held, List.mem_map]
    constructor
    · rintro ⟨_, item, member, named, -⟩
      exact ⟨item, member, named⟩
    · rintro ⟨item, member, named⟩
      exact ⟨_, item, member, named, rfl⟩
  · obtain ⟨controller, found, presents⟩ := presents_of_controllers held apart names member
    refine ⟨controller.withAlias, ?_, presents.with_alias⟩
    simp [Document.withAliases, Table.get_map_values, found]

def catalogTree : Tree :=
  ⟨[(["a.go"], .file (Text.Glyph.ofString ("package m\n// @Resource GET /a now\n" ++
      "// @Summary Read\n// @Tags x,y z\nfunc (c *C[int]) Get() \x7b\x7d\n" ++
      "// @Resource PUT /a\n// @Details One\n// @Details Two\nfunc (c C) Put() \x7b\x7d\n"))
      false),
    (["b.go"], .file (Text.Glyph.ofString ("package m\n// @Controller /base\n" ++
      "type C struct \x7b\x7d\n")) false)], by decide⟩

theorem controllers_of_catalog_tree : ∃ document files,
    (analyze catalogTree mutualOptions).1 = .ok document ∧
      mutualOptions.scannedFiles catalogTree = .ok files ∧
        (declaredFuncs files).Pairwise Apart ∧ (endpoints files).length = 2 ∧
          document.controllers.keys.Perm ["C"] ∧ ∀ declared ∈ endpoints files, ∃ name,
            HasReceiver declared.2 name ∧ Controls files declared.1.packagePath name := by
  have succeeds : (analyze catalogTree mutualOptions).1.toOption.map (fun _ => true) =
      some true := by decide +kernel
  have listed : (mutualOptions.scannedFiles catalogTree).toOption.map (fun files =>
      (decide ((declaredFuncs files).Pairwise Apart), (endpoints files).length,
        (controllerSpecs files).map (·.2.name))) = some (true, 2, ["C"]) := by decide +kernel
  obtain ⟨document, succeeds, -⟩ := exists_ok_of_to_option succeeds
  obtain ⟨files, scanned, shown⟩ := exists_ok_of_to_option listed
  obtain ⟨apart, shown⟩ := Prod.mk.inj shown
  obtain ⟨count, names⟩ := Prod.mk.inj shown
  obtain ⟨keys, -, owners⟩ := controllers_of_analyze succeeds scanned (of_decide_eq_true apart)
  rw [names] at keys
  exact ⟨document, files, succeeds, scanned, of_decide_eq_true apart, count, keys, owners⟩

end EndpointAtlas
