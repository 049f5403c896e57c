import EndpointAtlas.Proofs.Params.Sources

/-!
What the last note on a parameter decides. Its source does not depend on earlier notes, but the
metadata of an earlier note stays where no later note has any. So the last note decides both exactly
where it has metadata or no note on the parameter has.
-/

namespace EndpointAtlas

open Go

theorem last_metadata_append (earlier later : List SourceNote) :
    lastMetadata? (earlier ++ later) = (lastMetadata? later).or (lastMetadata? earlier) := by
  unfold lastMetadata?
  rw [List.filterMap_append, List.getLast?_append]

theorem last_metadata_singleton (note : SourceNote) : lastMetadata? [note] = note.metadata := by
  unfold lastMetadata?
  cases given : note.metadata <;> simp [given]

theorem last_metadata_eq_none_iff {notes : List SourceNote} :
    lastMetadata? notes = none ↔ ∀ note ∈ notes, note.metadata = none := by
  unfold lastMetadata?
  rw [List.getLast?_eq_none_iff, List.filterMap_eq_nil_iff]

/-- The metadata that some notes leave is that of the last of them if it has any or none has. -/
theorem last_metadata_eq_last_iff {notes : List SourceNote} {last : SourceNote}
    (final : notes.getLast? = some last) : lastMetadata? notes = last.metadata ↔
      last.metadata.isSome = true ∨ ∀ note ∈ notes, note.metadata = none := by
  obtain ⟨earlier, rfl⟩ := List.getLast?_eq_some_iff.1 final
  rw [← last_metadata_eq_none_iff, last_metadata_append, last_metadata_singleton]
  cases last.metadata with
  | some metadata => simp
  | none => simp

/-- A note can be taken out of some notes without a change of the metadata that they leave if it has
none, if a later one has some, or if the earlier ones leave the same. -/
theorem last_metadata_remove_iff {before after : List SourceNote} {note : SourceNote} :
    lastMetadata? (before ++ after) = lastMetadata? (before ++ note :: after) ↔
      note.metadata = none ∨ (∃ later ∈ after, later.metadata.isSome = true) ∨
        lastMetadata? before = note.metadata := by
  have left : (∃ later ∈ after, later.metadata.isSome = true) ↔ lastMetadata? after ≠ none := by
    rw [ne_eq, last_metadata_eq_none_iff]
    simp [Option.isSome_iff_ne_none]
  rw [left, List.append_cons, last_metadata_append, last_metadata_append, last_metadata_append,
    last_metadata_singleton]
  cases lastMetadata? after with
  | some metadata => simp
  | none => cases note.metadata <;> simp

/-- Whether the metadata of a note is not seen among some notes before and after it: it has none, a
later note on its parameter has some, or the earlier ones leave the same. -/
def SourceNote.Covered (before after : List SourceNote) (note : SourceNote) : Prop :=
  note.metadata = none ∨
    (∃ later ∈ after, later.name = note.name ∧ later.metadata.isSome = true) ∨
      lastMetadata? (before.filter (·.name = note.name)) = note.metadata

section

variable {before after : List SourceNote} {note : SourceNote}

/-- Without a note on another parameter, or on one that a later note names, the source stays. -/
theorem source_told_remove (later : ∃ other ∈ after, other.name = note.name) (param : Parameter) :
    (param.told (before ++ after)).source = (param.told (before ++ note :: after)).source := by
  rw [Parameter.source_told, Parameter.source_told, List.append_cons before note after]
  simp only [List.filter_append, List.getLast?_append]
  by_cases named : note.name = param.name
  · obtain ⟨other, member, same⟩ := later
    have kept : other ∈ after.filter (·.name = param.name) :=
      List.mem_filter.2 ⟨member, by simp [same, named]⟩
    rw [List.getLast?_eq_some_getLast (List.ne_nil_of_mem kept)]
    rfl
  · simp [named]

theorem metadata_told_remove_iff {param : Parameter} (named : param.name = note.name)
    (unset : param.metadata = none) :
    (param.told (before ++ after)).metadata = (param.told (before ++ note :: after)).metadata ↔
      note.Covered before after := by
  have mine : (before ++ note :: after).filter (·.name = note.name) =
      before.filter (·.name = note.name) ++ note :: after.filter (·.name = note.name) := by
    simp
  rw [Parameter.metadata_told, Parameter.metadata_told, named, unset, Option.or_none,
    Option.or_none, mine, List.filter_append, last_metadata_remove_iff]
  simp [SourceNote.Covered, and_assoc]

theorem metadata_told_remove {param : Parameter} (other : param.name ≠ note.name) :
    (param.told (before ++ after)).metadata =
      (param.told (before ++ note :: after)).metadata := by
  rw [Parameter.metadata_told, Parameter.metadata_told]
  simp [Ne.symm other]

end

/-- Passes that end alike change the first parameter of each name that it has alike. -/
theorem exists_eq_of_change_firsts_eq {first second : Parameter → Parameter} {name : String}
    {known : List String} {params : List Parameter}
    (same : changeFirsts first known params = changeFirsts second known params)
    (fresh : name ∉ known) (member : name ∈ params.map (·.name)) :
    ∃ param ∈ params, param.name = name ∧ first param = second param := by
  induction params generalizing known with
  | nil => cases member
  | cons param rest ih =>
      rw [changeFirsts, changeFirsts, List.cons.injEq] at same
      by_cases named : param.name = name
      · have unknown : param.name ∉ known := named ▸ fresh
        rw [if_neg unknown, if_neg unknown] at same
        exact ⟨param, List.mem_cons_self, named, same.1⟩
      · have freshRest : name ∉ param.name :: known := by simp [fresh, Ne.symm named]
        have later : name ∈ rest.map (·.name) := by simpa [Ne.symm named] using member
        obtain ⟨other, among, called, equal⟩ := ih same.2 freshRest later
        exact ⟨other, List.mem_cons_of_mem _ among, called, equal⟩

theorem name_mem_of_of_argument {annotations : Annotations} {argument : String}
    {note : SourceNote} (written : argument ∈ annotations.get "@Param")
    (read : SourceNote.ofArgument? argument = some note) :
    ∃ plain ∈ annotations.paramNotes, plain.name = note.name := by
  obtain ⟨plain, first, known⟩ := Option.bind_eq_some_iff.1 read
  obtain ⟨source, -, rfl⟩ := Option.map_eq_some_iff.1 known
  exact ⟨plain, List.mem_filterMap.2 ⟨argument, written, first⟩, rfl⟩

namespace Assembly

theorem note_warning_eq_none {func argument : String} {note : SourceNote}
    (read : SourceNote.ofArgument? argument = some note) : noteWarning? func argument = none := by
  obtain ⟨plain, first, known⟩ := Option.bind_eq_some_iff.1 read
  obtain ⟨source, second, -⟩ := Option.map_eq_some_iff.1 known
  simp [noteWarning?, first, second]

/-- Parameters that their types have made are settled alike without a note that a later one
overrides exactly if the metadata of that note is covered. -/
theorem settle_params_remove_iff {before after : List SourceNote} {note : SourceNote}
    {typed : List Parameter} (pattern : String)
    (later : ∃ other ∈ after, other.name = note.name)
    (unset : ∀ param ∈ typed, param.metadata = none)
    (known : note.name ∈ typed.map (·.name)) :
    settleParams pattern (before ++ after) typed =
        settleParams pattern (before ++ note :: after) typed ↔ note.Covered before after := by
  have placed : ∀ param ∈ typed, (param.placed pattern).metadata = none := by
    intro param member
    rw [Parameter.metadata_placed, unset param member]
  constructor
  · intro same
    obtain ⟨param, member, named, equal⟩ :=
      exists_eq_of_change_firsts_eq same List.not_mem_nil known
    apply (metadata_told_remove_iff _ (placed param member)).1
    · exact congrArg Parameter.metadata equal
    · rw [Parameter.name_placed, named]
  · intro covered
    apply change_firsts_congr
    intro param member
    apply Parameter.told_eq_of
    · exact source_told_remove later _
    · by_cases named : (param.placed pattern).name = note.name
      · exact (metadata_told_remove_iff named (placed param member)).2 covered
      · exact metadata_told_remove named

section Runs

variable {scope : Scope} {context : Context} {func : FuncDecl} {pattern : String}
  {annotations fewer : Annotations} {state after : Assembly} {params : List Parameter}

/-- A classification that ends does so without any of its notes. -/
theorem exists_ok_of_sublist
    (part : (fewer.get "@Param").Sublist (annotations.get "@Param"))
    (ran : classifyParams scope context func pattern annotations state = .ok params after) :
    ∃ others last, classifyParams scope context func pattern fewer state = .ok others last := by
  obtain ⟨typed, between, made⟩ := exists_typed_of_classify_params ran
  have known := ((classify_params_yields made).of_ok ran).2.2
  cases again : classifyParams scope context func pattern fewer state with
  | ok others last => exact ⟨others, last, rfl⟩
  | error failure last =>
      obtain ⟨stray, found, -⟩ := (classify_params_yields made).of_error again
      have unknown := List.find?_some found
      have still := (part.filterMap _).subset (List.mem_of_find?_eq_some found)
      simp [known stray still] at unknown

/-- Without a note that a later one overrides, the classification ends in the same state, and with
the same parameters exactly if the metadata of the note is covered. -/
theorem classify_params_remove {before rest : List String} {argument : String} {note : SourceNote}
    (ran : classifyParams scope context func pattern annotations state = .ok params after)
    (written : annotations.get "@Param" = before ++ argument :: rest)
    (shorter : fewer.get "@Param" = before ++ rest)
    (read : SourceNote.ofArgument? argument = some note)
    (later : ∃ other ∈ rest.filterMap SourceNote.ofArgument?, other.name = note.name) :
    ∃ others, classifyParams scope context func pattern fewer state = .ok others after ∧
      (others = params ↔ note.Covered (before.filterMap SourceNote.ofArgument?)
        (rest.filterMap SourceNote.ofArgument?)) := by
  have part : (fewer.get "@Param").Sublist (annotations.get "@Param") := by
    rw [written, shorter]
    exact (List.sublist_cons_self argument rest).append_left before
  obtain ⟨others, last, again⟩ := exists_ok_of_sublist part ran
  obtain ⟨typed, between, made⟩ := exists_typed_of_classify_params ran
  have all := ((typed_params_typed context func.name func.params).of_ok made).2
  obtain ⟨rfl, rfl, known⟩ := (classify_params_yields made).of_ok ran
  obtain ⟨rfl, rfl, -⟩ := (classify_params_yields made).of_ok again
  have warned : (fewer.get "@Param").filterMap (noteWarning? func.name) =
      (annotations.get "@Param").filterMap (noteWarning? func.name) := by
    rw [written, shorter]
    simp [note_warning_eq_none read]
  have listed : note.name ∈ typed.map (·.name) := by
    obtain ⟨plain, among, called⟩ := name_mem_of_of_argument
      (written ▸ List.mem_append_right before List.mem_cons_self) read
    rw [map_name_of_typed all, ← called]
    exact known plain among
  refine ⟨_, warned ▸ again, ?_⟩
  rw [written, shorter, List.filterMap_append, List.filterMap_append,
    List.filterMap_cons_some read]
  exact settle_params_remove_iff pattern later (metadata_of_typed all) listed

/-- In every classification, the last note on a parameter decides its source. It decides its
metadata too exactly if it has some or no note on the parameter has any; and an earlier note on the
parameter can be taken out without a change exactly if its metadata is covered. Notes on a name do
not reach a later parameter of it. -/
theorem last_note_of_classify_params
    (ran : classifyParams scope context func pattern annotations state = .ok params after) :
    (∀ index name type, func.namedParams[index]? = some (name, type) →
      ∃ param, params[index]? = some param ∧ param.name = name ∧
        if name ∈ (func.namedParams.take index).map Prod.fst then
          TypedAs scope.contextType context after.resolver (name, type) param
        else ∀ note, (annotations.sourceNotes name).getLast? = some note →
          param.source = note.source ∧
            (param.metadata = note.metadata ↔ note.metadata.isSome = true ∨
              ∀ other ∈ annotations.sourceNotes name, other.metadata = none)) ∧
      ∀ (fewer : Annotations) before argument rest note,
        annotations.get "@Param" = before ++ argument :: rest →
        fewer.get "@Param" = before ++ rest →
        SourceNote.ofArgument? argument = some note →
        (∃ other ∈ rest.filterMap SourceNote.ofArgument?, other.name = note.name) →
          ∃ others, classifyParams scope context func pattern fewer state = .ok others after ∧
            (others = params ↔ note.Covered (before.filterMap SourceNote.ofArgument?)
              (rest.filterMap SourceNote.ofArgument?)) := by
  constructor
  · intro index name type held
    obtain ⟨param, ident, source, found, named, identified, shown, gives, settled⟩ :=
      (classified_of_ok ran).1.each index name type held
    refine ⟨param, found, named, ?_⟩
    by_cases repeated : name ∈ (func.namedParams.take index).map Prod.fst
    · rw [if_pos repeated] at settled ⊢
      obtain ⟨own, unset⟩ := settled
      refine ⟨ident, source, identified, gives, ?_⟩
      rw [← own, ← shown, ← named, ← unset]
    · rw [if_neg repeated] at settled ⊢
      obtain ⟨own, metadata⟩ := settled
      intro note final
      constructor
      · rw [own, settledSource, final]
      · rw [metadata]
        exact last_metadata_eq_last_iff final
  · exact fun _ _ _ _ _ => classify_params_remove ran

end Runs

def lister : FuncDecl :=
  ⟨"List", none, none, [⟨some "page", .ident "int"⟩, ⟨some "id", .ident "string"⟩]⟩

def staleNotes : Annotations :=
  .ofDoc (some ["// @Param id Header X-Id", "// @Param page Query", "// @Param id Query"])

def freshNotes : Annotations := .ofDoc (some ["// @Param page Query", "// @Param id Query"])

/-- A last note without metadata, under which that of an earlier note is kept. -/
theorem last_note_lister : ∃ params after,
    classifyParams handlerScope handlerContext lister "/x/{id}" staleNotes .initial =
      .ok params after ∧
    (∃ param, params[1]? = some param ∧ param.source = .query ∧ param.metadata ≠ none) ∧
    ∃ others, classifyParams handlerScope handlerContext lister "/x/{id}" freshNotes .initial =
      .ok others after ∧ others ≠ params := by
  have sources : ((classifyParams handlerScope handlerContext lister "/x/{id}"
      staleNotes).run' .initial).map (·.map (·.source)) = some [.query, .query] := by
    decide +kernel
  obtain ⟨params, after, ran, -⟩ := exists_ok_of_run' sources
  obtain ⟨decides, removes⟩ := last_note_of_classify_params ran
  refine ⟨params, after, ran, ?_, ?_⟩
  · obtain ⟨param, held, -, settled⟩ := decides 1 "id" (.ident "string") rfl
    rw [if_neg (by decide +kernel)] at settled
    obtain ⟨source, metadata⟩ := settled ⟨"id", .query, none⟩ (by decide +kernel)
    refine ⟨param, held, source, ?_⟩
    rw [ne_eq, metadata]
    decide +kernel
  · obtain ⟨others, again, same⟩ := removes freshNotes [] "id Header X-Id"
      ["page Query", "id Query"] ⟨"id", .header, some "X-Id"⟩ (by decide +kernel)
      (by decide +kernel) (by decide +kernel) ⟨⟨"id", .query, none⟩, by decide +kernel, rfl⟩
    refine ⟨others, again, ?_⟩
    rw [ne_eq, same, SourceNote.Covered]
    decide +kernel

/-- Neither the metadata of the last note nor the result without an earlier note. -/
theorem not_last_note_stale_notes :
    (∃ params after,
      classifyParams handlerScope handlerContext lister "/x/{id}" staleNotes .initial =
        .ok params after ∧
      ¬ ∀ param ∈ params, ∀ note, (staleNotes.sourceNotes param.name).getLast? = some note →
        param.source = note.source ∧ param.metadata = note.metadata) ∧
      (classifyParams handlerScope handlerContext lister "/x/{id}" staleNotes).run' .initial ≠
        (classifyParams handlerScope handlerContext lister "/x/{id}" freshNotes).run' .initial := by
  constructor
  · have shown : ((classifyParams handlerScope handlerContext lister "/x/{id}"
        staleNotes).run' .initial).map (·.getLast?) =
          some (some ⟨.query, "string", "id", some "X-Id"⟩) := by decide +kernel
    obtain ⟨params, after, ran, last⟩ := exists_ok_of_run' shown
    refine ⟨params, after, ran, fun wins => ?_⟩
    have decided := wins _ (List.mem_of_getLast? last) ⟨"id", .query, none⟩ (by decide +kernel)
    cases decided.2
  · decide +kernel

end Assembly

end EndpointAtlas
