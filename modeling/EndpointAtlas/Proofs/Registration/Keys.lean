import EndpointAtlas.Proofs.Registration.Reachable

/-!
The keys of types and responders. They are what is shown of identifiers, which tells apart all
identifiers whose names have no space; so every type and every responder of a document has a key of
its own, and a key can be read as the identifier that it shows.
-/

namespace EndpointAtlas

open Text Assembly

/-- Whether the keys are those of some declarations, each of which has a key of its own. -/
structure Keyed (holds : Declaration → Prop) (keys : List String) : Prop where
  listed : ∀ declaration, holds declaration → declaration.ident.display ∈ keys
  own : ∀ key ∈ keys, ∃! declaration, holds declaration ∧ declaration.ident.display = key

theorem Keyed.of_mem_iff {project : Project} {holds : Declaration → Prop} {keys : List String}
    (found : ∀ declaration, holds declaration → project.Found declaration)
    (mem_iff : ∀ key, key ∈ keys ↔ ∃ declaration, holds declaration ∧
      declaration.ident.display = key) : Keyed holds keys where
  listed := fun declaration held => (mem_iff _).2 ⟨declaration, held, rfl⟩
  own := fun key member => by
    obtain ⟨declaration, held, shown⟩ := (mem_iff key).1 member
    refine ⟨declaration, ⟨held, shown⟩, ?_⟩
    rintro other ⟨heldOther, shownOther⟩
    exact (found _ heldOther).eq_of_display (found _ held) (shownOther.trans shown.symm)

namespace Assembly.Complete

variable {project : Project} {contextType : Ident} {files : List ScannedFile} {state : Assembly}

theorem keyed_types (complete : Complete project contextType files state) :
    Keyed (Reachable project contextType files) state.document.withAliases.types.keys := by
  refine .of_mem_iff (fun _ => Reachable.found) fun key => ?_
  rw [← complete.contains_iff, ← Table.contains_iff_mem_keys]
  simp [Document.withAliases, Table.contains, Table.get_map_values]

theorem keyed_responders (complete : Complete project contextType files state) :
    Keyed (Answered project contextType files) state.document.withAliases.responders.keys := by
  refine .of_mem_iff (fun _ answered => answered.1.found) fun key => ?_
  rw [← complete.responds_iff, Table.contains_iff_mem_keys]
  rfl

end Assembly.Complete

/-- Exactly the texts that are not white space are read as identifiers, and what is shown of such an
identifier is the text without the white space around it. An identifier whose parts have no space
and no white space where a text is trimmed is read back. And what is shown tells apart the
identifiers whose names have no space, so that every type and every responder of a document has a
key of its own. -/
theorem idents_correspond :
    (∀ text, Ident.parse? text = none ↔ ∀ c ∈ text.toList, isBlank c = true) ∧
    (∀ text : String, (∃ c ∈ text.toList, isBlank c = false) → ∃ ident,
      Ident.parse? text = some ident ∧ ident.display = String.ofList (trim text.toList)) ∧
    (∀ ident : Ident, ident.Readable → Ident.parse? ident.display = some ident) ∧
    (∀ first second : Ident, ' ' ∉ first.name.toList → ' ' ∉ second.name.toList →
      first.display = second.display → first = second) ∧
    ∀ tree options document, (analyze tree options).1 = .ok document →
      ∃ files, options.scannedFiles tree = .ok files ∧
        Keyed (Reachable (options.project tree) options.contextType files) document.types.keys ∧
        Keyed (Answered (options.project tree) options.contextType files)
          document.responders.keys := by
  refine ⟨fun text => Ident.parse_eq_none_iff, fun text seen => ?_,
    fun _ => Ident.parse_display, fun _ _ => Ident.eq_of_display,
    fun tree options document succeeds => ?_⟩
  · cases read : Ident.parse? text with
    | none =>
        obtain ⟨c, member, visible⟩ := seen
        have blank := Ident.parse_eq_none_iff.1 read c member
        rw [visible] at blank
        cases blank
    | some ident => exact ⟨ident, rfl, Ident.display_of_parse read⟩
  · obtain ⟨files, after, scanned, complete, rfl⟩ := completes_of_analyze succeeds
    exact ⟨files, scanned, complete.keyed_types, complete.keyed_responders⟩

theorem idents_correspond_mutual_tree :
    Ident.parse? "\t " = none ∧
    (∃ ident, Ident.parse? "\u2003m A\t" = some ident ∧ ident.display = "m A") ∧
    Ident.parse? "m A" = some ⟨"m", "A"⟩ ∧
    (∀ ident : Ident, ' ' ∉ ident.name.toList → ident.display = "m A" → ident = ⟨"m", "A"⟩) ∧
    ∃ files, mutualOptions.scannedFiles mutualTree = .ok files ∧ ∃! declaration,
      Reachable (mutualOptions.project mutualTree) mutualOptions.contextType files declaration ∧
        declaration.ident.display = "m A" := by
  obtain ⟨fails, reads, readsBack, differ, keyed⟩ := idents_correspond
  refine ⟨(fails _).2 (by simp [isBlank]), reads _ ⟨'m', by decide⟩, readsBack ⟨"m", "A"⟩ ?_,
    fun ident whole shown => differ _ _ whole (by decide) shown, ?_⟩
  · exact ⟨by decide, by decide, by decide, by decide, by decide, by decide⟩
  · have keys : (analyze mutualTree mutualOptions).1.toOption.map (·.types.keys) =
        some ["m A", "m B"] := by decide +kernel
    cases succeeds : (analyze mutualTree mutualOptions).1 with
    | error failure =>
        rw [succeeds] at keys
        cases keys
    | ok document =>
        rw [succeeds] at keys
        have same : document.types.keys = ["m A", "m B"] := Option.some.inj keys
        obtain ⟨files, scanned, types, -⟩ := keyed _ _ document succeeds
        exact ⟨files, scanned, types.own "m A" (by simp [same])⟩

end EndpointAtlas
