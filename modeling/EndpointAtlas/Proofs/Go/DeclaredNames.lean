import EndpointAtlas.Go.SourceFile

/-!
The types that a source file declares have names of Go. A token of a name carries the proof that it
is one, so that only the readers through which a name passes have to be followed.
-/

namespace EndpointAtlas.Go

open EndpointAtlas.Go.Parser Lexeme

def Reads (reader : Parser α) (holds : α → Prop) : Prop :=
  ∀ tokens result rest, reader tokens = some (result, rest) → holds result

namespace Reads

theorem anything (reader : Parser α) : Reads reader fun _ => True := fun _ _ _ _ => trivial

protected theorem pure {value : α} {holds : α → Prop} (given : holds value) :
    Reads (pure value) holds := by
  intro tokens result rest read
  obtain ⟨rfl, -⟩ := Prod.mk.inj (Option.some.inj read)
  exact given

protected theorem failure {holds : α → Prop} : Reads (failure : Parser α) holds := by
  intro tokens result rest read
  exact absurd read (by simp [Alternative.failure, StateT.failure])

protected theorem bind {first : Parser α} {next : α → Parser β} {given : α → Prop}
    {holds : β → Prop} (before : Reads first given)
    (after : ∀ value, given value → Reads (next value) holds) : Reads (first >>= next) holds := by
  intro tokens result rest read
  change (first tokens).bind (fun pair => next pair.1 pair.2) = some (result, rest) at read
  obtain ⟨⟨value, between⟩, taken, continued⟩ := Option.bind_eq_some_iff.1 read
  exact after value (before tokens value between taken) between result rest continued

theorem later {first : Parser α} {next : α → Parser β} {holds : β → Prop}
    (after : ∀ value, Reads (next value) holds) : Reads (first >>= next) holds :=
  Reads.bind (anything first) fun value _ => after value

theorem with_tokens {reader : Parser α} {holds : α → Prop} (given : Reads reader holds) :
    Reads (withTokens reader) fun pair => holds pair.1 := by
  intro tokens result rest read
  obtain ⟨⟨value, after⟩, taken, equal⟩ := Option.map_eq_some_iff.1 read
  obtain ⟨rfl, -⟩ := Prod.mk.inj equal
  exact given tokens value after taken

/-- The items of a list of siblings are as the reader of items says. -/
theorem sibling_list {item : List Sibling → Nat → Parser α} {holds : α → Prop}
    (given : ∀ before row, Reads (item before row) holds) (depth : Nat) (close : String)
    (before : List Sibling) :
    Reads (siblingList depth item close before) fun items => ∀ each ∈ items, holds each := by
  induction depth generalizing before with
  | zero => exact Reads.failure
  | succ depth ih =>
      unfold Parser.siblingList
      apply later
      intro closed
      split
      · exact Reads.pure (by simp)
      · apply later
        intro next
        split
        · rename_i token
          refine Reads.bind (with_tokens (given _ token.row)) fun pair holdsFirst => ?_
          obtain ⟨first, taken⟩ := pair
          apply later
          intro ended
          split
          · refine Reads.bind (ih _) fun others holdsOthers => Reads.pure fun each member => ?_
            rcases List.mem_cons.1 member with rfl | other
            · exact holdsFirst
            · exact holdsOthers each other
          · refine later fun _ => Reads.pure fun each member => ?_
            rw [List.mem_singleton.1 member]
            exact holdsFirst
        · exact Reads.failure

end Reads

theorem reads_name : Reads Parser.name IsName := by
  intro tokens result rest read
  obtain ⟨⟨token, after⟩, taken, equal⟩ := Option.bind_eq_some_iff.1 read
  obtain ⟨rfl, -⟩ := Prod.mk.inj (Option.some.inj equal)
  unfold take at taken
  split at taken
  · rename_i head tail
    by_cases accepted : isName head = true
    · rw [if_pos accepted] at taken
      obtain ⟨rfl, -⟩ := Prod.mk.inj (Option.some.inj taken)
      exact head.named (by simpa [isName] using accepted)
    · rw [if_neg accepted] at taken
      cases taken
  · cases taken

theorem reads_type_spec (depth : Nat) (before : List Sibling) (row : Nat) :
    Reads (typeSpec depth before row) fun spec => IsName spec.name := by
  cases depth with
  | zero => rw [typeSpec]; exact Reads.failure
  | succ depth =>
      rw [typeSpec]
      refine Reads.bind reads_name fun name isName => ?_
      exact Reads.later fun type => Reads.pure isName

section

-- A property of type declarations that does not depend on their comments.
variable {holds : TypeSpec → Prop} (documented : ∀ spec doc, holds spec → holds { spec with doc })
  (given : ∀ depth before row, Reads (typeSpec depth before row) holds)

include documented given

theorem reads_type_decl (depth : Nat) (before : List Sibling) (row : Nat) :
    Reads (typeDecl depth before row) fun specs => ∀ spec ∈ specs, holds spec := by
  cases depth with
  | zero => rw [typeDecl]; exact Reads.failure
  | succ depth =>
      rw [typeDecl]
      refine Reads.later fun _ => Reads.later fun next => ?_
      split
      · rename_i token
        have noted : ∀ specs : List TypeSpec, (∀ spec ∈ specs, holds spec) →
            Reads (pure (specs.map fun spec => { spec with doc := spec.doc <|> docOf row before }))
              fun specs => ∀ spec ∈ specs, holds spec := by
          intro specs each
          apply Reads.pure
          intro spec member
          obtain ⟨original, within, rfl⟩ := List.mem_map.1 member
          exact documented original _ (each original within)
        apply Reads.later
        intro grouped
        split
        · exact Reads.bind (Reads.sibling_list (given depth) depth ")" _) noted
        · refine Reads.bind (given depth _ token.row) fun spec own => noted [spec] ?_
          intro each member
          rw [List.mem_singleton.1 member]
          exact own
      · exact Reads.failure

namespace SourceFile

theorem reads_declaration {file : SourceFile} (earlier : ∀ spec ∈ file.types, holds spec)
    (depth : Nat) (before : List Sibling) (row : Nat) :
    Reads (declaration depth file before row) fun file => ∀ spec ∈ file.types, holds spec := by
  unfold declaration
  apply Reads.later
  intro next
  split
  · split
    · exact Reads.later fun _ => Reads.pure earlier
    · exact Reads.later fun _ => Reads.pure earlier
    · refine Reads.bind (reads_type_decl documented given depth before row)
        fun specs each => Reads.pure ?_
      intro spec member
      rcases List.mem_append.1 member with old | own
      · exact earlier spec old
      · exact each spec own
    · exact Reads.later fun _ => Reads.pure earlier
    · exact Reads.failure
    · exact Reads.later fun _ => Reads.pure earlier
  · exact Reads.failure

theorem holds_of_declarations {depth remaining : Nat} {file result : SourceFile}
    {before : List Sibling} {tokens : List Token} (earlier : ∀ spec ∈ file.types, holds spec)
    (read : declarations depth remaining file before tokens = some result) :
    ∀ spec ∈ result.types, holds spec := by
  induction remaining generalizing file before tokens with
  | zero =>
      cases tokens with
      | nil =>
          obtain rfl := Option.some.inj read
          exact earlier
      | cons first rest => cases read
  | succ remaining ih =>
      cases tokens with
      | nil =>
          obtain rfl := Option.some.inj read
          exact earlier
      | cons first rest =>
          rw [declarations] at read
          obtain ⟨⟨⟨extended, taken⟩, after⟩, declared, continued⟩ :=
            Option.bind_eq_some_iff.1 read
          have next : ∀ spec ∈ extended.types, holds spec :=
            Reads.with_tokens (reads_declaration documented given earlier depth _ first.row)
              _ _ _ declared
          cases after with
          | nil =>
              obtain rfl := Option.some.inj continued
              exact next
          | cons terminator tail =>
              simp only at continued
              split at continued
              · exact ih next continued
              · cases continued

/-- What the reader of a type declaration ensures holds of all types of a file. -/
theorem holds_of_of_source {source : List Text.Glyph} {file : SourceFile}
    (read : ofSource? source = some file) : ∀ spec ∈ file.types, holds spec := by
  obtain ⟨tokens, -, parsed⟩ := Option.bind_eq_some_iff.1 read
  exact holds_of_declarations documented given (by simp) parsed

end SourceFile

end

namespace SourceFile

def HasNames (file : SourceFile) : Prop := ∀ spec ∈ file.types, IsName spec.name

theorem has_names_of_of_source {source : List Text.Glyph} {file : SourceFile}
    (read : ofSource? source = some file) : file.HasNames :=
  holds_of_of_source (fun _ _ isName => isName) reads_type_spec read

end SourceFile

end EndpointAtlas.Go
