import EndpointAtlas.Proofs.Go.DeclaredNames
import EndpointAtlas.Proofs.Registration.References

/-!
The types that a schema mentions are called by names of Go, wherever in the type of a declaration
they stand. Only types that a schema enters have to be followed through the grammar.
-/

namespace EndpointAtlas

namespace Go

open EndpointAtlas.Go.Parser Lexeme

def TypeExpr.shortName : TypeExpr → String
  | .ident name => name
  | .qualified _ name => name
  | _ => ""

/-- Whether the types that the schema of a type enters are called by names. -/
def CallsNames (type : TypeExpr) : Prop := ∀ named, Mentions type named → IsName named.shortName

namespace CallsNames

theorem of_silent {type : TypeExpr} (silent : ∀ named, ¬ Mentions type named) : CallsNames type :=
  fun named mentions => absurd mentions (silent named)

theorem other (text : String) :
    CallsNames (.other text) := of_silent fun _ mentions => nomatch mentions

theorem pointer {target : TypeExpr} (calls : CallsNames target) : CallsNames (.pointer target) :=
  fun named mentions => calls named (mentions_pointer_iff.1 mentions)

theorem slice {element : TypeExpr} (calls : CallsNames element) : CallsNames (.slice element) :=
  fun named mentions => calls named (mentions_slice_iff.1 mentions).2

theorem array {element : TypeExpr} (calls : CallsNames element) : CallsNames (.array element) :=
  fun named mentions => calls named (mentions_array_iff.1 mentions).2

theorem struct {fields : List Field} (calls : ∀ field ∈ fields, CallsNames field.type) :
    CallsNames (.struct fields) := by
  intro named mentions
  obtain ⟨field, member, -, inner⟩ := mentions_struct_iff.1 mentions
  exact calls field member named inner

theorem after_mark {type : TypeExpr} (next : Option Token) (calls : CallsNames type) :
    CallsNames (afterMark next type) := by
  unfold Go.afterMark
  split
  · split
    · exact other _
    · exact calls
  · exact calls

end CallsNames

theorem Reads.either {first second : Parser α} {holds : α → Prop} (one : Reads first holds)
    (other : Reads second holds) : Reads (either first second) holds := by
  intro tokens result rest read
  unfold Parser.either at read
  split at read
  · rename_i found taken
    obtain rfl := Option.some.inj read
    exact one tokens result rest taken
  · exact other tokens result rest read

theorem reads_type_name (depth : Nat) : Reads (typeName depth) CallsNames := by
  cases depth with
  | zero => rw [typeName]; exact Reads.failure
  | succ depth =>
      have ended : ∀ type, CallsNames type → Reads (do
          if ← skip (isMark "[") then
            let arguments ← commaList depth (typeExpr depth) "]"
            failUnless !arguments.isEmpty
            return (type, true)
          else return (type, false)) fun pair : TypeExpr × Bool => CallsNames pair.1 := by
        intro type calls
        apply Reads.later
        intro generic
        split
        · exact Reads.later fun _ => Reads.later fun _ => Reads.pure calls
        · exact Reads.pure calls
      rw [typeName]
      refine Reads.bind (Reads.with_tokens (show Reads _ fun pair => CallsNames pair.1 from ?_)) ?_
      · refine Reads.bind reads_name fun first isName => Reads.later fun qualified => ?_
        split
        · refine Reads.bind reads_name fun second isNameSecond => ended _ fun named mentions => ?_
          rw [mentions_qualified_iff.1 mentions]
          exact isNameSecond
        · refine ended _ fun named mentions => ?_
          rw [mentions_ident_iff.1 mentions]
          exact isName
      · rintro ⟨⟨type, isGeneric⟩, tokens⟩ calls
        apply Reads.pure
        split
        · exact .other _
        · exact calls

/-- The types of fields, and with them those of structs, are called by names if types less deep
are. -/
theorem reads_type_expr (depth : Nat) : Reads (typeExpr depth) CallsNames ∧
    Reads (fieldDecl depth) fun fields => ∀ field ∈ fields, CallsNames field.type := by
  induction depth with
  | zero => exact ⟨by rw [typeExpr]; exact Reads.failure, by rw [fieldDecl]; exact Reads.failure⟩
  | succ depth ih =>
      obtain ⟨types, fields⟩ := ih
      constructor
      · rw [typeExpr]
        apply Reads.later
        intro next
        split
        · split
          · exact reads_type_name depth
          · refine Reads.later fun _ => Reads.later fun next => ?_
            exact Reads.bind types fun target calls => Reads.pure (calls.after_mark next).pointer
          · refine Reads.later fun _ => Reads.later fun next =>
            Reads.bind types fun inner calls => ?_
            exact Reads.later fun _ => Reads.pure (calls.after_mark next)
          · have sized : Reads (do
                mark "]"
                return .array (← typeExpr depth)) CallsNames :=
              Reads.later fun _ => Reads.bind types fun element calls => Reads.pure calls.array
            refine Reads.later fun _ => Reads.later fun closed => ?_
            split
            · exact Reads.bind types fun element calls => Reads.pure calls.slice
            · refine Reads.later fun anyLength => ?_
              dsimp only
              split
              · exact sized
              · exact Reads.later fun _ => sized
          · refine Reads.later fun _ => Reads.later fun _ => ?_
            refine Reads.bind
              (Reads.sibling_list (fun _ _ => fields) depth _ _) fun lists calls => ?_
            refine Reads.pure (.struct fun field member => ?_)
            obtain ⟨list, listed, within⟩ := List.mem_flatten.1 member
            exact calls list listed field within
          · refine Reads.later fun _ => Reads.later fun brace => ?_
            split
            · refine Reads.later fun _ => Reads.later fun _ => Reads.pure ?_
              exact .of_silent fun _ mentions => nomatch mentions
            · exact Reads.failure
          · refine Reads.later fun _ => Reads.later fun _ => Reads.later fun _ => ?_
            refine Reads.later fun _ => Reads.later fun _ => Reads.pure ?_
            exact .of_silent fun _ mentions => nomatch mentions
          · exact Reads.later fun _ => Reads.pure (.other _)
        · exact Reads.failure
      · rw [fieldDecl]
        apply Reads.either
        · refine Reads.later fun names => Reads.bind types fun type calls => ?_
          refine Reads.later fun tag => Reads.later fun _ => Reads.later fun _ => Reads.pure ?_
          intro field member
          obtain ⟨_, -, rfl⟩ := List.mem_map.1 member
          exact calls
        · refine Reads.later fun isPointer =>
          Reads.bind (reads_type_name depth) fun type calls => ?_
          refine Reads.later fun tag => Reads.later fun _ => Reads.later fun _ => Reads.pure ?_
          intro field member
          rw [List.mem_singleton.1 member]
          dsimp only
          split
          · exact calls.pointer
          · exact calls

theorem reads_type_spec_type (depth : Nat) (before : List Sibling) (row : Nat) :
    Reads (typeSpec depth before row) fun spec => CallsNames spec.type := by
  cases depth with
  | zero => rw [typeSpec]; exact Reads.failure
  | succ depth =>
      have plain : Reads (do
          let _ ← skip (isMark "=")
          typeExpr depth) CallsNames := Reads.later fun _ => (reads_type_expr depth).1
      rw [typeSpec]
      apply Reads.later
      intro name
      refine Reads.bind (show Reads _ CallsNames from Reads.either ?_ ?_) fun type calls =>
        Reads.pure calls
      · exact Reads.bind plain fun type calls =>
          Reads.later fun _ => Reads.later fun _ => Reads.pure calls
      · exact Reads.bind (Reads.later fun _ => Reads.later fun _ => plain) fun type calls =>
          Reads.later fun _ => Reads.later fun _ => Reads.pure calls

end Go

open Go

/-- What the schema of a declaration mentions is called by names of Go. -/
theorem Project.Declared.calls_names {project : Project} {declaration : Declaration}
    (declared : project.Declared declaration) : CallsNames declaration.spec.type := by
  obtain ⟨file, -, source, read, member, -⟩ := declared
  exact SourceFile.holds_of_of_source (fun _ _ calls => calls) reads_type_spec_type read _ member

end EndpointAtlas
