import EndpointAtlas.Proofs.Go.Grouping.Readers

/-!
What a rule reads does not change when one place in it is grouped in another way.
-/

namespace EndpointAtlas.Go

open EndpointAtlas.Go.Parser

variable {α β : Type} {rows depth : Nat} {tokens edited : List Token}

namespace Carries

theorem congr {reader other : Parser α} (carries : Carries rows reader tokens edited)
    (same : other tokens = reader tokens) (same' : other edited = reader edited) :
    Carries rows other tokens edited := by
  intro value rest read
  rw [same] at read
  rw [same']
  exact carries value rest read

theorem cons {reader other : Parser α} {token : Token} (carries : Carries rows reader tokens edited)
    (same : ∀ tokens, other (token :: tokens) = reader tokens) :
    Carries rows other (token :: tokens) (token :: edited) := by
  intro value rest read
  rw [same] at read
  obtain ⟨again, ends⟩ := carries value rest read
  exact ⟨(same edited).trans again, ends.cons token⟩

/-- What is read by the first of two readers in one place is read by it in the other. -/
theorem either_first {first second : Parser α} {pair : α × List Token}
    (carries : Carries rows first tokens edited) (read : first tokens = some pair) :
    Carries rows (either first second) tokens edited := by
  obtain ⟨value, rest⟩ := pair
  obtain ⟨again, ends⟩ := carries value rest read
  exact .of_reads (either_of_first read) (either_of_first again) ends

end Carries

theorem Carries.further {first : Parser α} {next : α → Rule β}
    (carries : Carries rows first tokens edited) :
    Carries rows (first >>= fun value => (next value).run depth) tokens edited :=
  carries.bind (fun value => (next value).row_free_run fun reader => reader.row_free_read)
    fun value => (next value).shrinks_run depth

theorem Rule.Edited.alike {rule : Rule α} (edits : rule.Edited rows tokens edited) :
    Alike tokens edited := by
  induction edits with
  | head _ ih | sees _ ih | look _ ih | pass _ _ ih | inside _ _ ih | named _ _ ih | alone _ _ ih
  | field _ _ ih | method _ _ ih | constraint _ _ ih | plain _ _ ih => exact ih
  | skip _ _ ih | take _ _ ih => exact ih.cons _
  | after _ _ ih | afterList _ _ ih | item _ _ ih | item1 _ _ ih => exact ih.append _
  | sibling _ _ _ ih => exact (ih.append _).cons _
  | params _ _ _ _ _ ih => exact (ih.cons _).cons _
  | generic _ _ _ _ _ ih => exact ((ih.append _).cons _).cons _
  | here regrouped => exact regrouped.alike

theorem Rule.Edited.of_take {test : Test} {next : String → Rule α}
    (edits : (Rule.take test next).Edited rows tokens edited) :
    ∃ token others others', tokens = token :: others ∧ edited = token :: others' ∧
      (next token.text).Edited rows others others' := by
  cases edits with
  | take _ further => exact ⟨_, _, _, rfl, rfl, further⟩

theorem read_element (enough : enoughFor tokens.length ≤ depth) :
    Reader.element.read depth tokens =
      if startsMethod tokens then Rule.method.run depth tokens
      else (Rule.read .constraint).run depth tokens := by
  rw [Reader.element.read_eq_run tokens enough, Reader.body, Body.run, bind_apply]
  dsimp only [Option.bind_some]
  split <;> rfl

/-- A method stays one, since the places that can be grouped stand after its name. -/
theorem starts_method_of_edited (edits : Rule.method.Edited rows tokens edited) :
    startsMethod tokens = startsMethod edited := by
  obtain ⟨token, others, others', rfl, rfl, further⟩ := Rule.Edited.of_take edits
  rw [starts_method_cons, starts_method_cons, further.alike.head]

/-- A constraint that is read alike in another place does not come to look like a method there,
since in front of a parenthesis it is a name alone. -/
theorem starts_method_of_constraint {value : Option Element} {rest : List Token}
    (head : tokens.head? = edited.head?) (read : constraint depth tokens = some (value, rest))
    (again : constraint depth edited = some (value, lower rows rest))
    (other : startsMethod tokens = false) : startsMethod edited = false := by
  by_contra starts
  match edited, starts with
  | first :: opening :: others, starts =>
      obtain ⟨named, opens⟩ := Bool.and_eq_true_iff.1 (Bool.not_eq_false _ ▸ starts)
      obtain ⟨rfl, left⟩ := constraint_of_method named opens again
      obtain ⟨inner, rfl⟩ : ∃ inner, tokens = first :: inner := by
        cases tokens with
        | nil => cases head
        | cons token inner => exact ⟨inner, by rw [Option.some.inj head]⟩
      obtain rfl := constraint_ident named read
      cases inner with
      | nil => cases left
      | cons token inner =>
          obtain ⟨rfl, -⟩ := List.cons.inj left
          rw [starts_method_cons, named, List.head?_cons] at other
          cases other.symm.trans opens

/-- A rule that reads tokens reads them with a place in them grouped in another way. -/
theorem Rule.Edited.carries {rule : Rule α} (edits : rule.Edited rows tokens edited)
    (enough : enoughFor tokens.length ≤ depth) (enough' : enoughFor edited.length ≤ depth) :
    Carries rows (rule.run depth) tokens edited := by
  have fewer (front : List Token) {tokens : List Token}
      (enough : enoughFor (front ++ tokens).length ≤ depth) :
      enoughFor tokens.length ≤ depth := (enough_for_mono (by simp)).trans enough
  induction edits with
  | @head _ next tokens edited further ih =>
      refine (ih enough enough').congr rfl ?_
      rw [further.alike.head]
      rfl
  | @sees _ test next tokens edited further ih =>
      refine (ih enough enough').congr rfl ?_
      rw [further.alike.head]
      rfl
  | @look _ kind next tokens edited further ih =>
      refine (ih enough enough').congr rfl ?_
      rw [further.alike.look]
      rfl
  | @skip _ test next token tokens edited accepted further ih =>
      exact (ih (fewer [token] enough) (fewer [token] enough')).cons
        fun tokens => skip_bind_of_accepts accepted _
  | @pass _ test next tokens edited refused further ih =>
      refine (ih enough enough').congr (skip_bind_of_refuses refused _) (skip_bind_of_refuses ?_ _)
      rw [← further.alike.head]
      exact refused
  | @take _ test next token tokens edited accepted further ih =>
      exact (ih (fewer [token] enough) (fewer [token] enough')).cons
        fun tokens => take_bind_of_accepts accepted _
  | after reads further ih =>
      have read := reads depth enough
      exact .after read (Reader.local_read _ _ _ _ _ read _ further.alike)
        (ih (fewer _ enough) (fewer _ enough'))
  | afterList reads further ih =>
      have read := reads depth enough
      have read' := Rule.is_local _ _ _ _ read _ further.alike
      rw [Rule.run_list1] at read read'
      exact .after read read' (ih (fewer _ enough) (fewer _ enough'))
  | item leads further ih =>
      have within := ih (fewer _ enough) (fewer _ enough')
      exact (within.commas further.alike leads enough enough').further
  | item1 leads further ih =>
      have within := ih (fewer _ enough) (fewer _ enough')
      exact (within.commas1 further.alike leads enough depth).further
  | @sibling _ _ _ _ _ _ token _ _ _ opens leads further ih =>
      have enough := fewer [token] enough
      have enough' := fewer [token] enough'
      have within := ih (fewer _ enough) (fewer _ enough')
      exact (within.group further.alike leads opens enough enough').further
  | @inside _ _ reader rule next tokens edited follows further ih =>
      have runs {tokens : List Token} (enough : enoughFor tokens.length ≤ depth) :
          reader.read depth tokens = rule.run depth tokens := by
        rw [reader.read_eq_run tokens enough, follows]
        rfl
      exact ((ih enough enough').congr (runs enough) (runs enough')).further
  | named reads further ih =>
      exact (((ih enough enough').either_first (reads depth enough)).congr
        (Reader.paramItem.read_eq_run _ enough) (Reader.paramItem.read_eq_run _ enough')).further
  | alone reads further ih =>
      have read := reads depth enough
      have read' := (ih enough enough' _ _ read).1
      exact ((ih enough enough').congr
        ((Reader.paramItem.read_eq_run _ enough).trans
          (either_of_second (named_param_eq_none read)))
        ((Reader.paramItem.read_eq_run _ enough').trans
          (either_of_second (named_param_eq_none read')))).further
  | field reads further ih =>
      exact (((ih enough enough').either_first (reads depth enough)).congr
        (Reader.fieldDecl.read_eq_run _ enough) (Reader.fieldDecl.read_eq_run _ enough')).further
  | @method _ next tokens edited starts further ih =>
      have starts' : startsMethod edited = true := starts_method_of_edited further ▸ starts
      exact ((ih enough enough').congr ((read_element enough).trans (if_pos starts))
        ((read_element enough').trans (if_pos starts'))).further
  | @constraint _ next tokens edited starts further ih =>
      refine Carries.further fun value rest read => ?_
      rw [read_element enough, if_neg (ne_true_of_eq_false starts)] at read
      obtain ⟨again, ends⟩ := ih enough enough' value rest read
      have starts' : startsMethod edited = false := by
        rw [Rule.run_read] at read again
        exact starts_method_of_constraint further.alike.head read again starts
      refine ⟨?_, ends⟩
      rw [read_element enough', if_neg (ne_true_of_eq_false starts')]
      exact again
  | plain reads further ih =>
      exact (((ih enough enough').either_first (reads depth enough)).congr
        (Reader.typeSpec.read_eq_run _ enough) (Reader.typeSpec.read_eq_run _ enough')).further
  | @params _ next name opening tokens edited named opens refused refused' further ih =>
      have within := fewer [name, opening] enough
      have within' := fewer [name, opening] enough'
      have runs {tokens : List Token}
          (enough : enoughFor (name :: opening :: tokens).length ≤ depth)
          (refused : Rule.plainSpec.Refuses (name :: opening :: tokens)) :
          Reader.typeSpec.read depth (name :: opening :: tokens) =
            (Reader.typeParams.read depth >>= fun _ => (Rule.spec name.text).run depth) tokens :=
        (type_spec_of_generic enough (refused depth enough)).trans
          (generic_spec_cons named opens tokens)
      refine Carries.further fun spec rest read => ?_
      rw [runs enough refused, ← Rule.run_read] at read
      obtain ⟨again, ends⟩ := (ih within within').further spec rest read
      rw [Rule.run_read] at again
      exact ⟨(runs enough' refused').trans again, (ends.cons opening).cons name⟩
  | @generic _ next name opening params tokens edited named opens counted refused further ih =>
      have within := fewer (name :: opening :: params) enough
      have within' := fewer (name :: opening :: params) enough'
      refine Carries.further (carries_spec named opens counted refused ?_
        (fun token first _ => further.alike.head ▸ first) enough enough')
      have carries : Carries rows (Rule.plainType.run depth >>= fun type =>
          (do return ⟨name.text, none, ← Rule.ended .endsSpec type⟩ : Rule TypeSpec).run depth)
          tokens edited := (ih within within').further
      rwa [← Rule.run_bind] at carries
  | here regrouped => exact (regrouped.carries enough enough').further

end EndpointAtlas.Go
