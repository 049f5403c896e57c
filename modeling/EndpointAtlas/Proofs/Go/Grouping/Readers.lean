import EndpointAtlas.Proofs.Go.Grouping.SharedTypes
import EndpointAtlas.Proofs.Go.Grouping.Targets

/-!
Every place that can be grouped in another way is read in the same way when it is.
-/

namespace EndpointAtlas.Go

open EndpointAtlas.Go.Parser

variable {α : Type} {rows : Nat} {tokens edited : List Token}

theorem Alike.of_is_name {name : Token} (named : isName name = true)
    (noColon : ∀ token ∈ tokens.head?, isMark ":" token = false)
    (noColon' : ∀ token ∈ edited.head?, isMark ":" token = false) :
    Alike (name :: tokens) (name :: edited) := by
  have unseen {tokens : List Token} (noColon : ∀ token ∈ tokens.head?, isMark ":" token = false) :
      (tokens.head?.map (isMark ":")).getD false = false := by
    cases tokens with
    | nil => rfl
    | cons token tokens => exact noColon token rfl
  refine ⟨rfl, fun look => ?_⟩
  rw [sees_cons, sees_cons]
  cases look <;> simp [not_is_mark_of_is_name named, unseen noColon, unseen noColon']

theorem Alike.of_is_keyword {word : Token} {text : String} (shown : isKeyword text word = true)
    (tokens others : List Token) : Alike (word :: tokens) (word :: others) := by
  rw [is_keyword_iff] at shown
  refine .of_cons ?_ ?_ ?_ _ _ <;> simp [isName, isMark, shown]

theorem Reader.Reads.no_colon {found : TypeExpr} {rest : List Token}
    (reads : Reader.typeExpr.Reads tokens found rest) :
    ∀ token ∈ tokens.head?, isMark ":" token = false :=
  not_is_mark_of_type_expr (by decide) (reads _ le_rfl)

theorem InParens.no_colon {type wrapped : List Token} (parens : InParens type wrapped)
    (rest : List Token) : ∀ token ∈ (wrapped ++ rest).head?, isMark ":" token = false := by
  cases parens with
  | intro _ _ opens => simpa using not_is_mark opens (by decide)

theorem Copied.no_colon {type copy : List Token} (copied : Copied type copy) {rest : List Token}
    (noColon : ∀ token ∈ (type ++ rest).head?, isMark ":" token = false) (others : List Token) :
    ∀ token ∈ (copy ++ others).head?, isMark ":" token = false := by
  cases copied with
  | intro resembles =>
      simpa [isMark, resembles.kind, resembles.text] using noColon

theorem Regrouped.alike {reader : Reader α} (regrouped : Regrouped rows reader tokens edited) :
    Alike tokens edited := by
  cases regrouped with
  | pointer points | target points => exact .of_is_mark points (by decide) _ _
  | element leads =>
      cases leads with
      | slice opens | anyLength opens | array opens => exact .of_is_mark opens (by decide) _ _
      | map maps => exact .of_is_keyword maps _ _
  | key maps => exact .of_is_keyword maps _ _
  | param named variadic reads parens =>
      rcases variadic with rfl | ⟨dots, open_, rfl⟩
      · exact .of_is_name named reads.no_colon (parens.no_colon _)
      · have noColon := not_is_mark open_ (by decide : "..." ≠ ":")
        exact .of_is_name named (by simpa using noColon) (by simpa using noColon)
  | field listed reads parens =>
      cases listed with
      | last named => exact .of_is_name named reads.no_colon (parens.no_colon _)
      | more named divides =>
          have noColon := not_is_mark divides (by decide : "," ≠ ":")
          exact .of_is_name named (by simpa using noColon) (by simpa using noColon)
  | declared named leads reads parens =>
      cases leads with
      | definition => exact .of_is_name named reads.no_colon (parens.no_colon _)
      | «alias» shown =>
          have noColon := not_is_mark shown (by decide : "=" ≠ ":")
          exact .of_is_name named (by simpa using noColon) (by simpa using noColon)
  | generic named opens =>
      have noColon := not_is_mark opens (by decide : "[" ≠ ":")
      exact .of_is_name named (by simpa using noColon) (by simpa using noColon)
  | @params _ opening name comma _ second front type copy rest found _ _ named divides _ reads _
      copied =>
      have noColon := not_is_mark divides (by decide : "," ≠ ":")
      exact ((Alike.of_is_name named (by simpa using noColon)
        (copied.no_colon reads.no_colon _)).append front).cons opening
  | fields groups => exact .of_is_keyword groups _ _

/-- Where a place can be grouped in another way, it is read with the same result. -/
theorem Regrouped.carries {reader : Reader α} {depth : Nat}
    (regrouped : Regrouped rows reader tokens edited) (enough : enoughFor tokens.length ≤ depth)
    (enough' : enoughFor edited.length ≤ depth) :
    Carries rows (reader.read depth) tokens edited := by
  cases regrouped with
  | pointer points reads parens => exact carries_pointer parens points reads enough'
  | target points reads parens => exact carries_target parens points reads enough'
  | element leads reads parens => exact carries_element parens leads reads enough'
  | key maps opens reads closes parens => exact carries_key parens maps opens reads closes enough'
  | param named variadic reads parens ends =>
      exact carries_param parens reads named variadic ends enough'
  | field listed reads parens ends => exact carries_field parens reads listed ends enough'
  | declared named leads reads parens ends =>
      exact carries_declared parens reads named leads ends enough'
  | generic named opens counted refused leads reads parens ends =>
      exact carries_generic parens reads named opens counted refused leads ends enough'
  | params opens leads named divides named' reads ends copied divides' =>
      have noColon := not_is_mark divides (by decide : "," ≠ ":")
      exact carries_params opens leads named divides named' reads ends copied divides'
        (.of_is_name named (by simpa using noColon) (copied.no_colon reads.no_colon _))
          enough enough'
  | fields groups opens leads named divides listed reads ends copied copied' terminates =>
      have noColon := not_is_mark divides (by decide : "," ≠ ":")
      exact carries_fields groups opens leads named divides listed reads ends copied copied'
        terminates (.of_is_name named (by simpa using noColon) (copied.no_colon reads.no_colon _))
        enough enough'

end EndpointAtlas.Go
