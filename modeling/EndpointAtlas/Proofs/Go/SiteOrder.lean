import Mathlib.Data.List.Induction
import EndpointAtlas.Proofs.Go.Sites
import EndpointAtlas.Proofs.Go.TokenRows

/-!
The siblings before a site stand in the order of the source, on every level. The tokens of a file
are in order, and an item of a level ends on the row of the last of its tokens.
-/

namespace EndpointAtlas.Go

open EndpointAtlas.Go.Parser

def Site.Ordered (site : Site) : Prop := EndBy site.row site.before

section

variable {row : Nat} {token : Token} {rest : List Token} {before : List Sibling}

theorem row_after_single (stands : isTerminator token = false) :
    rowAfter row [token] = token.endRow := by
  simp [rowAfter, stands]

/-- Tokens end where the last of them does if it is no terminator. -/
theorem row_after_of_get_last_d (row : Nat) (stands : isTerminator (rest.getLastD token) = false) :
    rowAfter row (token :: rest) = (rest.getLastD token).endRow := by
  cases rest using List.reverseRecOn with
  | nil => exact row_after_single stands
  | append_singleton init last =>
      rw [List.getLastD_concat] at stands ⊢
      rw [← List.cons_append, row_after_append, row_after_single stands]

theorem is_terminator_get_last_d (balanced : Balanced (token :: rest)) :
    isTerminator (rest.getLastD token) = false := by
  cases rest using List.reverseRecOn with
  | nil => exact is_terminator_of_balanced_cons balanced
  | append_singleton init last =>
      rw [List.getLastD_concat]
      exact @is_terminator_of_closed [] (token :: init) last balanced

/-- Siblings stay in order with the comments of the token that follows them. -/
theorem ordered_site (stands : isTerminator token = false) (tokens : InOrder row (token :: rest))
    (ordered : EndBy row before) : (token.site before).Ordered := by
  have comments := ((in_order_cons stands).1 tokens).1
  unfold Site.Ordered Token.site siblingsBefore at *
  rw [← List.map_reverse] at comments ⊢
  exact comments.append ordered

theorem end_by_after_token (stands : isTerminator token = false)
    (tokens : InOrder row (token :: rest)) (ordered : EndBy row before) :
    EndBy (rowAfter row (token :: rest)) (siblingsBefore token before) := by
  obtain ⟨-, down, further⟩ := (in_order_cons stands).1 tokens
  refine EndBy.mono (ordered_site stands tokens ordered) (Nat.le_trans down ?_)
  simpa [rowAfter, stands] using row_after_le further

/-- So they do with what starts with the token and a terminator ends. -/
theorem end_by_ended {terminator : Token} (stands : isTerminator token = false)
    (last : isTerminator (rest.getLastD token) = false) (ends : isTerminator terminator = true)
    (tokens : InOrder row (token :: rest)) (ordered : EndBy row before) :
    EndBy (rowAfter row (token :: rest ++ [terminator]))
      (.declaration (rest.getLastD token).endRow :: siblingsBefore token before) := by
  have reached := row_after_of_get_last_d row last
  rw [row_after_append, reached]
  simp only [rowAfter, ends, if_true]
  exact ⟨Nat.le_refl _, reached ▸ end_by_after_token stands tokens ordered⟩

end

/-- The comments before an opening bracket are the first siblings inside it. -/
theorem end_by_opening {row : Nat} {prior : List Token} {keyword opening : Token}
    (opens : isTerminator opening = false) (tokens : InOrder row (prior ++ [keyword, opening])) :
    EndBy (rowAfter row (prior ++ [keyword, opening])) (siblingsBefore opening []) := by
  rw [List.append_cons, in_order_append] at tokens
  rw [List.append_cons, row_after_append]
  exact end_by_after_token opens tokens.2 trivial

/-- The siblings on a level are in order and end with the tokens before them, and so are those of
the declaration whose types are on the level. -/
theorem SiblingsAt.end_by {level : Level} {prior : List Token} {before : List Sibling}
    (reached : SiblingsAt level prior before) (tokens : InOrder 0 prior) :
    EndBy (rowAfter 0 prior) before ∧
      ∀ declaration, level = .types declaration → declaration.Ordered := by
  induction reached with
  | declarations => exact ⟨trivial, nofun⟩
  | types reached types opens ih =>
      refine ⟨end_by_opening (is_terminator_of_is_mark opens) tokens, ?_⟩
      obtain ⟨earlier, later⟩ := in_order_append.1 tokens
      rintro declaration ⟨⟩
      exact ordered_site (is_terminator_of_is_keyword types) later (ih earlier).1
  | elements prior interface opens =>
      exact ⟨end_by_opening (is_terminator_of_is_mark opens) tokens, nofun⟩
  | @next level prior rest before first terminator reached balanced ends ih =>
      obtain ⟨whole, -⟩ := in_order_append.1 tokens
      obtain ⟨earlier, item⟩ := in_order_append.1 whole
      obtain ⟨ordered, declared⟩ := ih earlier
      refine ⟨?_, declared⟩
      have stands := is_terminator_of_balanced_cons balanced
      rw [List.append_assoc, row_after_append]
      exact end_by_ended stands (is_terminator_get_last_d balanced) ends item ordered
  | @statement depth prior rest others before first terminator reached stands read ends ih =>
      obtain ⟨whole, -⟩ := in_order_append.1 tokens
      obtain ⟨earlier, item⟩ := in_order_append.1 whole
      obtain ⟨ordered, declared⟩ := ih earlier
      refine ⟨?_, declared⟩
      obtain ⟨taken, split, last⟩ := ends_stmt depth _ _ _ read
      obtain rfl := List.append_cancel_right split
      have final : rest.getLastD first ∈ (first :: rest).getLast? := by
        simp [List.getLast?_cons, List.getLastD_eq_getLast?]
      rw [List.append_assoc, row_after_append]
      exact end_by_ended stands (last _ final) ends item ordered

theorem Site.Ordered.or_else {site above : Site} (own : site.Ordered) (higher : above.Ordered) :
    (site.orElse above).Ordered := by
  unfold Site.orElse
  split
  · exact higher
  · exact own

theorem DeclaredAt.ordered {tokens : List Token} {name : String} {site : Site}
    (declared : DeclaredAt tokens name site) (ordered : InOrder 0 tokens) : site.Ordered := by
  cases declared with
  | function reached func bound named whole =>
      subst whole
      rw [List.append_assoc] at ordered
      obtain ⟨earlier, later⟩ := in_order_append.1 ordered
      exact ordered_site (is_terminator_of_is_keyword func) later (reached.end_by earlier).1
  | type reached type named whole =>
      subst whole
      obtain ⟨earlier, later⟩ := in_order_append.1 ordered
      have stands := is_terminator_of_is_keyword type
      obtain ⟨-, -, inner⟩ := (in_order_cons stands).1 later
      refine .or_else (ordered_site (is_terminator_of_is_name named) inner trivial) ?_
      exact ordered_site stands later (reached.end_by earlier).1
  | member reached named whole =>
      subst whole
      obtain ⟨earlier, later⟩ := in_order_append.1 ordered
      obtain ⟨before, declaration⟩ := reached.end_by earlier
      exact .or_else (ordered_site (is_terminator_of_is_name named) later before)
        (declaration _ rfl)
  | method reached named opens whole =>
      subst whole
      obtain ⟨earlier, later⟩ := in_order_append.1 ordered
      exact ordered_site (is_terminator_of_is_name named) later (reached.end_by earlier).1

end EndpointAtlas.Go
