import EndpointAtlas.Proofs.Go.Rules.Bounds
import EndpointAtlas.Proofs.Go.Rules.NamedItems

/-!
What readers see of the tokens that they leave: the next token, and whether a label or the word
`type` in parentheses follows. Tokens that look the same are left in the same way.
-/

namespace EndpointAtlas.Go

open EndpointAtlas.Go.Parser

variable {α β : Type}

/-- Whether two lists of tokens look the same to a reader that leaves them. -/
structure Alike (tokens others : List Token) : Prop where
  head : tokens.head? = others.head?
  look (look : Look) : look.sees tokens = look.sees others

namespace Alike

variable {token : Token} {tokens others : List Token}

theorem symm (alike : Alike tokens others) : Alike others tokens :=
  ⟨alike.head.symm, fun look => (alike.look look).symm⟩

theorem sees_cons (look : Look) (token : Token) (tokens : List Token) :
    look.sees (token :: tokens) =
      match look with
      | .guard => isMark "." token && Look.word.sees tokens
      | .word => isMark "(" token && (tokens.head?.map (isKeyword "type")).getD false
      | .label => isName token && (tokens.head?.map (isMark ":")).getD false := by
  cases look with
  | guard =>
      match tokens with
      | [] => simp [Look.sees]
      | [_] => simp [Look.sees]
      | _ :: _ :: _ => simp [Look.sees, Bool.and_assoc]
  | word => cases tokens <;> simp [Look.sees]
  | label => cases tokens <;> simp [Look.sees]

theorem cons (token : Token) (alike : Alike tokens others) :
    Alike (token :: tokens) (token :: others) := by
  refine ⟨rfl, fun look => ?_⟩
  rw [sees_cons, sees_cons]
  cases look <;> simp [alike.head, alike.look]

theorem append (front : List Token) (alike : Alike tokens others) :
    Alike (front ++ tokens) (front ++ others) := by
  induction front with
  | nil => exact alike
  | cons token front ih => exact ih.cons token

theorem of_cons (unnamed : isName token = false) (undotted : isMark "." token = false)
    (unopened : isMark "(" token = false) (tokens others : List Token) :
    Alike (token :: tokens) (token :: others) := by
  refine ⟨rfl, fun look => ?_⟩
  rw [sees_cons, sees_cons]
  cases look <;> simp [unnamed, undotted, unopened]

end Alike

/-- Whether what a reader does depends on what it leaves only as far as that can be seen. -/
def Local (reader : Parser α) : Prop :=
  ∀ front back value, reader (front ++ back) = some (value, back) →
    ∀ others, Alike back others → reader (front ++ others) = some (value, others)

/-- The tokens that two readers take one after the other. -/
theorem split_of_bind {first : Parser α} {next : α → Parser β} (shrinks : Shrinks first)
    (shrinks' : ∀ value, Shrinks (next value)) {front back : List Token} {value : β}
    (read : (first >>= next) (front ++ back) = some (value, back)) :
    ∃ one other found, front = one ++ other ∧
      first (one ++ (other ++ back)) = some (found, other ++ back) ∧
        next found (other ++ back) = some (value, back) := by
  obtain ⟨found, middle, taken, further⟩ := bind_eq_some.1 read
  obtain ⟨other, rfl⟩ := shrinks' _ _ _ _ further
  obtain ⟨one, same⟩ := shrinks _ _ _ taken
  rw [← List.append_assoc, List.append_cancel_right_eq] at same
  rw [← same, List.append_assoc] at taken
  exact ⟨one, other, found, same.symm, taken, further⟩

namespace Local

protected theorem pure (value : α) : Local (pure value) := by
  intro front back value read others alike
  obtain ⟨rfl, same⟩ := Prod.mk.inj (Option.some.inj read)
  obtain rfl : front = [] := by simpa using same
  rfl

protected theorem failure : Local (failure : Parser α) := by
  intro front back value read
  cases read

protected theorem bind {first : Parser α} {next : α → Parser β} (shrinks : Shrinks first)
    (shrinks' : ∀ value, Shrinks (next value)) (one : Local first)
    (other : ∀ value, Local (next value)) : Local (first >>= next) := by
  intro front back value read others alike
  obtain ⟨one', other', found, rfl, taken, further⟩ := split_of_bind shrinks shrinks' read
  rw [List.append_assoc]
  exact bind_eq_some.2 ⟨found, _, one _ _ _ taken _ (alike.append other'),
    other _ _ _ _ further _ alike⟩

protected theorem ite {condition : Bool} {one other : Parser α} (yes : Local one)
    (no : Local other) : Local (if condition then one else other) := by
  cases condition
  · exact no
  · exact yes

theorem of_peek {peek : List Token → α}
    (same : ∀ tokens others, Alike tokens others → peek tokens = peek others) :
    Local (fun tokens => some (peek tokens, tokens) : Parser α) := by
  intro front back value read others alike
  obtain ⟨rfl, rest⟩ := Prod.mk.inj (Option.some.inj read)
  obtain rfl : front = [] := by simpa using rest
  rw [List.nil_append, List.nil_append, same _ _ alike]

protected theorem next : Local next? := of_peek fun _ _ alike => alike.head

protected theorem sees (accept : Token → Bool) : Local (Parser.sees accept) :=
  of_peek fun _ _ alike => by rw [alike.head]

protected theorem take (accept : Token → Bool) : Local (Parser.take accept) := by
  intro front back token read others alike
  obtain ⟨same, accepted⟩ := take_eq_some.1 read
  obtain rfl : front = [token] := List.append_cancel_right same
  exact take_eq_some.2 ⟨rfl, accepted⟩

protected theorem skip (accept : Token → Bool) : Local (Parser.skip accept) := by
  intro front back skipped read others alike
  obtain ⟨rfl, token, same, accepted⟩ | ⟨rfl, same, refused⟩ := skip_eq_some read
  · obtain rfl : front = [token] := List.append_cancel_right same
    exact if_pos accepted
  · obtain rfl : front = [] := by simpa using same
    rw [alike.head] at refused
    cases others with
    | nil => rfl
    | cons token others => exact if_neg (by simp [refused token rfl])

protected theorem with_tokens {reader : Parser α} (local_ : Local reader) :
    Local (withTokens reader) := by
  intro front back pair read others alike
  obtain ⟨read, taken⟩ := with_tokens_eq_some.1 read
  refine with_tokens_eq_some.2 ⟨local_ _ _ _ read _ alike, ?_⟩
  simpa using taken

theorem exists_cons_of_append {taken rest others : List Token} {token last : Token}
    (same : taken ++ last :: rest = token :: others) :
    ∃ inner, ∀ more, taken ++ last :: more = token :: (inner ++ more) := by
  cases taken with
  | nil =>
      obtain ⟨rfl, -⟩ := List.cons.inj same
      exact ⟨[], fun more => rfl⟩
  | cons first taken =>
      obtain ⟨rfl, -⟩ := List.cons.inj same
      exact ⟨taken ++ [last], fun more => by simp⟩

section

variable {item : Parser α} (shrinks : Shrinks item) (local_ : Local item)

include shrinks local_

/-- Whatever is left after a list, its items see only what is in the list and what is left. -/
theorem listed {divides : Token → Bool} {close : String} {bound : Nat} {before : List Sibling}
    {tokens front back others : List Token} {found : List (Option (List String) × α)}
    (listed : Listed divides item close bound before tokens found back)
    (alike : ∀ token middle, divides token = true ∨ isMark close token = true →
      Alike (token :: (middle ++ back)) (token :: (middle ++ others)))
    (split : tokens = front ++ back) :
    Listed divides item close bound before (front ++ others) found others := by
  induction listed generalizing front with
  | @closed bound before token rest closes =>
      obtain rfl : front = [token] := (List.append_cancel_right split).symm
      exact .closed closes
  | @last bound before token last tail rest value stays read ends closes =>
      obtain ⟨taken, same⟩ := shrinks _ _ _ read
      have cut : front ++ rest = taken ++ [last] ++ rest := by simp [← split, ← same]
      obtain rfl := List.append_cancel_right cut
      rw [← same] at read
      have seen := local_ _ _ _ read _ (alike last [] (.inr closes))
      obtain ⟨inner, starts⟩ := exists_cons_of_append same
      rw [List.append_assoc, List.singleton_append, starts]
      exact .last stays (starts others ▸ seen) ends closes
  | @more bound before token last tail left rest value later stays read goes further ih =>
      obtain ⟨taken, same⟩ := shrinks _ _ _ read
      obtain ⟨middle, rfl⟩ := further.suffix shrinks
      have cut : front ++ rest = taken ++ last :: middle ++ rest := by simp [← split, ← same]
      obtain rfl := List.append_cancel_right cut
      rw [← same] at read
      have seen := local_ _ _ _ read _ (alike last middle (.inl goes))
      have rows := end_row_before_of_append same.symm
      obtain ⟨inner, starts⟩ := exists_cons_of_append same
      rw [List.append_assoc, List.cons_append, starts]
      rw [starts] at seen
      refine .more stays seen goes ?_
      rw [end_row_before_of_append (starts (middle ++ others)).symm, ← rows]
      exact ih alike rfl

protected theorem comma_list (bound : Nat) (close : String) :
    Local (commaList bound item close) := by
  intro front back values read others alike
  obtain ⟨found, listed, rfl⟩ := comma_list_eq_some shrinks read
  exact comma_list_of_listed shrinks (Local.listed shrinks local_ listed
    (fun token middle _ => (alike.append middle).cons token) rfl)

protected theorem comma_list1 (bound : Nat) : Local (commaList1 bound item) := by
  induction bound with
  | zero => exact .failure
  | succ bound ih =>
      have tail : Shrinks (commaList1 bound item) := shrinks.comma_list1 bound
      have longer (first : α) :
          Shrinks (commaList1 bound item >>= fun others => pure (first :: others)) :=
        .of_finds fun _ => .later tail.finds fun _ => .pure trivial
      refine .bind shrinks (fun first => ?_) local_ fun first => ?_
      · exact .of_finds fun _ => .later (.skip _) fun _ => .ite (longer first).finds (.pure trivial)
      · refine .bind (.of_finds fun _ => .skip _) (fun _ => ?_) (.skip _) fun _ => ?_
        · exact .of_finds fun _ => .ite (longer first).finds (.pure trivial)
        · refine .ite (.bind tail (fun _ => ?_) ih fun _ => .pure _) (.pure _)
          exact .of_finds fun _ => .pure trivial

protected theorem bracketed (opening closing : String) (bound : Nat) :
    Local (bracketed opening closing bound item) := by
  intro front back found read others alike
  obtain ⟨token, rest, split, opens, listed⟩ := bracketed_eq_some read
  obtain ⟨middle, rfl⟩ := listed.suffix shrinks
  obtain rfl : front = token :: middle := List.append_cancel_right split
  exact bracketed_of_listed opens (Local.listed shrinks local_ listed
    (fun token middle _ => (alike.append middle).cons token) rfl)

end

end Local

/-- What a rule does depends on what it leaves only as far as that can be seen, if that holds of the
readers that it calls. -/
theorem Rule.local_run {bound : Nat}
    (below : ∀ {β : Type} (reader : Reader β), Local (reader.read bound)) (rule : Rule α) :
    Local (rule.run bound) := by
  have further {β γ : Type} {next : γ → Rule β} (value : γ) : Shrinks ((next value).run bound) :=
    (next value).shrinks_run bound
  induction rule with
  | done value => exact .pure value
  | refuse => exact .failure
  | head next ih => exact .bind (.of_finds fun _ => .next) further .next fun _ => ih _
  | sees test next ih => exact .bind (.of_finds fun _ => .sees _) further (.sees _) fun _ => ih _
  | look kind next ih =>
      refine .bind ?_ further (.of_peek fun _ _ alike => alike.look kind) fun _ => ih _
      rintro tokens seen rest ⟨⟩
      exact List.suffix_rfl
  | skip test next ih => exact .bind (.of_finds fun _ => .skip _) further (.skip _) fun _ => ih _
  | take test next ih => exact .bind (.of_finds fun _ => .take _) further (.take _) fun _ => ih _
  | call reader next ih =>
      exact .bind (reader.shrinks_read _) further (below reader) fun _ => ih _
  | span inner next ihInner ih =>
      exact .bind (.of_finds fun _ => .with_tokens (inner.shrinks_run _).finds)
        (fun _ => further _) ihInner.with_tokens fun _ => ih _ _
  | commas item close next ihItem ih =>
      have item_ := item.shrinks_run bound
      exact .bind (item_.comma_list _ _) further (.comma_list item_ ihItem _ _) fun _ => ih _
  | commas1 item next ihItem ih =>
      have item_ := item.shrinks_run bound
      exact .bind (item_.comma_list1 _) further (.comma_list1 item_ ihItem _) fun _ => ih _
  | group opening closing item next ihItem ih =>
      have item_ := item.shrinks_run bound
      exact .bind (item_.bracketed _ _ _) further (.bracketed item_ ihItem _ _ _) fun _ => ih _

namespace Rule

variable {bound : Nat}

theorem keeps_ended (test : Test) (value : α) : Keeps ((ended test value).run bound) := by
  simp only [ended, run_bind, run_seen, run_fail_unless, run_pure]
  exact .bind (.sees _) fun _ => .bind (.fail_unless _) fun _ => .pure _

theorem ended_eq_some {test : Test} {value result : α} {tokens rest : List Token} :
    (ended test value).run bound tokens = some (result, rest) ↔
      result = value ∧ tokens = rest ∧ ∃ token ∈ rest.head?, test.accepts token = true := by
  simp only [ended, run_bind, run_seen, run_fail_unless, run_pure]
  constructor
  · intro read
    obtain ⟨seen, same⟩ := fail_unless_sees_bind read
    obtain ⟨rfl, rfl⟩ := Prod.mk.inj (Option.some.inj same)
    exact ⟨rfl, rfl, seen⟩
  · rintro ⟨rfl, rfl, token, next, accepted⟩
    rw [sees_bind, next, Option.map_some, accepted]
    rfl

theorem keeps_field_tag : Keeps (fieldTag.run bound) := by
  simp only [fieldTag, run_bind, run_seen, run_ite, run_taken, run_pure, Test.accepts_text]
  exact fun pending => .later (.sees _) fun _ =>
    .ite (.later ((Keeps.take plain_is_text).map _) fun _ => .pure _) (.pure _)

theorem keeps_named_fields : Keeps (namedFields.run bound) := by
  simp only [namedFields, run_bind, run_list1, run_name, run_read]
  exact fun pending => .later (.comma_list1 .name bound) fun names =>
    .later (nests bound).typeExpr fun type => .later keeps_field_tag fun tag =>
      keeps_ended _ _ pending

theorem keeps_embedded_field : Keeps (embeddedField.run bound) := by
  simp only [embeddedField, run_bind, run_skipped, run_read, Test.accepts_mark]
  exact fun pending => .later (.skip (plain_is_mark (by decide))) fun isPointer =>
    .later (nests bound).typeName fun type => .later keeps_field_tag fun tag =>
      keeps_ended _ _ pending

theorem keeps_plain_type : Keeps (plainType.run bound) := by
  simp only [plainType, run_bind, run_skipped, run_read, Test.accepts_mark]
  exact fun pending => .later (.skip (plain_is_mark (by decide))) fun _ => (nests bound).typeExpr _

theorem keeps_spec (name : String) : Keeps ((spec name).run bound) := by
  simp only [spec, run_bind, run_pure]
  exact fun pending => .later keeps_plain_type fun type => .later (keeps_ended _ _) fun _ => .pure _

theorem keeps_plain_spec : Keeps (plainSpec.run bound) := by
  simp only [plainSpec, run_bind, run_name]
  exact fun pending => .later .name fun name => keeps_spec name pending

theorem keeps_generic_spec : Keeps (genericSpec.run bound) := by
  simp only [genericSpec, run_bind, run_name, run_mark, run_read]
  exact fun pending => .later .name fun name => .bind (.opening .square) fun _ =>
    .bind ((nests bound).typeParams pending) fun _ => keeps_spec name pending

end Rule

/-- Of two readers the second is used again if what it leaves can not stand outside brackets. -/
theorem Local.either {first second : Parser α} (localFirst : Local first)
    (localSecond : Local second) (keepsFirst : Keeps first) (keepsSecond : Keeps second)
    (stops : ∀ tokens value rest, second tokens = some (value, rest) →
      ∃ token ∈ rest.head?, pendingStep [] token = none) : Local (either first second) := by
  intro front back value read others alike
  cases one : first (front ++ back) with
  | some pair =>
      rw [Parser.either, one] at read
      obtain rfl : pair = (value, back) := Option.some.inj read
      rw [Parser.either, localFirst _ _ _ one _ alike]
  | none =>
      rw [Parser.either, one] at read
      have again := localSecond _ _ _ read _ alike
      rw [Parser.either, again]
      cases other : first (front ++ others) with
      | none => rfl
      | some pair =>
          obtain ⟨result, rest⟩ := pair
          obtain ⟨taken, split, balanced⟩ := keepsFirst [] _ _ _ other
          obtain ⟨taken', split', balanced'⟩ := keepsSecond [] _ _ _ again
          obtain rfl := List.append_cancel_right split'
          obtain ⟨last, left, stop⟩ := stops _ _ _ again
          cases others with
          | nil => cases left
          | cons token others =>
              cases left
              obtain ⟨middle, rfl, rfl⟩ := Balanced.is_prefix_of_stop balanced balanced' split stop
              rw [List.append_assoc] at other one
              have back' := localFirst _ _ _ other _ (alike.symm.append middle)
              rw [back'] at one
              cases one

theorem starts_method_cons (token : Token) (tokens : List Token) :
    startsMethod (token :: tokens) =
      (isName token && (tokens.head?.map (isMark "(")).getD false) := by
  cases tokens <;> simp [startsMethod]

theorem Body.local_method {bound : Nat} {rule other : Rule α} (localRule : Local (rule.run bound))
    (localOther : Local (other.run bound)) (consumes : Consumes ((method rule other).run bound)) :
    Local ((method rule other).run bound) := by
  intro front back value read others alike
  cases front with
  | nil => exact absurd (consumes _ _ _ read) (Nat.lt_irrefl _)
  | cons token front =>
      have same : startsMethod (token :: (front ++ back)) =
          startsMethod (token :: (front ++ others)) := by
        rw [starts_method_cons, starts_method_cons, (alike.append front).head]
      rw [List.cons_append, run, bind_apply] at read ⊢
      rw [Option.bind_some, ← same]
      rw [Option.bind_some] at read
      cases starts : startsMethod (token :: (front ++ back)) with
      | true =>
          simp only [starts, if_true] at read ⊢
          exact localRule (token :: front) _ _ read _ alike
      | false =>
          simp only [starts, Bool.false_eq_true, if_false] at read ⊢
          exact localOther (token :: front) _ _ read _ alike

theorem param_type_eq_some {bound : Nat} {name : Option String} {single : TypeExpr → ParamItem}
    {tokens rest : List Token} {item : ParamItem} :
    (Rule.paramType name single).run bound tokens = some (item, rest) ↔
      (∃ token ∈ rest.head?, Test.endsItem.accepts token = true) ∧
        ((∃ dots others type, tokens = dots :: others ∧ isMark "..." dots = true ∧
            typeExpr bound others = some (type, rest) ∧ item = .variadic name type) ∨
          (∀ token ∈ tokens.head?, isMark "..." token = false) ∧
            ∃ type, typeExpr bound tokens = some (type, rest) ∧ item = single type) := by
  have typed (item' : TypeExpr → ParamItem) (tokens : List Token) :
      (do Rule.ended .endsItem (item' (← Rule.read .typeExpr)) : Rule ParamItem).run bound tokens =
        some (item, rest) ↔ (∃ token ∈ rest.head?, Test.endsItem.accepts token = true) ∧
          ∃ type, typeExpr bound tokens = some (type, rest) ∧ item = item' type := by
    simp only [Rule.run_bind, Rule.run_read, Reader.read, bind_eq_some, Rule.ended_eq_some]
    constructor
    · rintro ⟨type, middle, read, rfl, rfl, seen⟩
      exact ⟨seen, type, read, rfl⟩
    · rintro ⟨seen, type, read, rfl⟩
      exact ⟨type, rest, read, rfl, rfl, seen⟩
  rw [Rule.paramType, Rule.run_bind, Rule.run_skipped, skip_bind_eq_some]
  constructor
  · rintro (⟨dots, others, rfl, accepted, read⟩ | ⟨refused, read⟩)
    · obtain ⟨seen, type, inner, rfl⟩ := (typed (.variadic name) others).1 read
      exact ⟨seen, .inl ⟨dots, others, type, rfl, accepted, inner, rfl⟩⟩
    · obtain ⟨seen, type, inner, rfl⟩ := (typed single tokens).1 read
      exact ⟨seen, .inr ⟨refused, type, inner, rfl⟩⟩
  · rintro ⟨seen, ⟨dots, others, type, rfl, accepted, read, rfl⟩ | ⟨refused, type, read, rfl⟩⟩
    · exact .inl ⟨dots, others, rfl, accepted,
        (typed (.variadic name) others).2 ⟨seen, type, read, rfl⟩⟩
    · exact .inr ⟨refused, (typed single tokens).2 ⟨seen, type, read, rfl⟩⟩

theorem named_param_eq_none {bound : Nat} {tokens rest : List Token} {item : ParamItem}
    (alone : (Rule.paramType none .alone).run bound tokens = some (item, rest)) :
    Rule.namedParam.run bound tokens = none := by
  refine Option.eq_none_iff_forall_ne_some.2 fun pair read => ?_
  obtain ⟨item', rest'⟩ := pair
  rw [Rule.namedParam, Rule.run_bind, Rule.run_name, bind_eq_some] at read
  obtain ⟨text, others, named, read⟩ := read
  obtain ⟨token, rfl, isName, -⟩ := name_eq_some.1 named
  obtain ⟨⟨last, next, ends⟩, further⟩ := param_type_eq_some.1 alone
  have endsItem {token : Token} (ends : Test.endsItem.accepts token = true) :
      isMark "..." token = false ∧ startsType token = false := by
    simp only [Test.endsItem, Test.accepts_or, Test.accepts_mark, Bool.or_eq_true, isMark,
      Bool.and_eq_true, beq_iff_eq] at ends
    rcases ends with shown | shown <;> simp [isMark, startsType, shown]
  have noDots : ∀ token ∈ rest.head?, isMark "..." token = false := by
    rw [next]
    rintro _ ⟨⟩
    exact (endsItem ends).1
  have noType : ∀ token ∈ rest.head?, startsType token = false := by
    rw [next]
    rintro _ ⟨⟩
    exact (endsItem ends).2
  obtain ⟨dots, _, _, ⟨⟩, accepted, -⟩ | ⟨-, type, typed, -⟩ := further
  · have kind : token.kind = .name := by simpa [Parser.isName] using isName
    simp [isMark, kind] at accepted
  · obtain ⟨depth, typed⟩ := type_name_of_type_expr isName typed
    obtain ⟨-, ⟨dots, left, _, rfl, accepted, -⟩ | ⟨-, type', typed', -⟩⟩ :=
      param_type_eq_some.1 read
    · cases accepted.symm.trans (not_dots_after_type_name typed noDots dots rfl)
    · rw [type_expr_after_type_name bound typed noType] at typed'
      cases typed'

theorem local_param_item {bound : Nat} (localNamed : Local (Rule.namedParam.run bound))
    (localAlone : Local ((Rule.paramType none .alone).run bound)) :
    Local (Parser.either (Rule.namedParam.run bound) ((Rule.paramType none .alone).run bound)) := by
  intro front back value read others alike
  cases one : Rule.namedParam.run bound (front ++ back) with
  | some pair =>
      rw [Parser.either, one] at read
      obtain rfl : pair = (value, back) := Option.some.inj read
      rw [Parser.either, localNamed _ _ _ one _ alike]
  | none =>
      rw [Parser.either, one] at read
      have again := localAlone _ _ _ read _ alike
      rw [Parser.either, named_param_eq_none again, again]

section

variable {bound : Nat} {tokens rest : List Token} {token : Token}

theorem ends_of_embedded_field {fields : List Field}
    (read : Rule.embeddedField.run bound tokens = some (fields, rest)) :
    ∃ token ∈ rest.head?, Test.endsField.accepts token = true := by
  simp only [Rule.embeddedField, Rule.run_bind] at read
  obtain ⟨isPointer, _, -, typed⟩ := bind_eq_some.1 read
  obtain ⟨type, _, -, tagged⟩ := bind_eq_some.1 typed
  obtain ⟨tag, _, -, ended⟩ := bind_eq_some.1 tagged
  exact (Rule.ended_eq_some.1 ended).2.2

theorem spec_eq_some {name : String} {spec : TypeSpec} :
    (Rule.spec name).run bound tokens = some (spec, rest) ↔
      ∃ found, Rule.plainType.run bound tokens = some (found, rest) ∧
        (∃ token ∈ rest.head?, Test.endsSpec.accepts token = true) ∧
        spec = ⟨name, none, found⟩ := by
  simp only [Rule.spec, Rule.run_bind, Rule.run_pure]
  constructor
  · intro read
    obtain ⟨found, middle, plain, further⟩ := bind_eq_some.1 read
    obtain ⟨_, left, ended, same⟩ := bind_eq_some.1 further
    obtain ⟨rfl, rfl⟩ := Prod.mk.inj (Option.some.inj same)
    obtain ⟨rfl, rfl, ends⟩ := Rule.ended_eq_some.1 ended
    exact ⟨_, plain, ends, rfl⟩
  · rintro ⟨found, plain, ends, rfl⟩
    rw [bind_apply, plain, Option.bind_some, bind_apply, Rule.ended_eq_some.2 ⟨rfl, rfl, ends⟩]
    rfl

theorem ends_of_generic_spec {spec : TypeSpec}
    (read : Rule.genericSpec.run bound tokens = some (spec, rest)) :
    ∃ token ∈ rest.head?, Test.endsSpec.accepts token = true := by
  simp only [Rule.genericSpec, Rule.run_bind] at read
  obtain ⟨name, _, -, opened⟩ := bind_eq_some.1 read
  obtain ⟨_, _, -, listed⟩ := bind_eq_some.1 opened
  obtain ⟨_, _, -, typed⟩ := bind_eq_some.1 listed
  obtain ⟨_, -, ends, -⟩ := spec_eq_some.1 typed
  exact ends

theorem pending_step_of_ends_spec (ends : Test.endsSpec.accepts token = true) :
    pendingStep [] token = none := by
  simp only [Test.endsSpec, Test.accepts_or, Test.accepts_mark, Test.accepts_terminator,
    Bool.or_eq_true] at ends
  rcases ends with (ends | ends) | ends
  · exact pending_step_nil_terminator ends
  · exact @pending_step_nil_closing token .round ends
  · exact @pending_step_nil_closing token .curly ends

theorem pending_step_of_ends_field (ends : Test.endsField.accepts token = true) :
    pendingStep [] token = none := by
  simp only [Test.endsField, Test.accepts_or, Test.accepts_mark, Test.accepts_terminator,
    Bool.or_eq_true] at ends
  rcases ends with ends | ends
  · exact pending_step_nil_terminator ends
  · exact @pending_step_nil_closing token .curly ends

end

/-- What a reader does depends on what it leaves only as far as that can be seen. -/
theorem Reader.local_read (reader : Reader α) (bound : Nat) : Local (reader.read bound) := by
  induction bound generalizing α with
  | zero =>
      rw [read_zero]
      exact .failure
  | succ bound ih =>
      rw [read_succ]
      cases reader with
      | paramItem => exact local_param_item (Rule.local_run ih _) (Rule.local_run ih _)
      | fieldDecl =>
          refine .either (Rule.local_run ih _) (Rule.local_run ih _) Rule.keeps_named_fields
            Rule.keeps_embedded_field fun tokens fields rest read => ?_
          obtain ⟨token, next, ends⟩ := ends_of_embedded_field read
          exact ⟨token, next, pending_step_of_ends_field ends⟩
      | typeSpec =>
          refine .either (Rule.local_run ih _) (Rule.local_run ih _) Rule.keeps_plain_spec
            Rule.keeps_generic_spec fun tokens spec rest read => ?_
          obtain ⟨token, next, ends⟩ := ends_of_generic_spec read
          exact ⟨token, next, pending_step_of_ends_spec ends⟩
      | element =>
          refine Body.local_method (Rule.local_run ih _) (Rule.local_run ih _) ?_
          exact element.read_succ bound ▸ element.consumes_read rfl (bound + 1)
      | _ => exact Rule.local_run ih _

end EndpointAtlas.Go
