import EndpointAtlas.Proofs.Go.Rules.Tails

/-!
Where types end. A type is read in the same way before any token that can not go on with it, and
what stands in brackets is read in the same way whatever follows it.
-/

namespace EndpointAtlas.Go

open EndpointAtlas.Go.Parser

variable {α β : Type}

def Test.endsType : Test := ((text.or terminator).or (mark ",")).or (mark ")")

def Sealed (reader : Parser α) : Prop :=
  ∀ front back value, reader (front ++ back) = some (value, back) →
    ∀ others, reader (front ++ others) = some (value, others)

/-- Whether a reader does the same before any token that ends a type. -/
def EndsAnywhere (reader : Parser α) : Prop :=
  ∀ front back value, reader (front ++ back) = some (value, back) →
    ∀ token others, Test.endsType.accepts token = true →
      reader (front ++ token :: others) = some (value, token :: others)

theorem Alike.of_is_mark {text : String} {token : Token} (shown : isMark text token = true)
    (other : text ≠ "." ∧ text ≠ "(") (tokens others : List Token) :
    Alike (token :: tokens) (token :: others) := by
  rw [is_mark_iff] at shown
  refine .of_cons ?_ ?_ ?_ tokens others
  · simp [isName, shown]
  · simp [isMark, shown, other.1]
  · simp [isMark, shown, other.2]

theorem Alike.of_is_terminator {token : Token} (ends : isTerminator token = true)
    (tokens others : List Token) : Alike (token :: tokens) (token :: others) := by
  have kind : token.kind = .terminator := by simpa [isTerminator] using ends
  refine .of_cons ?_ ?_ ?_ tokens others <;> simp [isName, isMark, kind]

namespace Sealed

variable {item : Parser α}

protected theorem take (accept : Token → Bool) : Sealed (take accept) := by
  intro front back token read others
  obtain ⟨same, accepted⟩ := take_eq_some.1 read
  obtain rfl : front = [token] := List.append_cancel_right same
  exact take_eq_some.2 ⟨rfl, accepted⟩

protected theorem map (isSealed : Sealed item) (change : α → β) : Sealed (change <$> item) := by
  intro front back value read others
  rw [map_apply, Option.map_eq_some_iff] at read
  obtain ⟨⟨found, rest⟩, read, same⟩ := read
  obtain ⟨rfl, rfl⟩ := Prod.mk.inj same
  rw [map_apply, isSealed _ _ _ read]
  rfl

protected theorem pure (value : α) : Sealed (pure value : Parser α) := by
  intro front back result read others
  obtain ⟨rfl, same⟩ := Prod.mk.inj (Option.some.inj read)
  obtain rfl : front = [] := by simpa using same
  rfl

protected theorem failure : Sealed (failure : Parser α) := by
  intro front back value read
  cases read

protected theorem bind {first : Parser α} {next : α → Parser β} (shrinks : Shrinks first)
    (shrinks' : ∀ value, Shrinks (next value)) (one : Sealed first)
    (other : ∀ value, Sealed (next value)) : Sealed (first >>= next) := by
  intro front back value read others
  obtain ⟨one', two, found, rfl, taken, further⟩ := split_of_bind shrinks shrinks' read
  rw [List.append_assoc]
  exact bind_eq_some.2 ⟨found, _, one _ _ _ taken _, other _ _ _ _ further _⟩

protected theorem name : Sealed Parser.name := (Sealed.take _).map _

protected theorem mark (text : String) : Sealed (mark text) := (Sealed.take _).map _

protected theorem keyword (text : String) : Sealed (keyword text) := (Sealed.take _).map _

section

variable (shrinks : Shrinks item) (local_ : Local item) {close : String}
  (other : close ≠ "." ∧ close ≠ "(")

include shrinks local_ other

theorem closed : Sealed (do
    let value ← item
    mark close
    return value) := by
  intro front back value read others
  have ended (value : α) : Shrinks (mark close >>= fun _ => (pure value : Parser α)) :=
    .of_finds fun _ => .later (.mark close) fun _ => .pure trivial
  obtain ⟨one, two, found, rfl, taken, further⟩ := split_of_bind shrinks ended read
  obtain ⟨nothing, rest, closed, same⟩ := bind_eq_some.1 further
  obtain ⟨rfl, rfl⟩ := Prod.mk.inj (Option.some.inj same)
  obtain ⟨token, split, closes⟩ := mark_eq_some.1 closed
  obtain rfl : two = [token] := List.append_cancel_right split
  have again := local_ _ _ _ taken _ (Alike.of_is_mark closes other rest others)
  rw [List.append_assoc]
  exact bind_eq_some.2 ⟨found, _, again, bind_eq_some.2 ⟨(), others, mark_of_is_mark closes, rfl⟩⟩

protected theorem comma_list (bound : Nat) : Sealed (commaList bound item close) := by
  intro front back values read others
  obtain ⟨found, listed, rfl⟩ := comma_list_eq_some shrinks read
  refine comma_list_of_listed shrinks (Local.listed shrinks local_ listed
    (fun token middle ends => ?_)
    rfl)
  rcases ends with divides | closes
  · exact .of_is_mark divides (by decide) _ _
  · exact .of_is_mark closes other _ _

protected theorem bracketed (opening : String) (bound : Nat) :
    Sealed (bracketed opening close bound item) := by
  intro front back found read others
  obtain ⟨token, rest, split, opens, listed⟩ := bracketed_eq_some read
  obtain ⟨middle, rfl⟩ := listed.suffix shrinks
  obtain rfl : front = token :: middle := List.append_cancel_right split
  refine bracketed_of_listed opens (Local.listed shrinks local_ listed (fun token middle ends => ?_)
    rfl)
  rcases ends with divides | closes
  · exact .of_is_terminator divides _ _
  · exact .of_is_mark closes other _ _

end

end Sealed

namespace EndsAnywhere

protected theorem pure (value : α) : EndsAnywhere (pure value : Parser α) := by
  intro front back result read token others _
  obtain ⟨rfl, same⟩ := Prod.mk.inj (Option.some.inj read)
  obtain rfl : front = [] := by simpa using same
  rfl

protected theorem failure : EndsAnywhere (failure : Parser α) := by
  intro front back value read
  cases read

theorem bind_sealed {first : Parser α} {next : α → Parser β} (shrinks : Shrinks first)
    (shrinks' : ∀ value, Shrinks (next value)) (isSealed : Sealed first)
    (ends : ∀ value, EndsAnywhere (next value)) : EndsAnywhere (first >>= next) := by
  intro front back value read token others seen
  obtain ⟨one, two, found, rfl, taken, further⟩ := split_of_bind shrinks shrinks' read
  rw [List.append_assoc]
  exact bind_eq_some.2 ⟨found, _, isSealed _ _ _ taken _, ends _ _ _ _ further _ _ seen⟩

theorem bind_closed {item : Parser α} {next : α → Parser β} {close : String}
    (shrinks : Shrinks item) (shrinks' : ∀ value, Shrinks (next value)) (local_ : Local item)
    (other : close ≠ "." ∧ close ≠ "(") (ends : ∀ value, EndsAnywhere (next value)) :
    EndsAnywhere (do
      let value ← item
      mark close
      next value) := by
  have ended : Shrinks (do
      let value ← item
      mark close
      return value) :=
    .of_finds fun _ => .later shrinks.finds fun _ => .later (.mark close) fun _ => .pure trivial
  have whole := bind_sealed ended shrinks' (Sealed.closed shrinks local_ other) ends
  simpa only [bind_assoc, pure_bind] using whole

protected theorem map {reader : Parser α} (ends : EndsAnywhere reader) (change : α → β) :
    EndsAnywhere (change <$> reader) := by
  intro front back value read token others seen
  rw [map_apply, Option.map_eq_some_iff] at read
  obtain ⟨⟨found, rest⟩, read, same⟩ := read
  obtain ⟨rfl, rfl⟩ := Prod.mk.inj same
  rw [map_apply, ends _ _ _ read _ _ seen]
  rfl

protected theorem with_tokens {reader : Parser α} (ends : EndsAnywhere reader) :
    EndsAnywhere (withTokens reader) := by
  intro front back pair read token others seen
  obtain ⟨read, taken⟩ := with_tokens_eq_some.1 read
  refine with_tokens_eq_some.2 ⟨ends _ _ _ read _ _ seen, ?_⟩
  simpa using taken

theorem bind_next {next : Option Token → Parser α} (consumes : Consumes (next? >>= next))
    (ends : ∀ token, EndsAnywhere (next token)) : EndsAnywhere (next? >>= next) := by
  intro front back value read token others seen
  cases front with
  | nil => exact absurd (consumes _ _ _ read) (Nat.lt_irrefl _)
  | cons first front => exact ends _ (first :: front) back value read token others seen

theorem bind_skip {accept : Token → Bool} {next : Bool → Parser α}
    (refuses : ∀ token, Test.endsType.accepts token = true → accept token = false)
    (shrinks : Shrinks (next true)) (taken : EndsAnywhere (next true))
    (left : EndsAnywhere (next false)) : EndsAnywhere (skip accept >>= next) := by
  intro front back value read token others seen
  cases front with
  | nil =>
      obtain ⟨first, rest, split, -, read⟩ | ⟨-, read⟩ := skip_bind_eq_some.1 read
      · have fewer := (shrinks _ _ _ read).length_le
        rw [List.nil_append] at split
        rw [split] at fewer
        exact absurd fewer (Nat.not_succ_le_self _)
      · exact skip_bind_eq_some.2 (.inr ⟨by simpa using refuses token seen,
          left [] _ _ read _ _ seen⟩)
  | cons first front =>
      obtain ⟨_, _, ⟨⟩, accepted, read⟩ | ⟨refused, read⟩ := skip_bind_eq_some.1 read
      · exact skip_bind_eq_some.2 (.inl ⟨first, _, rfl, accepted, taken _ _ _ read _ _ seen⟩)
      · exact skip_bind_eq_some.2 (.inr ⟨by simpa using refused,
          left (first :: front) _ _ read _ _ seen⟩)

theorem bind_sees {accept : Token → Bool} {next : Bool → Parser α}
    (refuses : ∀ token, Test.endsType.accepts token = true → accept token = false)
    (consumes : Consumes (next true)) (seen : EndsAnywhere (next true))
    (unseen : EndsAnywhere (next false)) : EndsAnywhere (sees accept >>= next) := by
  intro front back value read token others ends
  cases front with
  | nil =>
      rw [List.nil_append, sees_bind] at read
      rw [List.nil_append, sees_cons_bind, refuses token ends]
      cases next_ : (back.head?.map accept).getD false with
      | true =>
          rw [next_] at read
          exact absurd (consumes _ _ _ read) (Nat.lt_irrefl _)
      | false =>
          rw [next_] at read
          exact unseen [] _ _ read _ _ ends
  | cons first front =>
      rw [List.cons_append, sees_cons_bind] at read ⊢
      cases accepted : accept first with
      | true =>
          rw [accepted] at read
          exact seen (first :: front) _ _ read _ _ ends
      | false =>
          rw [accepted] at read
          exact unseen (first :: front) _ _ read _ _ ends

end EndsAnywhere

theorem refuses_of_ends_type {token : Token} (ends : Test.endsType.accepts token = true) :
    startsType token = false ∧ (∀ text, isKeyword text token = false) ∧
      ∀ text ∉ [",", ")"], isMark text token = false := by
  simp only [Test.endsType, Test.accepts_or, Test.accepts_mark, Test.accepts_text,
    Test.accepts_terminator, Bool.or_eq_true, isMark, isTerminator, Bool.and_eq_true,
    beq_iff_eq] at ends
  rcases ends with ((kind | kind) | shown) | shown
  · simp [startsType, isKeyword, isMark, kind]
  · simp [startsType, isKeyword, isMark, kind]
  all_goals
    refine ⟨by simp [startsType, shown], by simp [isKeyword, shown], fun text other => ?_⟩
    simp only [List.mem_cons, not_or] at other
  · simpa [isMark, shown] using Ne.symm other.1
  · simpa [isMark, shown] using Ne.symm other.2.1

namespace Rule

variable {depth : Nat}

theorem sealed_name : Sealed (Rule.name.run depth) := by
  rw [run_name]
  exact .name

theorem sealed_mark (text : String) : Sealed ((Rule.mark text).run depth) := by
  rw [run_mark]
  exact .mark text

theorem sealed_keyword (text : String) : Sealed ((Rule.keyword text).run depth) := by
  rw [run_keyword]
  exact .keyword text

theorem is_local (rule : Rule α) : Local (rule.run depth) :=
  rule.local_run fun reader => reader.local_read depth

theorem sealed_list (item : Rule α) {close : String} (other : close ≠ "." ∧ close ≠ "(") :
    Sealed ((Rule.list item close).run depth) := by
  rw [run_list]
  exact .comma_list (item.shrinks_run depth) item.is_local other depth

theorem sealed_siblings (opening : String) (item : Rule α) {close : String}
    (other : close ≠ "." ∧ close ≠ "(") :
    Sealed ((Rule.siblings opening close item).run depth) := by
  rw [run_siblings]
  exact .bracketed (item.shrinks_run depth) item.is_local other opening depth

theorem sealed_bind {rule : Rule α} {next : α → Rule β} (isSealed : Sealed (rule.run depth))
    (further : ∀ value, Sealed ((next value).run depth)) : Sealed ((rule >>= next).run depth) := by
  rw [run_bind]
  exact .bind (rule.shrinks_run depth)
    (fun value => (next value).shrinks_run depth) isSealed further

theorem ends_bind {rule : Rule α} {next : α → Rule β} (isSealed : Sealed (rule.run depth))
    (ends : ∀ value, EndsAnywhere ((next value).run depth)) :
    EndsAnywhere ((rule >>= next).run depth) := by
  rw [run_bind]
  exact .bind_sealed (rule.shrinks_run depth) (fun value => (next value).shrinks_run depth) isSealed
    ends

theorem ends_closed {rule : Rule α} {next : α → Rule β} {close : String}
    (other : close ≠ "." ∧ close ≠ "(") (ends : ∀ value, EndsAnywhere ((next value).run depth)) :
    EndsAnywhere ((do
      let value ← rule
      Rule.mark close
      next value).run depth) := by
  simp only [run_bind, run_mark]
  exact .bind_closed (rule.shrinks_run depth) (fun value => (next value).shrinks_run depth)
    rule.is_local other ends

theorem ends_map {rule : Rule α} (ends : EndsAnywhere (rule.run depth)) (change : α → β) :
    EndsAnywhere ((do return change (← rule)).run depth) := by
  simp only [run_bind, run_pure, bind_pure_comp]
  exact ends.map change

theorem ends_text {rule : Rule α} (ends : EndsAnywhere (rule.run depth)) (change : α × String → β) :
    EndsAnywhere ((do return change (← Rule.text rule)).run depth) := by
  refine ends_map ?_ change
  rw [run_text, bind_pure_comp]
  exact ends.with_tokens.map _

theorem ends_next {next : Option Glance → Rule α}
    (takes : ∀ glance, Consumes ((next glance).run depth))
    (ends : ∀ glance, EndsAnywhere ((next glance).run depth)) :
    EndsAnywhere ((Rule.next >>= next).run depth) := by
  rw [run_bind, run_next, bind_map_left]
  exact .bind_next (.after (.of_finds fun _ => .next) fun _ => takes _) fun _ => ends _

theorem ends_skipped {test : Test} {next : Bool → Rule α}
    (refuses : ∀ token, Test.endsType.accepts token = true → test.accepts token = false)
    (ends : ∀ skipped, EndsAnywhere ((next skipped).run depth)) :
    EndsAnywhere ((Rule.skipped test >>= next).run depth) := by
  rw [run_bind, run_skipped]
  exact .bind_skip refuses ((next true).shrinks_run depth) (ends true) (ends false)

theorem ends_seen {test : Test} {next : Bool → Rule α}
    (refuses : ∀ token, Test.endsType.accepts token = true → test.accepts token = false)
    (takes : Consumes ((next true).run depth))
    (ends : ∀ seen, EndsAnywhere ((next seen).run depth)) :
    EndsAnywhere ((Rule.seen test >>= next).run depth) := by
  rw [run_bind, run_seen]
  exact .bind_sees refuses takes (ends true) (ends false)

end Rule

namespace Reader

variable {depth : Nat}

theorem refuses_mark {text : String} (other : text ∉ [",", ")"]) (token : Token)
    (ends : Test.endsType.accepts token = true) : (Test.mark text).accepts token = false :=
  (refuses_of_ends_type ends).2.2 text other

theorem sealed_param_list : Sealed (paramList.read depth) := by
  cases depth with
  | zero =>
      rw [read_zero]
      exact .failure
  | succ depth =>
      rw [read_succ]
      change Sealed (paramListRule.run depth)
      refine Rule.sealed_bind (Rule.sealed_mark _) fun _ =>
        Rule.sealed_bind (Rule.sealed_list _ (by decide)) fun items => ?_
      cases ParamItem.params? items with
      | none => exact .failure
      | some params => exact .pure params

theorem ends_type_name : EndsAnywhere (typeName.read depth) := by
  cases depth with
  | zero =>
      rw [read_zero]
      exact .failure
  | succ depth =>
      rw [read_succ]
      change EndsAnywhere (typeNameRule.run depth)
      refine Rule.ends_text ?_ _
      refine Rule.ends_bind Rule.sealed_name fun first =>
        Rule.ends_skipped (refuses_mark (by decide)) fun qualified => ?_
      have arguments (type : TypeExpr) : EndsAnywhere ((do
          if ← Rule.skipped (.mark "[") then
            let arguments ← Rule.list (Rule.read typeExpr) "]"
            Rule.failUnless !arguments.isEmpty
            return (type, true)
          else return (type, false) : Rule (TypeExpr × Bool)).run depth) := by
        refine Rule.ends_skipped (refuses_mark (by decide)) fun generic => ?_
        cases generic with
        | true =>
            refine Rule.ends_bind (Rule.sealed_list _ (by decide)) fun arguments => ?_
            cases arguments with
            | nil => exact .failure
            | cons first others => exact .pure _
        | false => exact .pure _
      cases qualified with
      | true => exact Rule.ends_bind Rule.sealed_name fun second => arguments _
      | false => exact arguments _

section

variable (inner : EndsAnywhere (typeExpr.read depth))

include inner

theorem ends_signature : EndsAnywhere (signature.read (depth + 1)) := by
  have listed : Sealed ((Rule.read paramList).run depth) := by
    rw [Rule.run_read]
    exact sealed_param_list
  have typed : EndsAnywhere ((Rule.read typeExpr).run depth) := by rwa [Rule.run_read]
  rw [read_succ]
  change EndsAnywhere (signatureRule.run depth)
  refine Rule.ends_bind listed fun params => ?_
  refine Rule.ends_seen (refuses_mark (by decide)) ?_ fun hasResults => ?_
  · exact Rule.consumes_run (fun reader takes => reader.consumes_read takes _) _ (.inl rfl)
  · cases hasResults with
    | true => exact Rule.ends_bind listed fun _ => .pure _
    | false =>
        refine Rule.ends_seen (fun token ends => (refuses_of_ends_type ends).1) ?_
          fun hasResult => ?_
        · exact Rule.consumes_run (fun reader takes => reader.consumes_read takes _) _ (.inl rfl)
        · cases hasResult with
          | true => exact Rule.ends_map typed fun _ => params
          | false => exact .pure _

theorem ends_uninterpreted_type (signed : EndsAnywhere (signature.read depth)) :
    EndsAnywhere (uninterpretedType.read (depth + 1)) := by
  have typed : EndsAnywhere ((do let _ ← Rule.read typeExpr : Rule Unit).run depth) := by
    refine Rule.ends_map ?_ fun _ => ()
    rwa [Rule.run_read]
  rw [read_succ]
  change EndsAnywhere (uninterpretedTypeRule.run depth)
  refine Rule.ends_skipped (fun token ends => (refuses_of_ends_type ends).2.1 _) fun channel => ?_
  cases channel with
  | true => exact Rule.ends_skipped (refuses_mark (by decide)) fun _ => typed
  | false =>
      refine Rule.ends_skipped (refuses_mark (by decide)) fun receives => ?_
      cases receives with
      | true => exact Rule.ends_bind (Rule.sealed_keyword _) fun _ => typed
      | false =>
          refine Rule.ends_bind (Rule.sealed_keyword _) fun _ => Rule.ends_map ?_ fun _ => ()
          rwa [Rule.run_read]

theorem ends_type_expr (uninterpreted : EndsAnywhere (uninterpretedType.read depth)) :
    EndsAnywhere (typeExpr.read (depth + 1)) := by
  have typed : EndsAnywhere ((Rule.read typeExpr).run depth) := by rwa [Rule.run_read]
  have takes {rule : Rule TypeExpr} (takes : rule.Takes) : Consumes (rule.run depth) :=
    rule.consumes_run (fun reader takes => reader.consumes_read takes _) takes
  rw [read_succ]
  change EndsAnywhere (typeExprRule.run depth)
  refine Rule.ends_next (fun first => ?_) fun first => ?_
  · exact takes (typeExpr.takes_body rfl first)
  · cases first with
    | none => exact .failure
    | some first =>
        simp only
        split
        · rw [Rule.run_read]
          exact ends_type_name
        · refine Rule.ends_bind (Rule.sealed_mark _)
            fun _ => Rule.ends_next (fun next => ?_) fun next => Rule.ends_map typed _
          exact takes (.inl rfl)
        · refine Rule.ends_bind (Rule.sealed_mark _)
            fun _ => Rule.ends_next (fun next => ?_)
              fun next => Rule.ends_closed (by decide) fun _ => .pure _
          exact takes (.inl rfl)
        · refine Rule.ends_bind (Rule.sealed_mark _)
            fun _ => Rule.ends_skipped (refuses_mark (by decide)) fun closed => ?_
          have sized : EndsAnywhere ((do
              Rule.mark "]"
              return .array (← Rule.read typeExpr) : Rule TypeExpr).run depth) :=
            Rule.ends_bind (Rule.sealed_mark _) fun _ => Rule.ends_map typed _
          cases closed with
          | true => exact Rule.ends_map typed _
          | false =>
            refine Rule.ends_skipped (refuses_mark (by decide)) fun anyLength => ?_
            cases anyLength with
            | true => exact sized
            | false => exact Rule.ends_closed (by decide) fun _ => Rule.ends_map typed _
        · exact Rule.ends_bind (Rule.sealed_keyword _)
            fun _ => Rule.ends_bind (Rule.sealed_siblings _ _ (by decide)) fun _ => .pure _
        · exact Rule.ends_bind (Rule.sealed_keyword _)
            fun _ => Rule.ends_bind (Rule.sealed_siblings _ _ (by decide)) fun _ => .pure _
        · exact Rule.ends_bind (Rule.sealed_keyword _)
            fun _ => Rule.ends_bind (Rule.sealed_mark _)
              fun _ => Rule.ends_closed (by decide) fun key => Rule.ends_map typed _
        · refine Rule.ends_text ?_ _
          rwa [Rule.run_read]

end

theorem ends_types (depth : Nat) : EndsAnywhere (typeExpr.read depth) ∧
    EndsAnywhere (uninterpretedType.read depth) ∧ EndsAnywhere (signature.read depth) := by
  induction depth with
  | zero => simp only [read_zero, EndsAnywhere.failure, and_self]
  | succ depth ih =>
      obtain ⟨typed, uninterpreted, signed⟩ := ih
      exact ⟨ends_type_expr typed uninterpreted, ends_uninterpreted_type typed signed,
        ends_signature typed⟩

end Reader

end EndpointAtlas.Go
