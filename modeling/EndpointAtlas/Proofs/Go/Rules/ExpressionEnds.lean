import EndpointAtlas.Proofs.Go.Rules.FirstTokens
import EndpointAtlas.Proofs.Go.Rules.TypeEnds

/-!
Where expressions end. An expression that is a type is read in the same way in parentheses.
-/

namespace EndpointAtlas.Go

open EndpointAtlas.Go.Parser

variable {α β : Type}

theorem Alike.of_second {first second : Token}
    (other : isMark "." first = false ∨ isMark "(" second = false) (tokens others : List Token) :
    Alike (first :: second :: tokens) (first :: second :: others) := by
  refine ⟨rfl, fun look => ?_⟩
  rw [Alike.sees_cons, Alike.sees_cons]
  cases look with
  | guard =>
      dsimp only
      rw [Alike.sees_cons, Alike.sees_cons]
      rcases other with other | other <;> simp [other]
  | word => rfl
  | label => rfl

theorem Alike.of_third (first second third : Token) (tokens others : List Token) :
    Alike (first :: second :: third :: tokens) (first :: second :: third :: others) :=
  ⟨rfl, fun look => by cases look <;> rfl⟩

/-- Whether a first look at what a reader takes sees nothing of what it leaves. -/
def SeenAlone (reader : Parser α) : Prop :=
  ∀ front back value, reader (front ++ back) = some (value, back) → front ≠ [] →
    ∀ others, Alike (front ++ back) (front ++ others)

def Quiet (accept : Token → Bool) : Prop :=
  ∀ token, accept token = true →
    isName token = false ∧ isMark "." token = false ∧ isMark "(" token = false

theorem Quiet.mark {text : String} (other : text ≠ "." ∧ text ≠ "(") : Quiet (isMark text) := by
  intro token shown
  rw [is_mark_iff] at shown
  simp [isName, isMark, shown, other.1, other.2]

theorem skip_bind_split {accept : Token → Bool} {next : Bool → Parser α} {front back : List Token}
    {value : α} (shrinks : Shrinks (next true))
    (read : (skip accept >>= next) (front ++ back) = some (value, back)) :
    (∃ token others, front = token :: others ∧ accept token = true ∧
      next true (others ++ back) = some (value, back)) ∨
    (∀ token ∈ (front ++ back).head?, accept token = false) ∧
      next false (front ++ back) = some (value, back) := by
  obtain ⟨token, rest, split, accepted, further⟩ | refused := skip_bind_eq_some.1 read
  · cases front with
    | nil =>
        have fewer := (shrinks _ _ _ further).length_le
        rw [List.nil_append] at split
        rw [split] at fewer
        exact absurd fewer (Nat.not_succ_le_self _)
    | cons first front =>
        obtain ⟨rfl, rfl⟩ := List.cons.inj split
        exact .inl ⟨_, _, rfl, accepted, further⟩
  · exact .inr refused

theorem Consumes.exists_cons {reader : Parser α} {front back : List Token} {value : α}
    (consumes : Consumes reader) (read : reader (front ++ back) = some (value, back)) :
    ∃ token others, front = token :: others := by
  refine List.exists_cons_of_ne_nil ?_
  rintro rfl
  exact Nat.lt_irrefl _ (consumes _ _ _ read)

namespace SeenAlone

variable {accept : Token → Bool}

protected theorem pure (value : α) : SeenAlone (pure value : Parser α) := by
  intro front back result read nonempty
  obtain ⟨-, same⟩ := Prod.mk.inj (Option.some.inj read)
  exact absurd (by simpa using same) nonempty

protected theorem failure : SeenAlone (failure : Parser α) := by
  intro front back value read
  cases read

protected theorem take (quiet : Quiet accept) : SeenAlone (take accept) := by
  intro front back token read nonempty others
  obtain ⟨split, accepted⟩ := take_eq_some.1 read
  obtain ⟨first, front, rfl⟩ := List.exists_cons_of_ne_nil nonempty
  obtain ⟨rfl, -⟩ := List.cons.inj split
  obtain ⟨unnamed, undotted, unopened⟩ := quiet _ accepted
  exact .of_cons unnamed undotted unopened _ _

protected theorem mark {text : String} (other : text ≠ "." ∧ text ≠ "(") :
    SeenAlone (mark text) := by
  intro front back nothing read nonempty others
  obtain ⟨token, split, shown⟩ := mark_eq_some.1 read
  exact SeenAlone.take (.mark other) front back token (take_eq_some.2 ⟨split, shown⟩)
    nonempty others

protected theorem bind {first : Parser α} {next : α → Parser β} (shrinks : Shrinks first)
    (shrinks' : ∀ value, Shrinks (next value)) (consumes : Consumes first)
    (alone : SeenAlone first) : SeenAlone (first >>= next) := by
  intro front back value read _ others
  obtain ⟨one, two, found, rfl, taken, -⟩ := split_of_bind shrinks shrinks' read
  have nonempty : one ≠ [] := by
    obtain ⟨_, _, rfl⟩ := consumes.exists_cons taken
    exact List.cons_ne_nil _ _
  rw [List.append_assoc, List.append_assoc]
  exact alone _ _ _ taken nonempty _

theorem bind_skip (quiet : Quiet accept) {next : Bool → Parser α} (alone : SeenAlone (next false)) :
    SeenAlone (skip accept >>= next) := by
  intro front back value read nonempty others
  obtain ⟨token, rest, split, accepted, -⟩ | ⟨-, read⟩ := skip_bind_eq_some.1 read
  · obtain ⟨first, front, rfl⟩ := List.exists_cons_of_ne_nil nonempty
    obtain ⟨rfl, -⟩ := List.cons.inj split
    obtain ⟨unnamed, undotted, unopened⟩ := quiet _ accepted
    exact .of_cons unnamed undotted unopened _ _
  · exact alone _ _ _ read nonempty others

theorem bind_sees (quiet : Quiet accept) {next : Bool → Parser α} (alone : SeenAlone (next false)) :
    SeenAlone (sees accept >>= next) := by
  intro front back value read nonempty others
  obtain ⟨first, front, rfl⟩ := List.exists_cons_of_ne_nil nonempty
  rw [List.cons_append, sees_cons_bind] at read
  cases accepted : accept first with
  | true =>
      obtain ⟨unnamed, undotted, unopened⟩ := quiet _ accepted
      exact .of_cons unnamed undotted unopened _ _
  | false =>
      rw [accepted] at read
      exact alone (first :: front) _ _ read nonempty others

end SeenAlone

namespace Sealed

theorem bind_local {first : Parser α} {next : α → Parser β} (shrinks : Shrinks first)
    (shrinks' : ∀ value, Shrinks (next value)) (local_ : Local first)
    (consumes : ∀ value, Consumes (next value)) (alone : ∀ value, SeenAlone (next value))
    (isSealed : ∀ value, Sealed (next value)) : Sealed (first >>= next) := by
  intro front back value read others
  obtain ⟨one, two, found, rfl, taken, further⟩ := split_of_bind shrinks shrinks' read
  have nonempty : two ≠ [] := by
    obtain ⟨_, _, rfl⟩ := (consumes found).exists_cons further
    exact List.cons_ne_nil _ _
  rw [List.append_assoc]
  exact bind_eq_some.2 ⟨found, _, local_ _ _ _ taken _ (alone _ _ _ _ further nonempty others),
    isSealed _ _ _ _ further others⟩

theorem bind_skip {accept : Token → Bool} {next : Bool → Parser α} (shrinks : Shrinks (next true))
    (consumes : Consumes (next false)) (taken : Sealed (next true)) (left : Sealed (next false)) :
    Sealed (skip accept >>= next) := by
  intro front back value read others
  obtain ⟨token, front, rfl, accepted, further⟩ | ⟨refused, further⟩ := skip_bind_split shrinks read
  · exact skip_bind_eq_some.2 (.inl ⟨_, _, rfl, accepted, taken _ _ _ further others⟩)
  · obtain ⟨first, front, rfl⟩ := consumes.exists_cons further
    exact skip_bind_eq_some.2
      (.inr ⟨by simpa using refused, left (first :: front) _ _ further others⟩)

theorem bind_sees {accept : Token → Bool} {next : Bool → Parser α}
    (consumes : ∀ seen, Consumes (next seen)) (isSealed : ∀ seen, Sealed (next seen)) :
    Sealed (sees accept >>= next) := by
  intro front back value read others
  cases front with
  | nil => exact absurd (consumes _ _ _ _ read) (Nat.lt_irrefl _)
  | cons first front =>
      rw [List.cons_append, sees_cons_bind] at read ⊢
      exact isSealed _ (first :: front) _ _ read others

end Sealed

theorem EndsAnywhere.bind_local {first : Parser α} {next : α → Parser β} (shrinks : Shrinks first)
    (shrinks' : ∀ value, Shrinks (next value)) (local_ : Local first) (ends : EndsAnywhere first)
    (alone : ∀ value, SeenAlone (next value)) (ends' : ∀ value, EndsAnywhere (next value)) :
    EndsAnywhere (first >>= next) := by
  intro front back value read token others seen
  obtain ⟨one, two, found, rfl, taken, further⟩ := split_of_bind shrinks shrinks' read
  have ended := ends' _ _ _ _ further token others seen
  rw [List.append_assoc]
  refine bind_eq_some.2 ⟨found, _, ?_, ended⟩
  by_cases empty : two = []
  · subst empty
    exact ends _ _ _ taken token others seen
  · exact local_ _ _ _ taken _ (alone _ _ _ _ further empty _)

namespace Rule

variable {depth : Nat} {test : Test}

theorem consumes {rule : Rule α} (takes : rule.Takes) : Consumes (rule.run depth) :=
  rule.consumes_run (fun reader takes => reader.consumes_read takes depth) takes

theorem sealed_skipped {next : Bool → Rule α} (takes : (next false).Takes)
    (isSealed : ∀ skipped, Sealed ((next skipped).run depth)) :
    Sealed ((Rule.skipped test >>= next).run depth) := by
  rw [run_bind, run_skipped]
  exact .bind_skip ((next true).shrinks_run depth) (consumes takes) (isSealed true) (isSealed false)

theorem sealed_seen {next : Bool → Rule α} (takes : ∀ seen, (next seen).Takes)
    (isSealed : ∀ seen, Sealed ((next seen).run depth)) :
    Sealed ((Rule.seen test >>= next).run depth) := by
  rw [run_bind, run_seen]
  exact .bind_sees (fun seen => consumes (takes seen)) isSealed

theorem sealed_after {rule : Rule α} {next : α → Rule β} (takes : ∀ value, (next value).Takes)
    (alone : ∀ value, SeenAlone ((next value).run depth))
    (isSealed : ∀ value, Sealed ((next value).run depth)) : Sealed ((rule >>= next).run depth) := by
  rw [run_bind]
  exact .bind_local (rule.shrinks_run depth)
    (fun value => (next value).shrinks_run depth) rule.is_local
    (fun value => consumes (takes value)) alone isSealed

theorem ends_after {rule : Rule α} {next : α → Rule β} (ends : EndsAnywhere (rule.run depth))
    (alone : ∀ value, SeenAlone ((next value).run depth))
    (ends' : ∀ value, EndsAnywhere ((next value).run depth)) :
    EndsAnywhere ((rule >>= next).run depth) := by
  rw [run_bind]
  exact .bind_local (rule.shrinks_run depth)
    (fun value => (next value).shrinks_run depth) rule.is_local
    ends alone ends'

theorem alone_skipped {next : Bool → Rule α} (quiet : Quiet test.accepts)
    (alone : SeenAlone ((next false).run depth)) :
    SeenAlone ((Rule.skipped test >>= next).run depth) := by
  rw [run_bind, run_skipped]
  exact .bind_skip quiet alone

theorem alone_seen {next : Bool → Rule α} (quiet : Quiet test.accepts)
    (alone : SeenAlone ((next false).run depth)) :
    SeenAlone ((Rule.seen test >>= next).run depth) := by
  rw [run_bind, run_seen]
  exact .bind_sees quiet alone

theorem alone_mark {text : String} (other : text ≠ "." ∧ text ≠ "(") :
    SeenAlone ((Rule.mark text).run depth) := by
  rw [run_mark]
  exact .mark other

theorem alone_bind {rule : Rule α} {next : α → Rule β} (takes : rule.Takes)
    (alone : SeenAlone (rule.run depth)) : SeenAlone ((rule >>= next).run depth) := by
  rw [run_bind]
  exact .bind (rule.shrinks_run depth)
    (fun value => (next value).shrinks_run depth) (consumes takes)
    alone

end Rule

namespace Reader

variable {depth : Nat}

theorem sealed_call_arguments : Sealed (callArguments.read depth) := by
  induction depth with
  | zero =>
      rw [read_zero]
      exact .failure
  | succ depth ih =>
      rw [read_succ]
      change Sealed (callArgumentsRule.run depth)
      refine Rule.sealed_skipped (.inl rfl) fun closed => ?_
      cases closed with
      | true => exact .pure ()
      | false =>
          refine Rule.sealed_after (fun _ => trivial) (fun _ => ?_) fun _ => ?_
          · refine Rule.alone_skipped (.mark (by decide))
              (Rule.alone_skipped (.mark (by decide)) ?_)
            exact Rule.alone_mark (by decide)
          · refine Rule.sealed_skipped trivial fun _ => Rule.sealed_skipped trivial fun more => ?_
            cases more with
            | true =>
                rw [if_pos rfl, Rule.run_read]
                exact ih
            | false => exact Rule.sealed_mark _

theorem sealed_of_body {reader : Reader α} (isSealed : ∀ depth, Sealed (reader.body.run depth)) :
    Sealed (reader.read depth) := by
  cases depth with
  | zero =>
      rw [read_zero]
      exact .failure
  | succ depth =>
      rw [read_succ]
      exact isSealed depth

theorem sealed_closed (value : Bool) : Sealed ((do
    Rule.mark "]"
    return value : Rule Bool).run depth) :=
  Rule.sealed_bind (Rule.sealed_mark _) fun _ => .pure value

theorem alone_closed (value : Bool) : SeenAlone ((do
    Rule.mark "]"
    return value : Rule Bool).run depth) :=
  Rule.alone_bind trivial (Rule.alone_mark (by decide))

theorem sealed_further_indices : Sealed ((do
    if ← Rule.skipped (.mark ":") then
      if ← Rule.skipped (.mark "]") then return true
      Rule.read (expr true)
      if ← Rule.skipped (.mark ":") then Rule.read (expr true)
      Rule.mark "]"
      return true
    else if ← Rule.skipped (.mark ",") then
      let _ ← Rule.list (Rule.read typeExpr) "]"
      return false
    else
      Rule.mark "]"
      return false : Rule Bool).run depth) := by
  refine Rule.sealed_skipped trivial fun bounds => ?_
  cases bounds with
  | true =>
      refine Rule.sealed_skipped (.inl rfl) fun open_ => ?_
      cases open_ with
      | true => exact .pure true
      | false =>
          refine Rule.sealed_after (fun _ => trivial)
            (fun _ => Rule.alone_skipped (.mark (by decide)) (alone_closed true)) fun _ => ?_
          refine Rule.sealed_skipped trivial fun capacity => ?_
          cases capacity with
          | true =>
              exact Rule.sealed_after (fun _ => trivial) (fun _ => alone_closed true)
                fun _ => sealed_closed true
          | false => exact sealed_closed true
  | false =>
      refine Rule.sealed_skipped trivial fun several => ?_
      cases several with
      | true => exact Rule.sealed_bind (Rule.sealed_list _ (by decide)) fun _ => .pure false
      | false => exact sealed_closed false

theorem sealed_indices : Sealed (indices.read depth) := by
  refine sealed_of_body fun depth => ?_
  change Sealed (indicesRule.run depth)
  refine Rule.sealed_seen (fun unbounded => ?_) fun unbounded => ?_
  · cases unbounded with
    | true => exact trivial
    | false => exact .inl rfl
  · cases unbounded with
    | true => exact sealed_further_indices
    | false =>
        refine Rule.sealed_after (fun _ => trivial) (fun _ => ?_) fun _ => sealed_further_indices
        exact Rule.alone_skipped (.mark (by decide)) (Rule.alone_skipped (.mark (by decide))
          (alone_closed false))

theorem sealed_block : Sealed (block.read depth) := by
  refine sealed_of_body fun depth => ?_
  change Sealed (blockRule.run depth)
  exact Rule.sealed_bind (Rule.sealed_siblings _ _ (by decide)) fun _ => .pure ()

theorem sealed_literal_value : Sealed (literalValue.read depth) := by
  refine sealed_of_body fun depth => ?_
  change Sealed (literalValueRule.run depth)
  exact Rule.sealed_bind (Rule.sealed_mark _) fun _ =>
    Rule.sealed_bind (Rule.sealed_list _ (by decide)) fun _ => .pure ()

theorem ends_operand : EndsAnywhere (operand.read depth) := by
  cases depth with
  | zero =>
      rw [read_zero]
      exact .failure
  | succ depth =>
      rw [read_succ]
      change EndsAnywhere (operandRule.run depth)
      obtain ⟨typed, -, signed⟩ := ends_types depth
      have typed (kind : OperandKind) : EndsAnywhere ((do
          let _ ← Rule.read typeExpr
          return kind : Rule OperandKind).run depth) := by
        refine Rule.ends_map ?_ fun _ => kind
        rwa [Rule.run_read]
      have taken (test : Test) : Sealed ((Rule.taken test).run depth) := by
        rw [Rule.run_taken]
        exact (Sealed.take _).map _
      refine Rule.ends_next (fun first => ?_) fun first => ?_
      · exact Rule.consumes (operand.takes_body rfl first)
      · cases first with
        | none => exact .failure
        | some first =>
            simp only
            split
            · exact Rule.ends_bind Rule.sealed_name fun _ => .pure _
            · exact Rule.ends_bind (taken _) fun _ => .pure _
            · exact Rule.ends_bind (taken _) fun _ => .pure _
            · exact Rule.ends_bind (taken _) fun _ => .pure _
            · exact Rule.ends_bind (Rule.sealed_mark _) fun _ =>
                Rule.ends_closed (by decide) fun _ => .pure _
            · refine Rule.ends_bind (Rule.sealed_keyword _) fun _ => Rule.ends_after ?_
                (fun _ => Rule.alone_seen (.mark (by decide)) (.pure _)) fun _ => ?_
              · rwa [Rule.run_read]
              · refine Rule.ends_seen (refuses_mark (by decide)) (Rule.consumes (.inl rfl))
                  fun body => ?_
                cases body with
                | true =>
                    refine Rule.ends_bind ?_ fun _ => .pure _
                    rw [Rule.run_read]
                    exact sealed_block
                | false => exact .pure _
            · exact typed _
            · exact typed _
            · exact typed _
            · exact typed _
            · exact typed _
            · exact .failure

theorem run_suffixes_rule_eq (literals : Bool) (kind : OperandKind) (tokens : List Token) :
    (suffixesRule literals kind).run depth tokens =
      if Look.guard.sees tokens then some ((), tokens)
      else (suffixRule literals kind).run depth tokens := by
  rw [suffixesRule, Rule.run_bind, Rule.run_looked, bind_apply]
  dsimp only [Option.bind_some]
  split <;> rfl

theorem alone_suffix_rule (literals : Bool) (kind : OperandKind) :
    SeenAlone ((suffixRule literals kind).run depth) := by
  have asserted : Consumes ((do
      let _ ← Rule.read typeExpr
      Rule.mark ")"
      Rule.read (suffixes literals .value) : Rule Unit).run depth) := Rule.consumes (.inl rfl)
  have selected : Consumes ((do
      let _ ← Rule.name
      Rule.read (suffixes literals .name) : Rule Unit).run depth) := Rule.consumes trivial
  have called : Consumes ((do
      Rule.read callArguments
      Rule.read (suffixes literals .value) : Rule Unit).run depth) := Rule.consumes (.inl rfl)
  intro front back value read nonempty others
  rw [suffixRule, Rule.run_bind, Rule.run_skipped] at read
  obtain ⟨dot, front, rfl, dots, read⟩ | ⟨-, read⟩ :=
    skip_bind_split (Rule.shrinks_run _ depth) read
  · rw [if_pos rfl, Rule.run_bind, Rule.run_skipped] at read
    obtain ⟨opening, front, rfl, opens, read⟩ | ⟨unopened, read⟩ :=
      skip_bind_split (Rule.shrinks_run _ depth) read
    · obtain ⟨third, front, rfl⟩ := asserted.exists_cons read
      exact .of_third dot opening third _ _
    · obtain ⟨second, front, rfl⟩ := selected.exists_cons read
      exact .of_second (.inr (unopened second rfl)) _ _
  · rw [if_neg Bool.false_ne_true, Rule.run_bind, Rule.run_skipped] at read
    obtain ⟨opening, front, rfl, opens, read⟩ | ⟨-, read⟩ :=
      skip_bind_split (Rule.shrinks_run _ depth) read
    · obtain ⟨second, front, rfl⟩ := called.exists_cons read
      exact .of_second (.inl (not_is_mark opens (by decide))) _ _
    · refine Rule.alone_skipped ?_ (Rule.alone_seen ?_ ?_) _ _ _ read nonempty others
      · exact .mark (by decide)
      · exact .mark (by decide)
      · exact .pure ()

theorem alone_suffixes (literals : Bool) (kind : OperandKind) :
    SeenAlone ((suffixes literals kind).read depth) := by
  cases depth with
  | zero =>
      rw [read_zero]
      exact .failure
  | succ depth =>
      rw [read_succ]
      intro front back value read nonempty others
      change (suffixesRule literals kind).run depth _ = _ at read
      rw [run_suffixes_rule_eq] at read
      split at read
      · obtain ⟨-, same⟩ := Prod.mk.inj (Option.some.inj read)
        exact absurd (by simpa using same) nonempty
      · exact alone_suffix_rule literals kind _ _ _ read nonempty others

theorem suffix_rule_of_ends_type {literals : Bool} {kind : OperandKind} {token : Token}
    (ends : Test.endsType.accepts token = true) (others : List Token) :
    (suffixRule literals kind).run depth (token :: others) = some ((), token :: others) := by
  have refuses {text : String} (other : text ∉ [",", ")"]) : isMark text token = false :=
    (refuses_of_ends_type ends).2.2 text other
  have passes {text : String} (other : text ∉ [",", ")"]) (next : Bool → Rule Unit) :
      (Rule.skipped (.mark text) >>= next).run depth (token :: others) =
        (next false).run depth (token :: others) := by
    rw [Rule.run_bind, Rule.run_skipped]
    exact skip_bind_of_refuses (by simpa using refuses other) _
  rw [suffixRule, passes (by decide), if_neg Bool.false_ne_true, passes (by decide),
    if_neg Bool.false_ne_true, passes (by decide), if_neg Bool.false_ne_true, Rule.run_bind,
    Rule.run_seen, sees_cons_bind]
  simp only [Test.accepts_mark, refuses (by decide : "\x7b" ∉ [",", ")"])]
  rfl

theorem guard_of_ends_type {front back others : List Token} {token : Token}
    (unseen : Look.guard.sees (front ++ back) = false) (ends : Test.endsType.accepts token = true) :
    Look.guard.sees (front ++ token :: others) = false := by
  obtain ⟨-, noWord, noMark⟩ := refuses_of_ends_type ends
  have undotted := noMark "." (by decide)
  have unopened := noMark "(" (by decide)
  match front with
  | [] => rw [List.nil_append, Alike.sees_cons, undotted]; rfl
  | [first] => simp [Alike.sees_cons, unopened]
  | [first, second] => simp [Alike.sees_cons, noWord]
  | _ :: _ :: _ :: _ => exact unseen

section

variable (below : ∀ literals kind, EndsAnywhere ((suffixes literals kind).read depth))

include below

theorem ends_suffix_rule (literals : Bool) (kind : OperandKind) :
    EndsAnywhere ((suffixRule literals kind).run depth) := by
  have further (kind : OperandKind) :
      EndsAnywhere ((Rule.read (suffixes literals kind)).run depth) := by
    rw [Rule.run_read]
    exact below literals kind
  refine Rule.ends_skipped (refuses_mark (by decide)) fun dotted => ?_
  cases dotted with
  | true =>
      refine Rule.ends_skipped (refuses_mark (by decide)) fun asserted => ?_
      cases asserted with
      | true => exact Rule.ends_closed (by decide) fun _ => further .value
      | false => exact Rule.ends_bind Rule.sealed_name fun _ => further .name
  | false =>
      refine Rule.ends_skipped (refuses_mark (by decide)) fun called => ?_
      cases called with
      | true =>
          refine Rule.ends_bind ?_ fun _ => further .value
          rw [Rule.run_read]
          exact sealed_call_arguments
      | false =>
          refine Rule.ends_skipped (refuses_mark (by decide)) fun indexed => ?_
          cases indexed with
          | true =>
              refine Rule.ends_bind ?_ fun _ => further _
              rw [Rule.run_read]
              exact sealed_indices
          | false =>
              by_cases literal :
                (decide (kind = .literalType) || decide (kind = .name) && literals) = true
              · refine Rule.ends_seen (refuses_mark (by decide)) ?_ fun braced => ?_
                · rw [if_pos rfl, if_pos literal]
                  exact Rule.consumes (.inl rfl)
                · cases braced with
                  | true =>
                      rw [if_pos rfl, if_pos literal]
                      refine Rule.ends_bind ?_ fun _ => further .value
                      rw [Rule.run_read]
                      exact sealed_literal_value
                  | false => exact .pure ()
              · simp only [if_neg literal, Bool.false_eq_true, if_false, ite_self]
                rw [Rule.run_bind, Rule.run_seen]
                exact .pure ()

end

theorem ends_suffixes (depth : Nat) (literals : Bool) (kind : OperandKind) :
    EndsAnywhere ((suffixes literals kind).read depth) := by
  induction depth generalizing literals kind with
  | zero =>
      rw [read_zero]
      exact .failure
  | succ depth ih =>
      rw [read_succ]
      intro front back value read token others ends
      change (suffixesRule literals kind).run depth _ = _ at read
      change (suffixesRule literals kind).run depth _ = _
      rw [run_suffixes_rule_eq] at read ⊢
      cases guarded : Look.guard.sees (front ++ back) with
      | true =>
          rw [guarded, if_pos rfl] at read
          obtain ⟨-, same⟩ := Prod.mk.inj (Option.some.inj read)
          obtain rfl : front = [] := by simpa using same
          rw [List.nil_append, suffix_rule_of_ends_type ends, ite_self]
      | false =>
          rw [guarded, if_neg Bool.false_ne_true] at read
          rw [guard_of_ends_type guarded ends, if_neg Bool.false_ne_true]
          exact ends_suffix_rule ih literals kind _ _ _ read _ _ ends

theorem ends_unary (depth : Nat) (literals : Bool) :
    EndsAnywhere ((unary literals).read depth) := by
  induction depth with
  | zero =>
      rw [read_zero]
      exact .failure
  | succ depth ih =>
      rw [read_succ]
      change EndsAnywhere ((unaryRule literals).run depth)
      refine Rule.ends_skipped (fun token ends => ?_) fun signed => ?_
      · by_contra operator
        obtain ⟨-, -, noMark⟩ := refuses_of_ends_type ends
        rw [Bool.not_eq_false, Test.accepts_operator, isOperator, Bool.and_eq_true,
          List.contains_iff_mem] at operator
        have differs : ∀ text ∈ unaryOperators, text ∉ [",", ")"] := by decide
        have shown := noMark token.text (differs _ operator.2)
        simp [isMark, operator.1] at shown
      · cases signed with
        | true =>
            rw [if_pos rfl, Rule.run_read]
            exact ih
        | false =>
            refine Rule.ends_after ?_ (fun kind => ?_) fun kind => ?_
            · rw [Rule.run_read]
              exact ends_operand
            · rw [Rule.run_read]
              exact alone_suffixes literals kind
            · rw [Rule.run_read]
              exact ends_suffixes depth literals kind

end Reader

end EndpointAtlas.Go
