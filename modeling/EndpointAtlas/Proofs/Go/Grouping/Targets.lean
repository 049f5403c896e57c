import EndpointAtlas.Proofs.Go.Grouping.Types
import EndpointAtlas.Proofs.Go.Rules.ExpressionEnds

/-!
Pointers among expressions. In a conversion, in an argument or in a case of a switch the grammar
takes the type of a pointer for an expression; its target can be put in parentheses there as well.
-/

namespace EndpointAtlas.Go

open EndpointAtlas.Go.Parser

variable {depth : Nat} {tokens rest : List Token}

namespace Reader

def NoSuffix (tokens : List Token) : Prop :=
  Look.guard.sees tokens = true ∨
    ∀ token ∈ tokens.head?, ∀ text ∈ [".", "(", "["], isMark text token = false

theorem no_suffix_of_suffixes {literals : Bool} {kind : OperandKind}
    (read : (suffixes literals kind).read depth tokens = some ((), rest)) :
          NoSuffix rest := by
  induction depth generalizing literals kind tokens with
  | zero =>
      rw [read_zero] at read
      cases read
  | succ depth ih =>
      have after {α : Type} {first : Rule α} {kind : α → OperandKind} {tokens : List Token}
          (read : (first >>= fun value =>
            Rule.read (suffixes literals (kind value))).run depth tokens = some ((), rest)) :
          NoSuffix rest := by
        rw [Rule.run_bind] at read
        obtain ⟨_, _, -, read⟩ := bind_eq_some.1 read
        rw [Rule.run_read] at read
        exact ih read
      rw [read_succ] at read
      change (suffixesRule literals kind).run depth _ = _ at read
      rw [run_suffixes_rule_eq] at read
      split at read
      · rename_i guarded
        obtain ⟨-, rfl⟩ := Prod.mk.inj (Option.some.inj read)
        exact .inl guarded
      · rw [suffixRule, Rule.run_bind, Rule.run_skipped] at read
        rcases skip_bind_eq_some.1 read with ⟨_, _, -, -, read⟩ | ⟨undotted, read⟩
        · rw [if_pos rfl, Rule.run_bind, Rule.run_skipped] at read
          rcases skip_bind_eq_some.1 read with ⟨_, _, -, -, read⟩ | ⟨-, read⟩
          · rw [if_pos rfl, Rule.run_bind] at read
            obtain ⟨_, _, -, read⟩ := bind_eq_some.1 read
            exact after read
          · exact after read
        · rw [if_neg Bool.false_ne_true, Rule.run_bind, Rule.run_skipped] at read
          rcases skip_bind_eq_some.1 read with ⟨_, _, -, -, read⟩ | ⟨uncalled, read⟩
          · exact after read
          · rw [if_neg Bool.false_ne_true, Rule.run_bind, Rule.run_skipped] at read
            rcases skip_bind_eq_some.1 read with ⟨_, _, -, -, read⟩ | ⟨unindexed, read⟩
            · exact after read
            · rw [if_neg Bool.false_ne_true, Rule.run_bind, Rule.run_seen, sees_bind] at read
              have stops (same : tokens = rest) : NoSuffix rest := by
                subst same
                refine .inr fun token first text member => ?_
                simp only [List.mem_cons, List.not_mem_nil, or_false] at member
                rcases member with rfl | rfl | rfl
                · exact undotted token first
                · exact uncalled token first
                · exact unindexed token first
              split at read
              · split at read
                · exact after read
                · exact stops (Prod.mk.inj (Option.some.inj read)).2
              · exact stops (Prod.mk.inj (Option.some.inj read)).2

theorem no_suffix_of_unary {literals : Bool}
    (read : (unary literals).read depth tokens = some ((), rest)) :
          NoSuffix rest := by
  induction depth generalizing tokens with
  | zero =>
      rw [read_zero] at read
      cases read
  | succ depth ih =>
      rw [read_succ] at read
      change (unaryRule literals).run depth _ = _ at read
      rw [unaryRule, Rule.run_bind, Rule.run_skipped] at read
      rcases skip_bind_eq_some.1 read with ⟨_, _, -, -, read⟩ | ⟨-, read⟩
      · rw [if_pos rfl, Rule.run_read] at read
        exact ih read
      · rw [if_neg Bool.false_ne_true, Rule.run_bind] at read
        obtain ⟨_, _, -, read⟩ := bind_eq_some.1 read
        rw [Rule.run_read] at read
        exact no_suffix_of_suffixes read

theorem suffixes_of_no_suffix {literals : Bool} (ends : NoSuffix tokens) :
    (suffixes literals .value).read (depth + 1) tokens = some ((), tokens) := by
  rw [read_succ]
  change (suffixesRule literals .value).run depth tokens = _
  rw [run_suffixes_rule_eq]
  split
  · rfl
  · rename_i unguarded
    have refuses {text : String} (member : text ∈ [".", "(", "["]) :
        ∀ token ∈ tokens.head?, (Test.mark text).accepts token = false :=
      fun token first => ends.resolve_left unguarded token first text member
    rw [suffixRule, Rule.run_bind, Rule.run_skipped, skip_bind_of_refuses (refuses (by decide)),
      if_neg Bool.false_ne_true, Rule.run_bind, Rule.run_skipped,
      skip_bind_of_refuses (refuses (by decide)), if_neg Bool.false_ne_true, Rule.run_bind,
      Rule.run_skipped, skip_bind_of_refuses (refuses (by decide)), if_neg Bool.false_ne_true,
      Rule.run_bind, Rule.run_seen, sees_bind]
    split <;> rfl

/-- An operand depends on how its first token is written, and not on what stands in front of it. -/
theorem operand_of_resembles {token other : Token} (resembles : token.Resembles other)
    (others : List Token) :
    operand.read depth (token :: others) = operand.read depth (other :: others) := by
  cases depth with
  | zero => rw [read_zero]; rfl
  | succ depth =>
      rw [read_succ]
      change operandRule.run depth _ = operandRule.run depth _
      have typed (kind : OperandKind) : (do
          let _ ← Rule.read typeExpr
          return kind : Rule OperandKind).run depth (token :: others) = (do
          let _ ← Rule.read typeExpr
          return kind : Rule OperandKind).run depth (other :: others) := by
        simp only [Rule.run_bind, Rule.run_read]
        rw [bind_apply, bind_apply]
        have same : typeExpr.read depth (token :: others) = typeExpr.read depth (other :: others) :=
          type_expr_of_resembles resembles others
        rw [same]
      have taken (kind : OperandKind) (test : Test) : (do
          let _ ← Rule.taken test
          return kind : Rule OperandKind).run depth (token :: others) = (do
          let _ ← Rule.taken test
          return kind : Rule OperandKind).run depth (other :: others) := by
        simp only [Rule.run_bind, Rule.run_taken, bind_map_left]
        exact resembles.take_bind rfl
      rw [operandRule, Rule.run_bind, Rule.run_next, bind_map_left, next_bind, next_bind,
        List.head?_cons, List.head?_cons, Option.map_some, Option.map_some]
      simp only [Token.glance, resembles.kind, resembles.text]
      generalize other.kind = kind, other.text = text
      split
      · rw [Rule.run_bind, Rule.run_name]
        exact resembles.name_bind
      · exact taken _ _
      · exact taken _ _
      · exact taken _ _
      · rw [Rule.run_bind, Rule.run_mark]
        exact resembles.mark_bind
      · rw [Rule.run_bind, Rule.run_keyword]
        exact resembles.keyword_bind
      · exact typed _
      · exact typed _
      · exact typed _
      · exact typed _
      · exact typed _
      · rfl

theorem unary_of_resembles {literals : Bool} {token other : Token}
    (resembles : token.Resembles other) (others : List Token) :
    (unary literals).read depth (token :: others) =
      (unary literals).read depth (other :: others) := by
  cases depth with
  | zero => rw [read_zero]; rfl
  | succ depth =>
      rw [read_succ]
      change (unaryRule literals).run depth _ = (unaryRule literals).run depth _
      rw [unaryRule, Rule.run_bind, Rule.run_skipped]
      refine resembles.skip_bind ?_
      rw [if_neg Bool.false_ne_true, Rule.run_bind, bind_apply, bind_apply, Rule.run_read,
        operand_of_resembles resembles]

theorem operand_paren {opening closing : Token} (opens : isMark "(" opening = true)
    (closes : isMark ")" closing = true)
    (read : (unary true).read depth tokens = some ((), closing :: rest))
    (enough : enoughFor (opening :: tokens).length ≤ depth) :
    operand.read depth (opening :: tokens) = some (.value, rest) := by
  have shown := is_mark_iff.1 opens
  have noOperator : ∀ token ∈ (closing :: rest).head?,
      (Test.operator binaryOperators).accepts token = false := by
    rintro token ⟨⟩
    rw [is_mark_iff] at closes
    simp [isOperator, closes, binaryOperators]
  have inner : (expr true).read depth tokens = some ((), closing :: rest) := by
    rw [(expr true).read_eq_run tokens ((enough_for_mono (Nat.le_succ _)).trans enough)]
    change (exprRule true).run depth tokens = _
    rw [exprRule, Rule.run_bind, Rule.run_read, bind_apply, read, Option.bind_some, Rule.run_bind,
      Rule.run_skipped, skip_bind_of_refuses noOperator]
    rfl
  rw [operand.read_eq_run _ enough]
  change operandRule.run depth _ = _
  rw [operandRule, Rule.run_bind, Rule.run_next, bind_map_left, next_bind, List.head?_cons,
    Option.map_some]
  simp only [Token.glance, shown]
  rw [Rule.run_bind, Rule.run_mark, mark_bind_of_is_mark opens, Rule.run_bind, Rule.run_read,
    bind_apply, inner, Option.bind_some, Rule.run_bind, Rule.run_mark, mark_bind_of_is_mark closes]
  rfl

end Reader

theorem unary_in_parens {plain wrapped : List Token} (parens : InParens plain wrapped)
    (read : (Reader.unary true).read depth (plain ++ rest) = some ((), rest))
    (enough : enoughFor (wrapped ++ rest).length ≤ depth) :
    (Reader.unary true).read depth (wrapped ++ rest) = some ((), rest) := by
  cases parens with
  | @intro first bare opening closing inner resembles uncommented opens comments closes ends =>
      have closed : Test.endsType.accepts closing = true := by simp [Test.endsType, closes]
      have alone := Reader.ends_unary depth true (first :: inner) rest () read closing rest closed
      have bared : (Reader.unary true).read depth (bare :: (inner ++ closing :: rest)) =
          some ((), closing :: rest) := (Reader.unary_of_resembles resembles _).trans alone
      have split : opening :: bare :: (inner ++ [closing]) ++ rest =
          opening :: bare :: (inner ++ closing :: rest) := by simp
      rw [split] at enough ⊢
      have operand := Reader.operand_paren opens closes bared enough
      have noOperator : ∀ token ∈ (opening :: bare :: (inner ++ closing :: rest)).head?,
          (Test.operator unaryOperators).accepts token = false := by
        rintro token ⟨⟩
        rw [is_mark_iff] at opens
        simp [isOperator, opens, unaryOperators]
      obtain ⟨bound, rfl⟩ : ∃ bound, depth = bound + 1 :=
        ⟨depth - 1, by rw [enoughFor] at enough; omega⟩
      rw [(Reader.unary true).read_eq_run _ enough]
      change (Reader.unaryRule true).run _ _ = _
      rw [Reader.unaryRule, Rule.run_bind, Rule.run_skipped, skip_bind_of_refuses noOperator,
        if_neg Bool.false_ne_true, Rule.run_bind, Rule.run_read, bind_apply, operand,
        Option.bind_some, Rule.run_read]
      exact Reader.suffixes_of_no_suffix (Reader.no_suffix_of_unary read)

/-- A pointer whose target is put in parentheses is read alike among expressions. -/
theorem carries_target {type wrapped : List Token} {star : Token} (parens : InParens type wrapped)
    (points : isMark "*" star = true) (reads : (Reader.unary true).Reads (type ++ rest) () rest)
    (enough : enoughFor (star :: (wrapped ++ rest)).length ≤ depth) :
    Carries 0 ((Reader.unary true).read depth) (star :: (type ++ rest))
      (star :: (wrapped ++ rest)) := by
  have := parens.length_le
  have enough' : enoughFor (star :: (type ++ rest)).length ≤ depth :=
    (enough_for_mono (by simp; omega)).trans enough
  have operator : (Test.operator unaryOperators).accepts star = true := by
    rw [is_mark_iff] at points
    simp [isOperator, points, unaryOperators]
  have whole {tokens : List Token} (enough : enoughFor (star :: tokens).length ≤ depth)
      (read : (Reader.unary true).read depth tokens = some ((), rest)) :
      (Reader.unary true).read depth (star :: tokens) = some ((), rest) := by
    rw [(Reader.unary true).read_eq_run _ enough]
    change (Reader.unaryRule true).run _ _ = _
    rw [Reader.unaryRule, Rule.run_bind, Rule.run_skipped, skip_bind_of_accepts operator,
      if_pos rfl, Rule.run_read, read]
  have read := reads depth ((enough_for_mono (Nat.le_succ _)).trans enough')
  refine .of_reads (whole enough' read) ?_ ((parens.ends_lower rest).cons star)
  rw [lower_zero]
  exact whole enough (unary_in_parens parens read ((enough_for_mono (Nat.le_succ _)).trans enough))

end EndpointAtlas.Go
