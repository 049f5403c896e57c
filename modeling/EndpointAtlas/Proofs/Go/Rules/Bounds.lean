import EndpointAtlas.Proofs.Go.Rules.Tokens

/-!
Bounds of readers. A reader calls readers of its own rank or of higher ranks only after it has taken
a token, so that from some bound on, which the number of the tokens gives, its bound does not
matter.
-/

namespace EndpointAtlas.Go

open EndpointAtlas.Go.Parser

variable {α β : Type} {tokens rest : List Token}

/-- Two readers that read on in the same way after they have read the same. -/
theorem bind_congr_of {first other : Parser α} {next further : α → Parser β}
    (same : first tokens = other tokens)
    (go : ∀ value rest, first tokens = some (value, rest) → next value rest = further value rest) :
    (first >>= next) tokens = (other >>= further) tokens := by
  rw [bind_apply, bind_apply, ← same]
  cases found : first tokens with
  | none => rfl
  | some pair => exact go pair.1 pair.2 found

/-- Whether readers are read alike wherever no more tokens are left. -/
def SameUpTo (count : Nat) (one other : Parser α) : Prop :=
  ∀ tokens, tokens.length ≤ count → one tokens = other tokens

namespace SameUpTo

variable {count bound further : Nat} {one other : Parser α}

theorem mono {less : Nat} (same : SameUpTo count one other) (le : less ≤ count) :
    SameUpTo less one other :=
  fun tokens few => same tokens (Nat.le_trans few le)

theorem symm (same : SameUpTo count one other) : SameUpTo count other one :=
  fun tokens few => (same tokens few).symm

theorem listed {divides : Token → Bool} {close : String} {before : List Sibling}
    {found : List (Option (List String) × α)} (same : SameUpTo count one other)
    (shrinks : Shrinks one) (listed : Listed divides one close bound before tokens found rest)
    (few : tokens.length ≤ count) (enough : tokens.length < further) :
    Listed divides other close further before tokens found rest := by
  induction listed generalizing further with
  | closed closes =>
      obtain ⟨further, rfl⟩ := Nat.exists_eq_add_one_of_ne_zero (Nat.ne_zero_of_lt enough)
      exact .closed closes
  | last stays read ends closes =>
      obtain ⟨further, rfl⟩ := Nat.exists_eq_add_one_of_ne_zero (Nat.ne_zero_of_lt enough)
      exact .last stays ((same _ few).symm.trans read) ends closes
  | more stays read goes _ ih =>
      obtain ⟨further, rfl⟩ := Nat.exists_eq_add_one_of_ne_zero (Nat.ne_zero_of_lt enough)
      have fewer := (shrinks _ _ _ read).length_le
      rw [List.length_cons] at fewer
      exact .more stays ((same _ few).symm.trans read) goes (ih (by omega) (by omega))

protected theorem items {divides : Token → Bool} {close : String} {before : List Sibling}
    (same : SameUpTo count one other) (shrinks : Shrinks one) (shrinks' : Shrinks other)
    (lower : count < bound) (lower' : count < further) :
    SameUpTo count (items divides bound one close before)
      (items divides further other close before) := by
  refine fun tokens few => Option.ext fun pair => ⟨fun read => ?_, fun read => ?_⟩
  · exact (same.listed shrinks (listed_of_items read) few (by omega)).items
  · exact (same.symm.listed shrinks' (listed_of_items read) few (by omega)).items

/-- The opening bracket is taken first, so that fewer tokens are left to the items. -/
protected theorem bracketed (same : SameUpTo count one other) (shrinks : Shrinks one)
    (shrinks' : Shrinks other) (lower : count < bound) (lower' : count < further)
    (opening closing : String) :
    SameUpTo (count + 1) (bracketed opening closing bound one)
      (bracketed opening closing further other) := by
  intro tokens few
  cases tokens with
  | nil => rfl
  | cons token others =>
      rw [bracketed_eq_items, bracketed_eq_items,
        same.items shrinks shrinks' lower lower' others (Nat.le_of_succ_le_succ few)]

protected theorem comma_list (same : SameUpTo count one other) (shrinks : Shrinks one)
    (shrinks' : Shrinks other) (lower : count < bound) (lower' : count < further)
    (close : String) :
    SameUpTo count (commaList bound one close) (commaList further other close) := by
  intro tokens few
  rw [comma_list_eq_items shrinks bound close [], comma_list_eq_items shrinks' further close [],
    map_apply, map_apply, same.items shrinks shrinks' lower lower' tokens few]

protected theorem comma_list1 (same : SameUpTo count one other) (shrinks : Shrinks one)
    (lower : count < bound) (lower' : count < further) :
    SameUpTo count (commaList1 bound one) (commaList1 further other) := by
  induction bound generalizing count further with
  | zero => exact absurd lower (Nat.not_lt_zero _)
  | succ bound ih =>
      obtain ⟨further, rfl⟩ := Nat.exists_eq_add_one_of_ne_zero (Nat.ne_zero_of_lt lower')
      intro tokens few
      refine bind_congr_of (same _ few) fun first middle read => ?_
      have within := (shrinks _ _ _ read).length_le
      refine bind_congr_of rfl fun more left skipped => ?_
      obtain ⟨rfl, token, rfl, -⟩ | ⟨rfl, rfl, -⟩ := skip_eq_some skipped
      · rw [List.length_cons] at within
        refine bind_congr_of ?_ fun _ _ _ => rfl
        have fewer : SameUpTo left.length one other := same.mono (by omega)
        exact ih fewer (by omega) (by omega) left (Nat.le_refl _)
      · rfl

end SameUpTo

/-- A reader calls readers of its own rank or of higher ranks only after it has taken a token. -/
def Reader.rank : Reader α → Nat
  | typeName | uninterpretedType | paramList | literalValue | block | valueDecl | typeDecl
  | typeSpec
  | ifStmt | forStmt | switchStmt | switchClauses | selectClauses => 1
  | typeExpr | suffixes _ _ => 2
  | signature | paramItem | fieldDecl | constraint | operand => 3
  | element | typeParams | unary _ => 4
  | expr _ => 5
  | callArguments | indices | simpleStmt _ _ => 6
  | stmt => 7
  | clauseStmts => 8

theorem Reader.rank_lt (reader : Reader α) : reader.rank < 40 := by
  cases reader <;> simp [rank]

theorem Reader.rank_pos (reader : Reader α) : 0 < reader.rank := by
  cases reader <;> simp [rank]

/-- Whether a rule calls readers only of lower ranks until it has taken a token. -/
def Rule.Guarded (rank : Nat) : {α : Type} → Rule α → Prop
  | _, done _ => True
  | _, refuse => True
  | _, head next => ∀ glance, (next glance).Guarded rank
  | _, sees _ next => ∀ seen, (next seen).Guarded rank
  | _, look _ next => ∀ seen, (next seen).Guarded rank
  | _, skip _ next => (next false).Guarded rank
  | _, take _ _ => True
  | _, call reader next =>
      reader.rank < rank ∧ (reader.takes = true ∨ ∀ value, (next value).Guarded rank)
  | _, span inner next => inner.Guarded rank ∧ ∀ value text, (next value text).Guarded rank
  | _, commas item _ _ => item.Guarded rank
  | _, commas1 item next => item.Guarded rank ∧ ∀ values, (next values).Guarded rank
  | _, group _ _ _ _ => True

def Body.Guarded (rank : Nat) : Body α → Prop
  | .one rule => rule.Guarded rank
  | .two first second => first.Guarded rank ∧ second.Guarded rank
  | .method rule other => rule.Guarded rank ∧ other.Guarded rank

namespace Rule

theorem guarded_ite {rank : Nat} (condition : Prop) [Decidable condition] (one other : Rule α) :
    (if condition then one else other).Guarded rank ↔
      (condition → one.Guarded rank) ∧ (¬condition → other.Guarded rank) := by
  split <;> simp [*]

end Rule

section

attribute [local simp] Rule.mark Rule.keyword Rule.name Rule.next Rule.skipped Rule.seen
  Rule.looked Rule.taken Rule.read Rule.failUnless Rule.list Rule.list1 Rule.siblings Rule.text
  Rule.bind_eq Rule.pure_eq Rule.bind_ite Rule.bind Rule.Guarded Rule.guarded_ite Reader.rank
  Reader.takes

theorem Reader.guarded_body (reader : Reader α) : reader.body.Guarded reader.rank := by
  cases reader <;> dsimp only [body, Body.Guarded]
  case typeExpr =>
    rintro (_ | first)
    · trivial
    · simp only [Rule.bind_eq, Rule.bind]
      split <;> simp
  case operand =>
    rintro (_ | first)
    · trivial
    · simp only [Rule.bind_eq, Rule.bind]
      split <;> simp
  case stmt =>
    rintro (_ | _)
    · rintro (_ | first)
      · trivial
      · simp only [Rule.bind_eq, Rule.bind]
        split <;> simp [Rule.values]
    · trivial
  all_goals
    simp [uninterpretedTypeRule, typeNameRule, signatureRule, paramListRule, constraintRule,
      typeParamsRule, exprRule, unaryRule, suffixesRule, suffixRule, callArgumentsRule,
      indicesRule, literalValueRule, simpleStmtRule, blockRule, ifStmtRule, forStmtRule,
      switchStmtRule, clausesRule, clauseStmtsRule, valueDeclRule, typeDeclRule,
      Rule.namedParam, Rule.paramType, Rule.namedFields, Rule.embeddedField, Rule.method,
      Rule.plainSpec, Rule.genericSpec, Rule.spec, Rule.ended, Rule.fieldTag]

end

/-- A rule does the same with two bounds if the readers that it calls do so. They are called on no
more tokens, and on fewer tokens if their rank is not lower. -/
theorem Rule.run_eq_run {count rank bound further : Nat}
    (below : ∀ {β : Type} (reader : Reader β) (tokens : List Token),
      40 * tokens.length + reader.rank < 40 * count + rank →
        reader.read bound tokens = reader.read further tokens)
    (lower : count < bound) (lower' : count < further) (rule : Rule α) (tokens : List Token)
    (few : tokens.length ≤ count) (guarded : tokens.length < count ∨ rule.Guarded rank) :
    rule.run bound tokens = rule.run further tokens := by
  have called {β : Type} (reader : Reader β) (tokens : List Token) (few : tokens.length ≤ count)
      (guarded : tokens.length < count ∨ reader.rank < rank) :
      reader.read bound tokens = reader.read further tokens := by
    have := reader.rank_lt
    exact below reader tokens (by omega)
  induction rule generalizing tokens with
  | done value => rfl
  | refuse => rfl
  | head next ih | sees test next ih | look kind next ih =>
      exact ih _ tokens few (guarded.imp_right fun all => all _)
  | skip test next ih =>
      refine bind_congr_of rfl fun skipped rest read => ?_
      obtain ⟨rfl, token, rfl, -⟩ | ⟨rfl, rfl, -⟩ := skip_eq_some read
      · exact ih _ rest (Nat.le_of_succ_le few) (.inl few)
      · exact ih _ tokens few guarded
  | take test next ih =>
      refine bind_congr_of rfl fun token rest read => ?_
      obtain ⟨rfl, -⟩ := take_eq_some.1 read
      exact ih _ rest (Nat.le_of_succ_le few) (.inl few)
  | call reader next ih =>
      refine bind_congr_of (called _ tokens few (guarded.imp_right And.left))
        fun value rest read => ?_
      have fewer := (reader.shrinks_read _ _ _ _ read).length_le
      refine ih value rest (fewer.trans few) ?_
      rcases guarded with less | ⟨-, takes | all⟩
      · exact .inl (fewer.trans_lt less)
      · exact .inl ((reader.consumes_read takes _ _ _ _ read).trans_le few)
      · exact .inr (all value)
  | span inner next ihInner ih =>
      refine bind_congr_of ?_ fun pair rest read => ?_
      · rw [withTokens, withTokens, ihInner tokens few (guarded.imp_right And.left)]
      · obtain ⟨read, -⟩ := with_tokens_eq_some.1 read
        have fewer := (inner.shrinks_run _ _ _ _ read).length_le
        exact ih _ _ rest (fewer.trans few) (guarded.imp fewer.trans_lt fun all => all.2 _ _)
  | commas item close next ihItem ih =>
      refine bind_congr_of ?_ fun values rest read => ?_
      · have same : SameUpTo tokens.length (item.run bound) (item.run further) :=
          fun others fewer => ihItem others (fewer.trans few) (guarded.imp fewer.trans_lt id)
        exact same.comma_list (item.shrinks_run _) (item.shrinks_run _) (few.trans_lt lower)
          (few.trans_lt lower') close tokens le_rfl
      · obtain ⟨found, listed, -⟩ := comma_list_eq_some (item.shrinks_run _) read
        have fewer := listed.shorter (item.shrinks_run _)
        exact ih values rest (fewer.le.trans few) (.inl (fewer.trans_le few))
  | commas1 item next ihItem ih =>
      refine bind_congr_of ?_ fun values rest read => ?_
      · have same : SameUpTo tokens.length (item.run bound) (item.run further) :=
          fun others fewer => ihItem others (fewer.trans few)
            (guarded.imp fewer.trans_lt And.left)
        exact same.comma_list1 (item.shrinks_run _) (few.trans_lt lower) (few.trans_lt lower')
          tokens le_rfl
      · have fewer := ((item.shrinks_run _).comma_list1 _ _ _ _ read).length_le
        exact ih values rest (fewer.trans few) (guarded.imp fewer.trans_lt fun all => all.2 values)
  | group opening closing item next ihItem ih =>
      refine bind_congr_of ?_ fun values rest read => ?_
      · cases tokens with
        | nil => rfl
        | cons token others =>
            have same : SameUpTo others.length (item.run bound) (item.run further) :=
              fun further fewer => ihItem further ((Nat.le_succ_of_le fewer).trans few)
                (.inl (Nat.lt_of_lt_of_le (Nat.lt_succ_of_le fewer) few))
            have lower := (Nat.lt_of_succ_le few).trans lower
            have lower' := (Nat.lt_of_succ_le few).trans lower'
            exact same.bracketed (item.shrinks_run _) (item.shrinks_run _) lower lower' opening
              closing (token :: others) le_rfl
      · obtain ⟨token, others, rfl, -, listed⟩ := bracketed_eq_some read
        have fewer := listed.shorter (item.shrinks_run _)
        exact ih values rest (by rw [List.length_cons] at few; omega)
          (.inl (by rw [List.length_cons] at few; omega))

theorem Body.run_eq_run {count rank bound further : Nat}
    (below : ∀ {β : Type} (reader : Reader β) (tokens : List Token),
      40 * tokens.length + reader.rank < 40 * count + rank →
        reader.read bound tokens = reader.read further tokens)
    (lower : count < bound) (lower' : count < further) (body : Body α) (tokens : List Token)
    (few : tokens.length ≤ count) (guarded : body.Guarded rank) :
    body.run bound tokens = body.run further tokens := by
  cases body with
  | one rule => exact rule.run_eq_run below lower lower' tokens few (.inr guarded)
  | two first second =>
      rw [run, run, either, either, first.run_eq_run below lower lower' tokens few (.inr guarded.1),
        second.run_eq_run below lower lower' tokens few (.inr guarded.2)]
  | method rule other =>
      refine bind_congr_of rfl fun starts rest read => ?_
      obtain ⟨rfl, rfl⟩ := Prod.mk.inj (Option.some.inj read)
      cases startsMethod tokens with
      | true => exact rule.run_eq_run below lower lower' tokens few (.inr guarded.1)
      | false => exact other.run_eq_run below lower lower' tokens few (.inr guarded.2)

/-- From a bound on that the tokens give, the bound of a reader does not matter. -/
theorem Reader.read_eq_read (reader : Reader α) (tokens : List Token) {bound further : Nat}
    (enough : 40 * tokens.length + reader.rank < bound)
    (enough' : 40 * tokens.length + reader.rank < further) :
    reader.read bound tokens = reader.read further tokens := by
  induction size : 40 * tokens.length + reader.rank using Nat.strong_induction_on
    generalizing α tokens bound further with
  | _ size ih =>
      have positive := reader.rank_pos
      obtain ⟨bound, rfl⟩ := Nat.exists_eq_add_one_of_ne_zero (Nat.ne_zero_of_lt enough)
      obtain ⟨further, rfl⟩ := Nat.exists_eq_add_one_of_ne_zero (Nat.ne_zero_of_lt enough')
      rw [read_succ, read_succ]
      refine reader.body.run_eq_run (fun inner others less => ?_) (by omega) (by omega) tokens
        le_rfl reader.guarded_body
      exact ih _ (size ▸ less) inner others (by omega) (by omega) rfl

def enoughFor (count : Nat) : Nat := 40 * (count + 1)

theorem Rule.run_eq_run_of_enough (rule : Rule α) (tokens : List Token) {bound further : Nat}
    (enough : enoughFor tokens.length ≤ bound) (enough' : enoughFor tokens.length ≤ further) :
    rule.run bound tokens = rule.run further tokens := by
  unfold enoughFor at enough enough'
  refine @Rule.run_eq_run _ (tokens.length + 1) 0 _ _ (fun inner others less => ?_) (by omega)
    (by omega) rule tokens (by omega) (.inl (by omega))
  exact inner.read_eq_read others (by omega) (by omega)

theorem Reader.read_eq_run (reader : Reader α) (tokens : List Token) {bound : Nat}
    (enough : enoughFor tokens.length ≤ bound) :
    reader.read bound tokens = reader.body.run bound tokens := by
  have := reader.rank_lt
  unfold enoughFor at enough
  rw [← read_succ]
  exact reader.read_eq_read tokens (by omega) (by omega)

end EndpointAtlas.Go
