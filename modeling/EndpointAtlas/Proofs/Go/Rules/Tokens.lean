import EndpointAtlas.Proofs.Go.Rules.Lists

/-!
What rules take. They take tokens off the front only, and all readers take at least one token but
those of what may be empty: statements and what follows an operand.
-/

namespace EndpointAtlas.Go

open EndpointAtlas.Go.Parser

variable {α β : Type} {all tokens rest : List Token}

namespace Finds

protected theorem take (accept : Token → Bool) : Finds all (take accept) fun _ => True := by
  intro tokens token rest within read
  obtain ⟨rfl, -⟩ := take_eq_some.1 read
  exact ⟨List.suffix_cons token rest, trivial⟩

protected theorem with_tokens {reader : Parser α} (finds : Finds all reader fun _ => True) :
    Finds all (withTokens reader) fun _ => True := by
  intro tokens pair rest within read
  exact ⟨(finds tokens pair.1 rest within (with_tokens_eq_some.1 read).1).1, trivial⟩

protected theorem comma_list1 {item : Parser α} (finds : Finds all item fun _ => True)
    (depth : Nat) : Finds all (commaList1 depth item) fun _ => True := by
  induction depth with
  | zero => exact .failure
  | succ depth ih =>
      unfold Parser.commaList1
      refine .later finds fun first => .later (.skip _) fun more => .ite ?_ (.pure trivial)
      exact .later ih fun others => .pure trivial

protected theorem map {reader : Parser α} (finds : Finds all reader fun _ => True)
    (change : α → β) : Finds all (change <$> reader) fun _ => True := by
  rw [← bind_pure_comp]
  exact .later finds fun _ => .pure trivial

theorem weaken {reader : Parser α} {holds : α → Prop} (finds : Finds all reader holds) :
    Finds all reader fun _ => True :=
  fun tokens result rest within read => ⟨(finds tokens result rest within read).1, trivial⟩

protected theorem bracketed {item : Parser α} (finds : Finds all item fun _ => True)
    (opening closing : String) (depth : Nat) :
    Finds all (bracketed opening closing depth item) fun _ => True := by
  unfold bracketed
  refine .later .next fun next => ?_
  cases next with
  | none => exact .failure
  | some first =>
      exact .later (.mark _) fun _ => (Finds.sibling_list (fun _ _ => finds.map _) depth _ _).weaken

end Finds

/-- What a rule takes it takes off the front, if the readers that it calls do so. -/
theorem Rule.finds_run {depth : Nat}
    (below : ∀ {β : Type} (reader : Reader β), Finds all (reader.read depth) fun _ => True)
    (rule : Rule α) : Finds all (rule.run depth) fun _ => True := by
  induction rule with
  | done value => exact .pure trivial
  | refuse => exact .failure
  | head next ih => exact .later .next fun _ => ih _
  | sees test next ih => exact .later (.sees _) fun _ => ih _
  | look kind next ih =>
      refine .later ?_ fun _ => ih _
      rintro tokens seen rest within ⟨⟩
      exact ⟨List.suffix_rfl, trivial⟩
  | skip test next ih => exact .later (.skip _) fun _ => ih _
  | take test next ih => exact .later (.take _) fun _ => ih _
  | call reader next ih => exact .later (below reader) fun _ => ih _
  | span inner next ihInner ih => exact .later ihInner.with_tokens fun _ => ih _ _
  | commas item close next ihItem ih =>
      exact .later (Finds.comma_list ihItem depth close).weaken fun _ => ih _
  | commas1 item next ihItem ih => exact .later (ihItem.comma_list1 depth) fun _ => ih _
  | group opening closing item next ihItem ih =>
      exact .later (ihItem.bracketed opening closing depth) fun _ => ih _

theorem Body.finds_run {depth : Nat}
    (below : ∀ {β : Type} (reader : Reader β), Finds all (reader.read depth) fun _ => True)
    (body : Body α) : Finds all (body.run depth) fun _ => True := by
  cases body with
  | one rule => exact rule.finds_run below
  | two first second => exact .either (first.finds_run below) (second.finds_run below)
  | method rule other =>
      refine .later ?_ fun _ => .ite (rule.finds_run below) (other.finds_run below)
      rintro tokens seen rest within ⟨⟩
      exact ⟨List.suffix_rfl, trivial⟩

theorem Reader.finds_read (reader : Reader α) (depth : Nat) :
    Finds all (reader.read depth) fun _ => True := by
  induction depth generalizing α with
  | zero =>
      rw [Reader.read_zero]
      exact .failure
  | succ depth ih =>
      rw [Reader.read_succ]
      exact reader.body.finds_run ih

theorem Shrinks.of_finds {reader : Parser α} (finds : ∀ all, Finds all reader fun _ => True) :
    Shrinks reader :=
  fun tokens value rest read => (finds tokens tokens value rest List.suffix_rfl read).1

theorem Shrinks.finds {reader : Parser α} (shrinks : Shrinks reader) :
    Finds all reader fun _ => True :=
  fun tokens value rest _ read => ⟨shrinks tokens value rest read, trivial⟩

theorem Reader.shrinks_read (reader : Reader α) (depth : Nat) : Shrinks (reader.read depth) :=
  .of_finds fun _ => reader.finds_read depth

theorem Rule.shrinks_run (rule : Rule α) (depth : Nat) : Shrinks (rule.run depth) :=
  .of_finds fun _ => rule.finds_run fun reader => reader.finds_read depth

protected theorem Shrinks.comma_list1 {item : Parser α} (shrinks : Shrinks item) (bound : Nat) :
    Shrinks (commaList1 bound item) :=
  .of_finds fun _ => shrinks.finds.comma_list1 bound

protected theorem Shrinks.comma_list {item : Parser α} (shrinks : Shrinks item) (bound : Nat)
    (close : String) : Shrinks (commaList bound item close) :=
  .of_finds fun _ => (Finds.comma_list shrinks.finds bound close).weaken

protected theorem Shrinks.bracketed {item : Parser α} (shrinks : Shrinks item)
    (opening closing : String) (bound : Nat) : Shrinks (bracketed opening closing bound item) :=
  .of_finds fun _ => shrinks.finds.bracketed opening closing bound

def Consumes (parser : Parser α) : Prop :=
  ∀ tokens value rest, parser tokens = some (value, rest) → rest.length < tokens.length

namespace Consumes

theorem before {first : Parser α} {next : α → Parser β} (consumes : Consumes first)
    (shrinks : ∀ value, Shrinks (next value)) : Consumes (first >>= next) := by
  intro tokens value rest read
  obtain ⟨found, middle, taken, further⟩ := bind_eq_some.1 read
  exact (shrinks _ _ _ _ further).length_le.trans_lt (consumes _ _ _ taken)

theorem after {first : Parser α} {next : α → Parser β} (shrinks : Shrinks first)
    (consumes : ∀ value, Consumes (next value)) : Consumes (first >>= next) := by
  intro tokens value rest read
  obtain ⟨found, middle, taken, further⟩ := bind_eq_some.1 read
  exact (consumes _ _ _ _ further).trans_le (shrinks _ _ _ taken).length_le

protected theorem take (accept : Token → Bool) : Consumes (take accept) := by
  intro tokens token rest read
  obtain ⟨rfl, -⟩ := take_eq_some.1 read
  exact Nat.lt_succ_self _

protected theorem with_tokens {parser : Parser α} (consumes : Consumes parser) :
    Consumes (withTokens parser) :=
  fun tokens pair rest read => consumes tokens pair.1 rest (with_tokens_eq_some.1 read).1

section

variable {item : Parser α}

protected theorem comma_list (shrinks : Shrinks item) (bound : Nat) (close : String) :
    Consumes (commaList bound item close) := by
  intro tokens values rest read
  obtain ⟨found, listed, -⟩ := comma_list_eq_some shrinks read
  exact listed.shorter shrinks

protected theorem comma_list1 (consumes : Consumes item) (shrinks : Shrinks item) (bound : Nat) :
    Consumes (commaList1 bound item) := by
  cases bound with
  | zero => exact nofun
  | succ bound =>
      refine .before consumes fun first => .of_finds fun _ => .later (.skip _) fun _ => ?_
      refine .ite (.later ?_ fun _ => .pure trivial) (.pure trivial)
      exact (shrinks.comma_list1 bound).finds

protected theorem bracketed (shrinks : Shrinks item) (opening closing : String) (bound : Nat) :
    Consumes (bracketed opening closing bound item) := by
  intro tokens found rest read
  obtain ⟨token, others, rfl, -, listed⟩ := bracketed_eq_some read
  exact (listed.shorter shrinks).trans (Nat.lt_succ_self _)

end

end Consumes

def Reader.takes : Reader α → Bool
  | suffixes _ _ | simpleStmt _ _ | stmt | clauseStmts => false
  | _ => true

/-- Whether a rule takes at least one token if the readers that it calls do as they should. -/
def Rule.Takes : {α : Type} → Rule α → Prop
  | _, done _ => False
  | _, refuse => True
  | _, head next => ∀ glance, (next glance).Takes
  | _, sees _ next => ∀ seen, (next seen).Takes
  | _, look _ next => ∀ seen, (next seen).Takes
  | _, skip _ next => (next false).Takes
  | _, take _ _ => True
  | _, call reader next => reader.takes = true ∨ ∀ value, (next value).Takes
  | _, span inner next => inner.Takes ∨ ∀ value text, (next value text).Takes
  | _, commas _ _ _ => True
  | _, commas1 item next => item.Takes ∨ ∀ values, (next values).Takes
  | _, group _ _ _ _ => True

def Body.Takes : Body α → Prop
  | .one rule => rule.Takes
  | .two first second => first.Takes ∧ second.Takes
  | .method rule other => rule.Takes ∧ other.Takes

namespace Rule

theorem bind_eq (rule : Rule α) (next : α → Rule β) : rule >>= next = rule.bind next := rfl

theorem pure_eq (value : α) : (pure value : Rule α) = done value := rfl

theorem bind_ite (condition : Prop) [Decidable condition] (one other : Rule α)
    (next : α → Rule β) : (if condition then one else other).bind next =
      if condition then one.bind next else other.bind next := by
  split <;> rfl

theorem takes_ite (condition : Prop) [Decidable condition] (one other : Rule α) :
    (if condition then one else other).Takes ↔
      (condition → one.Takes) ∧ (¬condition → other.Takes) := by
  split <;> simp [*]

end Rule

section

attribute [local simp] Rule.mark Rule.keyword Rule.name Rule.next Rule.skipped Rule.seen
  Rule.looked Rule.taken Rule.read Rule.failUnless Rule.list Rule.list1 Rule.siblings Rule.text
  Rule.bind_eq Rule.pure_eq Rule.bind_ite Rule.bind Rule.Takes Rule.takes_ite Reader.takes

theorem Reader.takes_body (reader : Reader α) (takes : reader.takes = true) :
    reader.body.Takes := by
  cases reader <;> dsimp only [body, Body.Takes]
  case suffixes | simpleStmt | stmt | clauseStmts => cases takes
  case typeExpr =>
    rintro (_ | first)
    · trivial
    · simp only [Rule.bind_eq, Rule.bind]
      split <;> simp
  case operand =>
    rintro (_ | first)
    · trivial
    · simp only [Rule.bind_eq, Rule.bind]
      split <;> simp
  all_goals
    simp [uninterpretedTypeRule, typeNameRule, signatureRule, paramListRule, constraintRule,
      typeParamsRule, exprRule, unaryRule, callArgumentsRule, indicesRule, literalValueRule,
      blockRule, ifStmtRule, forStmtRule, switchStmtRule, clausesRule, valueDeclRule, typeDeclRule,
      Rule.namedParam, Rule.paramType, Rule.namedFields, Rule.embeddedField, Rule.method,
      Rule.plainSpec, Rule.genericSpec, Rule.spec, Rule.ended]

end

theorem Rule.consumes_run {depth : Nat}
    (below : ∀ {β : Type} (reader : Reader β), reader.takes = true → Consumes (reader.read depth))
    (rule : Rule α) (takes : rule.Takes) : Consumes (rule.run depth) := by
  have further {β γ : Type} {next : γ → Rule β} (value : γ) : Shrinks ((next value).run depth) :=
    (next value).shrinks_run depth
  induction rule with
  | done value => exact takes.elim
  | refuse => exact nofun
  | head next ih => exact .after (.of_finds fun _ => .next) fun _ => ih _ (takes _)
  | sees test next ih => exact .after (.of_finds fun _ => .sees _) fun _ => ih _ (takes _)
  | look kind next ih =>
      refine .after ?_ fun _ => ih _ (takes _)
      rintro tokens seen rest ⟨⟩
      exact List.suffix_rfl
  | skip test next ih =>
      intro tokens value rest read
      obtain ⟨skipped, middle, taken, left⟩ := bind_eq_some.1 read
      obtain ⟨rfl, token, rfl, -⟩ | ⟨rfl, rfl, -⟩ := skip_eq_some taken
      · exact Nat.lt_succ_of_le ((next true).shrinks_run _ _ _ _ left).length_le
      · exact ih _ takes _ _ _ left
  | take test next ih => exact .before (.take _) further
  | call reader next ih =>
      rcases takes with takes | takes
      · exact .before (below reader takes) further
      · exact .after (reader.shrinks_read _) fun _ => ih _ (takes _)
  | span inner next ihInner ih =>
      rcases takes with takes | takes
      · exact .before (ihInner takes).with_tokens fun _ => further _
      · exact .after (.of_finds fun _ => .with_tokens (inner.shrinks_run _).finds)
          fun _ => ih _ _ (takes _ _)
  | commas item close next ihItem ih => exact .before (.comma_list (item.shrinks_run _) _ _) further
  | commas1 item next ihItem ih =>
      rcases takes with takes | takes
      · exact .before (.comma_list1 (ihItem takes) (item.shrinks_run _) _) further
      · exact .after ((item.shrinks_run _).comma_list1 _) fun _ => ih _ (takes _)
  | group opening closing item next ihItem ih =>
      exact .before (.bracketed (item.shrinks_run _) _ _ _) further

theorem Body.consumes_run {depth : Nat}
    (below : ∀ {β : Type} (reader : Reader β), reader.takes = true → Consumes (reader.read depth))
    (body : Body α) (takes : body.Takes) : Consumes (body.run depth) := by
  cases body with
  | one rule => exact rule.consumes_run below takes
  | two first second =>
      intro tokens value rest read
      rcases either_eq_some read with read | read
      · exact first.consumes_run below takes.1 _ _ _ read
      · exact second.consumes_run below takes.2 _ _ _ read
  | method rule other =>
      intro tokens value rest read
      obtain ⟨starts, middle, seen, read⟩ := bind_eq_some.1 read
      obtain ⟨rfl, rfl⟩ := Prod.mk.inj (Option.some.inj seen)
      cases starts : startsMethod tokens with
      | true =>
          rw [starts] at read
          exact rule.consumes_run below takes.1 _ _ _ read
      | false =>
          rw [starts] at read
          exact other.consumes_run below takes.2 _ _ _ read

theorem Reader.consumes_read (reader : Reader α) (takes : reader.takes = true) (depth : Nat) :
    Consumes (reader.read depth) := by
  induction depth generalizing α with
  | zero =>
      rw [read_zero]
      exact nofun
  | succ depth ih =>
      rw [read_succ]
      exact reader.body.consumes_run (fun inner takes => ih inner takes) (reader.takes_body takes)

end EndpointAtlas.Go
