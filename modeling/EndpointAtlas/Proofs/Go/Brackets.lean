import EndpointAtlas.Go.SourceFile

/-!
Brackets in Go source. Whatever a reader of the grammar accepts, the tokens that it takes close the
brackets that they open, and a terminator stands among them only inside brackets. So the
declarations of a level can be told apart by the tokens alone.
-/

namespace EndpointAtlas.Go

open EndpointAtlas.Go.Parser

inductive Bracket where
  | round
  | square
  | curly
  deriving DecidableEq, Repr

namespace Bracket

def opening : Bracket → String
  | round => "("
  | square => "["
  | curly => "\x7b"

def closing : Bracket → String
  | round => ")"
  | square => "]"
  | curly => "\x7d"

def all : List Bracket := [round, square, curly]

end Bracket

def Token.opens? (token : Token) : Option Bracket :=
  if token.kind = .mark then Bracket.all.find? (·.opening == token.text) else none

def Token.closes? (token : Token) : Option Bracket :=
  if token.kind = .mark then Bracket.all.find? (·.closing == token.text) else none

/-- The brackets that are still open after a token, the inner ones first. -/
def pendingStep (pending : List Bracket) (token : Token) : Option (List Bracket) :=
  match token.opens?, pending with
  | some bracket, pending => some (bracket :: pending)
  | none, [] => if token.closes?.isSome || isTerminator token then none else some []
  | none, inner :: outer =>
      match token.closes? with
      | some bracket => if bracket = inner then some outer else none
      | none => some (inner :: outer)

def pendingAfter (pending : List Bracket) (tokens : List Token) : Option (List Bracket) :=
  tokens.foldlM pendingStep pending

/-- Whether the brackets of tokens belong together, with terminators only inside them. A declaration
or an element of a list is balanced. -/
def Balanced (tokens : List Token) : Prop := pendingAfter [] tokens = some []

instance (tokens : List Token) : Decidable (Balanced tokens) :=
  inferInstanceAs (Decidable (pendingAfter [] tokens = some []))

/-- Whether the tokens that the reader takes off the front of these turn the pending brackets into
others. -/
def MovesOn (tokens : List Token) (pending : List Bracket) (reader : Parser α)
    (after : List Bracket) : Prop :=
  ∀ result rest, reader tokens = some (result, rest) →
    ∃ taken, tokens = taken ++ rest ∧ pendingAfter pending taken = some after

def Moves (pending : List Bracket) (reader : Parser α) (after : List Bracket) : Prop :=
  ∀ tokens, MovesOn tokens pending reader after

/-- Whether the reader leaves the pending brackets as they are, wherever it is used. -/
def Keeps (reader : Parser α) : Prop := ∀ pending, Moves pending reader pending

def KeepsInside (reader : Parser α) : Prop :=
  ∀ inner outer, Moves (inner :: outer) reader (inner :: outer)

theorem Keeps.inside {reader : Parser α} (keeps : Keeps reader) : KeepsInside reader :=
  fun inner outer => keeps (inner :: outer)

def Plain (accept : Token → Bool) : Prop :=
  ∀ token, accept token = true → ∀ pending, pendingStep pending token = some pending

def FreeOfBrackets (marks : List String) : Prop :=
  ∀ text ∈ marks, ∀ bracket : Bracket, bracket.opening ≠ text ∧ bracket.closing ≠ text

section

variable {token : Token} {bracket : Bracket} {pending between after : List Bracket}

theorem pending_after_append (pending : List Bracket) (tokens others : List Token) :
    pendingAfter pending (tokens ++ others) =
      (pendingAfter pending tokens).bind fun between => pendingAfter between others :=
  List.foldlM_append

theorem Balanced.append {tokens others : List Token} (one : Balanced tokens)
    (other : Balanced others) : Balanced (tokens ++ others) := by
  unfold Balanced at *
  rw [pending_after_append, one]
  exact other

theorem pending_step_of_plain (opens : token.opens? = none) (closes : token.closes? = none)
    (ends : isTerminator token = false) (pending : List Bracket) :
    pendingStep pending token = some pending := by
  cases pending <;> simp [pendingStep, opens, closes, ends]

theorem pending_step_opening (accepted : isMark bracket.opening token = true) :
    pendingStep pending token = some (bracket :: pending) := by
  simp only [isMark, Bool.and_eq_true, beq_iff_eq] at accepted
  have opens : token.opens? = some bracket := by
    rw [Token.opens?, if_pos accepted.1, accepted.2]
    cases bracket <;> rfl
  simp [pendingStep, opens]

theorem pending_step_closing (accepted : isMark bracket.closing token = true) :
    pendingStep (bracket :: pending) token = some pending := by
  simp only [isMark, Bool.and_eq_true, beq_iff_eq] at accepted
  have opens : token.opens? = none := by
    rw [Token.opens?, if_pos accepted.1, accepted.2]
    cases bracket <;> rfl
  have closes : token.closes? = some bracket := by
    rw [Token.closes?, if_pos accepted.1, accepted.2]
    cases bracket <;> rfl
  simp [pendingStep, opens, closes]

theorem pending_step_terminator (ends : isTerminator token = true) :
    pendingStep (bracket :: pending) token = some (bracket :: pending) := by
  have kind : token.kind = .terminator := by simpa [isTerminator] using ends
  simp [pendingStep, Token.opens?, Token.closes?, kind]

theorem pending_step_nil_terminator (ends : isTerminator token = true) :
    pendingStep [] token = none := by
  have kind : token.kind = .terminator := by simpa [isTerminator] using ends
  simp [pendingStep, Token.opens?, ends, kind]

theorem pending_step_of_kind (noMark : token.kind ≠ .mark) (noTerminator : token.kind ≠ .terminator)
    (pending : List Bracket) : pendingStep pending token = some pending := by
  apply pending_step_of_plain
  · simp [Token.opens?, noMark]
  · simp [Token.closes?, noMark]
  · simpa [isTerminator] using noTerminator

theorem plain_of_kind {accept : Token → Bool}
    (kind : ∀ token, accept token = true → token.kind ≠ .mark ∧ token.kind ≠ .terminator) :
    Plain accept := fun token accepted =>
  pending_step_of_kind (kind token accepted).1 (kind token accepted).2

theorem plain_is_name : Plain isName :=
  plain_of_kind fun token accepted => by simp_all [isName]

theorem plain_is_keyword (text : String) : Plain (isKeyword text) :=
  plain_of_kind fun token accepted => by simp_all [isKeyword]

theorem plain_is_text : Plain (·.kind == .text) :=
  plain_of_kind fun token accepted => by simp_all

instance (marks : List String) : Decidable (FreeOfBrackets marks) :=
  decidable_of_iff (∀ text ∈ marks, ∀ bracket ∈ Bracket.all,
      bracket.opening ≠ text ∧ bracket.closing ≠ text)
    (forall₂_congr fun _ _ => ⟨fun free bracket => free bracket (by cases bracket <;> decide),
      fun free bracket _ => free bracket⟩)

theorem plain_is_operator {marks : List String} (free : FreeOfBrackets marks) :
    Plain (isOperator marks) := by
  intro token accepted
  simp only [isOperator, Bool.and_eq_true, beq_iff_eq, List.contains_iff_mem] at accepted
  obtain ⟨kind, member⟩ := accepted
  apply pending_step_of_plain
  · simp [Token.opens?, (free _ member _).1]
  · simp [Token.closes?, (free _ member _).2]
  · simp [isTerminator, kind]

theorem plain_is_mark {text : String} (free : FreeOfBrackets [text]) : Plain (isMark text) := by
  intro token accepted
  simp only [isMark, Bool.and_eq_true, beq_iff_eq] at accepted
  exact plain_is_operator free token (by simp [isOperator, accepted])

theorem is_terminator_of_closed {tokens : List Token} {last : Token}
    (closed : pendingAfter pending (tokens ++ [last]) = some []) : isTerminator last = false := by
  rw [pending_after_append] at closed
  obtain ⟨between, -, step⟩ := Option.bind_eq_some_iff.1 closed
  have step : pendingStep between last = some [] := by simpa [pendingAfter] using step
  cases ends : isTerminator last with
  | false => rfl
  | true =>
      cases between with
      | nil =>
          rw [pending_step_nil_terminator ends] at step
          cases step
      | cons inner outer =>
          rw [pending_step_terminator ends] at step
          cases step

theorem is_terminator_of_balanced_cons {first : Token} {rest : List Token}
    (balanced : Balanced (first :: rest)) : isTerminator first = false := by
  cases ends : isTerminator first with
  | false => rfl
  | true =>
      rw [Balanced, pendingAfter, List.foldlM_cons, pending_step_nil_terminator ends] at balanced
      cases balanced

end

variable {α β : Type} {pending between after : List Bracket} {bracket : Bracket}

theorem MovesOn.bind {tokens : List Token} {first : Parser α} {next : α → Parser β}
    (one : MovesOn tokens pending first between)
    (other : ∀ value, Moves between (next value) after) :
    MovesOn tokens pending (first >>= next) after := by
  intro result rest read
  change (first tokens).bind (fun pair => next pair.1 pair.2) = some (result, rest) at read
  obtain ⟨⟨value, middle⟩, taken, continued⟩ := Option.bind_eq_some_iff.1 read
  obtain ⟨front, rfl, moved⟩ := one value middle taken
  obtain ⟨back, rfl, ended⟩ := other value middle result rest continued
  refine ⟨front ++ back, (List.append_assoc _ _ _).symm, ?_⟩
  rw [pending_after_append, moved]
  exact ended

theorem MovesOn.take {token : Token} {rest : List Token}
    (step : pendingStep pending token = some after) (accept : Token → Bool) :
    MovesOn (token :: rest) pending (take accept) after := by
  intro result remaining read
  change (if accept token = true then some (token, rest) else none) = some (result, remaining)
    at read
  split at read
  · obtain ⟨rfl, rfl⟩ := Prod.mk.inj (Option.some.inj read)
    exact ⟨[token], rfl, by simp [pendingAfter, step]⟩
  · cases read

namespace Moves

protected theorem pure (value : α) : Moves pending (pure value) pending := by
  intro tokens result rest read
  obtain ⟨-, rfl⟩ := Prod.mk.inj (Option.some.inj read)
  exact ⟨[], rfl, rfl⟩

protected theorem failure : Moves pending (failure : Parser α) after := by
  intro tokens result rest read
  cases read

protected theorem bind {first : Parser α} {next : α → Parser β}
    (one : Moves pending first between) (other : ∀ value, Moves between (next value) after) :
    Moves pending (first >>= next) after :=
  fun tokens => (one tokens).bind other

theorem later {first : Parser α} {next : α → Parser β} (keeps : Keeps first)
    (other : ∀ value, Moves pending (next value) after) : Moves pending (first >>= next) after :=
  (keeps pending).bind other

protected theorem map {reader : Parser α} (moves : Moves pending reader after) (change : α → β) :
    Moves pending (change <$> reader) after := by
  rw [← bind_pure_comp]
  exact moves.bind fun _ => .pure _

protected theorem discard {reader : Parser α} (moves : Moves pending reader after) :
    Moves pending (discard reader) after := moves.map _

theorem bind_next {next : Option Token → Parser α}
    (one : ∀ token rest, MovesOn (token :: rest) pending (next (some token)) after)
    (other : Moves pending (next none) after) : Moves pending (next? >>= next) after := by
  intro tokens
  cases tokens with
  | nil => exact other []
  | cons token rest => exact one token rest

protected theorem take {accept : Token → Bool}
    (step : ∀ token, accept token = true → pendingStep pending token = some after) :
    Moves pending (take accept) after := by
  intro tokens result rest read
  unfold Parser.take at read
  split at read
  · rename_i token others
    split at read
    · rename_i accepted
      obtain ⟨rfl, rfl⟩ := Prod.mk.inj (Option.some.inj read)
      exact ⟨[token], rfl, by simp [pendingAfter, step token accepted]⟩
    · cases read
  · cases read

theorem opening (bracket : Bracket) : Moves pending (mark bracket.opening) (bracket :: pending) :=
  (Moves.take fun _ accepted => pending_step_opening accepted).discard

theorem closing (bracket : Bracket) : Moves (bracket :: pending) (mark bracket.closing) pending :=
  (Moves.take fun _ accepted => pending_step_closing accepted).discard

/-- What follows when a token is taken, and when it is not. -/
theorem bind_skip {accept : Token → Bool} {next : Bool → Parser α}
    (step : ∀ token, accept token = true → pendingStep pending token = some between)
    (taken : Moves between (next true) after) (left : Moves pending (next false) after) :
    Moves pending (skip accept >>= next) after := by
  intro tokens result rest read
  change (skip accept tokens).bind (fun pair => next pair.1 pair.2) = some (result, rest) at read
  unfold skip at read
  split at read
  · rename_i token others
    split at read
    · rename_i accepted
      obtain ⟨front, rfl, moved⟩ := taken others result rest read
      refine ⟨token :: front, rfl, ?_⟩
      unfold pendingAfter at moved ⊢
      rw [List.foldlM_cons, step token accepted]
      exact moved
    · exact left _ result rest read
  · exact left _ result rest read

theorem bind_skip_opening (bracket : Bracket) {next : Bool → Parser α}
    (taken : Moves (bracket :: pending) (next true) after)
    (left : Moves pending (next false) after) :
    Moves pending (skip (isMark bracket.opening) >>= next) after :=
  bind_skip (fun _ accepted => pending_step_opening accepted) taken left

theorem bind_skip_closing (bracket : Bracket) {next : Bool → Parser α}
    (taken : Moves pending (next true) after)
    (left : Moves (bracket :: pending) (next false) after) :
    Moves (bracket :: pending) (skip (isMark bracket.closing) >>= next) after :=
  bind_skip (fun _ accepted => pending_step_closing accepted) taken left

theorem bind_skip_terminator {next : Bool → Parser α}
    (other : ∀ ended, Moves (bracket :: pending) (next ended) after) :
    Moves (bracket :: pending) (skip isTerminator >>= next) after :=
  bind_skip (fun _ ends => pending_step_terminator ends) (other true) (other false)

theorem ite {condition : Bool} {one other : Parser α} (yes : Moves pending one after)
    (no : Moves pending other after) : Moves pending (if condition then one else other) after := by
  cases condition
  · exact no
  · exact yes

end Moves

namespace Keeps

protected theorem pure (value : α) : Keeps (pure value) := fun _ => .pure value

protected theorem failure : Keeps (failure : Parser α) := fun _ => .failure

protected theorem bind {first : Parser α} {next : α → Parser β} (one : Keeps first)
    (other : ∀ value, Keeps (next value)) : Keeps (first >>= next) :=
  fun pending => Moves.later one fun value => other value pending

protected theorem map {reader : Parser α} (keeps : Keeps reader) (change : α → β) :
    Keeps (change <$> reader) := fun pending => (keeps pending).map change

protected theorem discard {reader : Parser α} (keeps : Keeps reader) : Keeps (discard reader) :=
  keeps.map _

protected theorem take {accept : Token → Bool} (plain : Plain accept) : Keeps (take accept) :=
  fun pending => .take fun token accepted => plain token accepted pending

protected theorem name : Keeps Parser.name := (Keeps.take plain_is_name).map _

protected theorem keyword (text : String) : Keeps (keyword text) :=
  (Keeps.take (plain_is_keyword text)).discard

protected theorem mark {text : String} (free : FreeOfBrackets [text]) : Keeps (mark text) :=
  (Keeps.take (plain_is_mark free)).discard

protected theorem skip {accept : Token → Bool} (plain : Plain accept) : Keeps (skip accept) := by
  intro pending
  rw [← bind_pure (skip accept)]
  exact Moves.bind_skip (fun token accepted => plain token accepted pending) (.pure _) (.pure _)

theorem of_still {reader : Parser α} (still : ∀ tokens result rest,
    reader tokens = some (result, rest) → rest = tokens) : Keeps reader := by
  intro pending tokens result rest read
  exact ⟨[], (still tokens result rest read).symm, rfl⟩

protected theorem sees (accept : Token → Bool) : Keeps (sees accept) :=
  of_still fun _ _ _ read => (Prod.mk.inj (Option.some.inj read)).2.symm

protected theorem next : Keeps next? :=
  of_still fun _ _ _ read => (Prod.mk.inj (Option.some.inj read)).2.symm

protected theorem fail_unless (condition : Bool) : Keeps (failUnless condition) := by
  cases condition
  · exact .failure
  · exact .pure _

end Keeps

theorem Moves.either {one other : Parser α} (first : Moves pending one after)
    (second : Moves pending other after) : Moves pending (either one other) after := by
  intro tokens result rest read
  unfold Parser.either at read
  split at read
  · rename_i found taken
    obtain rfl := Option.some.inj read
    exact first tokens result rest taken
  · exact second tokens result rest read

theorem Moves.with_tokens {reader : Parser α} (moves : Moves pending reader after) :
    Moves pending (withTokens reader) after := by
  intro tokens result rest read
  obtain ⟨⟨value, remaining⟩, taken, equal⟩ := Option.map_eq_some_iff.1 read
  obtain ⟨-, rfl⟩ := Prod.mk.inj equal
  exact moves tokens value remaining taken

/-- Items between commas up to the closing mark of a bracket that is open. -/
theorem Moves.comma_list {item : Parser α} (keeps : KeepsInside item) (bracket : Bracket)
    (depth : Nat) : Moves (bracket :: pending) (commaList depth item bracket.closing) pending := by
  induction depth with
  | zero => exact .failure
  | succ depth ih =>
      unfold Parser.commaList
      refine .bind_skip_closing bracket (.pure _) ?_
      refine .bind (keeps bracket pending) fun first => ?_
      refine .later (.skip (plain_is_mark (by decide))) fun more => ?_
      exact .ite (.bind ih fun _ => .pure _) (.bind (.closing bracket) fun _ => .pure _)

theorem Keeps.comma_list1 {item : Parser α} (keeps : Keeps item) (depth : Nat) :
    Keeps (commaList1 depth item) := by
  induction depth with
  | zero => exact .failure
  | succ depth ih =>
      intro pending
      unfold Parser.commaList1
      refine .bind (keeps pending) fun first => ?_
      refine .later (.skip (plain_is_mark (by decide))) fun more => ?_
      exact .ite (.bind (ih pending) fun _ => .pure _) (.pure _)

theorem Moves.sibling_list {item : List Sibling → Nat → Parser α}
    (keeps : ∀ before row, KeepsInside (item before row)) (bracket : Bracket) (depth : Nat)
    (before : List Sibling) :
    Moves (bracket :: pending) (siblingList depth item bracket.closing before) pending := by
  induction depth generalizing before with
  | zero => exact .failure
  | succ depth ih =>
      unfold Parser.siblingList
      refine .bind_skip_closing bracket (.pure _) ?_
      refine .bind (Keeps.next _) fun next => ?_
      cases next with
      | none => exact .failure
      | some token =>
          refine .bind (Moves.with_tokens (keeps _ _ bracket pending)) fun pair => ?_
          refine .bind_skip_terminator fun ended => ?_
          exact .ite (.bind (ih _) fun _ => .pure _) (.bind (.closing bracket) fun _ => .pure _)

end EndpointAtlas.Go
