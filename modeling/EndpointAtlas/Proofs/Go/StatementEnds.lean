import Mathlib.Data.List.Induction
import EndpointAtlas.Proofs.Go.Nesting
import EndpointAtlas.Proofs.Go.Readers

/-!
The ends of statements. A statement may have terminators outside of its brackets, in the header of a
loop or of a condition, but it does not end with one.
-/

namespace EndpointAtlas.Go

open EndpointAtlas.Go.Parser

/-- Whether the tokens that the reader takes off the front of these end with no terminator. -/
def EndsOn (tokens : List Token) (reader : Parser α) : Prop :=
  ∀ result rest, reader tokens = some (result, rest) →
    ∃ taken, tokens = taken ++ rest ∧ ∀ last ∈ taken.getLast?, isTerminator last = false

def Ends (reader : Parser α) : Prop := ∀ tokens, EndsOn tokens reader

def Closes (reader : Parser α) : Prop :=
  ∀ tokens result rest, reader tokens = some (result, rest) →
    ∃ before last, tokens = before ++ last :: rest ∧ isTerminator last = false

section

variable {α β : Type} {pending between after : List Bracket}

theorem Closes.ends {reader : Parser α} (closes : Closes reader) : Ends reader := by
  intro tokens result rest read
  obtain ⟨before, last, rfl, stands⟩ := closes tokens result rest read
  exact ⟨before ++ [last], (List.append_cons before last rest), by simpa using stands⟩

theorem Closes.take {accept : Token → Bool}
    (stands : ∀ token, accept token = true → isTerminator token = false) :
    Closes (take accept) := by
  intro tokens token rest read
  obtain ⟨rfl, accepted⟩ := take_eq_some.1 read
  exact ⟨[], token, rfl, stands token accepted⟩

theorem MovesOn.ends {tokens : List Token} {reader : Parser α}
    (moves : MovesOn tokens pending reader []) : EndsOn tokens reader := by
  intro result rest read
  obtain ⟨taken, rfl, moved⟩ := moves result rest read
  refine ⟨taken, rfl, fun last member => ?_⟩
  obtain ⟨init, rfl⟩ := List.getLast?_eq_some_iff.1 member
  exact is_terminator_of_closed moved

theorem Moves.ends {reader : Parser α} (moves : Moves pending reader []) : Ends reader :=
  fun tokens => (moves tokens).ends

theorem Keeps.ends {reader : Parser α} (keeps : Keeps reader) : Ends reader := (keeps []).ends

namespace Ends

protected theorem bind {first : Parser α} {next : α → Parser β} (one : Ends first)
    (other : ∀ value, Ends (next value)) : Ends (first >>= next) := by
  intro tokens result rest read
  obtain ⟨value, middle, taken, further⟩ := bind_eq_some.1 read
  obtain ⟨front, rfl, stands⟩ := one _ _ _ taken
  obtain ⟨back, rfl, last⟩ := other value _ _ _ further
  refine ⟨front ++ back, (List.append_assoc _ _ _).symm, fun token member => ?_⟩
  rw [List.getLast?_append, Option.mem_def, Option.or_eq_some_iff] at member
  rcases member with own | ⟨-, earlier⟩
  · exact last token own
  · exact stands token earlier

theorem bind_next {next : Option Token → Parser α}
    (one : ∀ token rest, EndsOn (token :: rest) (next (some token)))
    (other : Ends (next none)) : Ends (next? >>= next) := by
  intro tokens
  cases tokens with
  | nil => exact other []
  | cons token rest => exact one token rest

protected theorem ite {condition : Bool} {one other : Parser α} (yes : Ends one) (no : Ends other) :
    Ends (if condition then one else other) := by
  cases condition
  · exact no
  · exact yes

end Ends

namespace Closes

protected theorem bind {first : Parser α} {next : α → Parser β} (one : Closes first)
    (other : ∀ value, Ends (next value)) : Closes (first >>= next) := by
  intro tokens result rest read
  obtain ⟨value, middle, taken, further⟩ := bind_eq_some.1 read
  obtain ⟨before, last, rfl, stands⟩ := one _ _ _ taken
  obtain ⟨back, rfl, ends⟩ := other value _ _ _ further
  induction back using List.reverseRecOn with
  | nil => exact ⟨before, last, rfl, stands⟩
  | append_singleton init final _ =>
      exact ⟨before ++ last :: init, final, by simp, ends final (by simp)⟩

theorem later {first : Parser α} {next : α → Parser β} (moves : Moves pending first after)
    (other : ∀ value, Closes (next value)) : Closes (first >>= next) := by
  intro tokens result rest read
  obtain ⟨value, middle, taken, further⟩ := bind_eq_some.1 read
  obtain ⟨front, rfl, -⟩ := moves _ _ _ taken
  obtain ⟨before, last, rfl, stands⟩ := other value _ _ _ further
  exact ⟨front ++ before, last, (List.append_assoc _ _ _).symm, stands⟩

protected theorem ite {condition : Bool} {one other : Parser α} (yes : Closes one)
    (no : Closes other) : Closes (if condition then one else other) := by
  cases condition
  · exact no
  · exact yes

protected theorem failure : Closes (failure : Parser α) := by
  intro tokens result rest read
  cases read

theorem mark (text : String) : Closes (mark text) :=
  (Closes.take fun _ => is_terminator_of_is_mark).bind fun _ => (Keeps.pure _).ends

end Closes

theorem moves_skip_terminator (bracket : Bracket) (outer : List Bracket) :
    Moves (bracket :: outer) (skip isTerminator) (bracket :: outer) := by
  rw [← bind_pure (skip isTerminator)]
  exact .bind_skip_terminator fun ended => .pure _

end

section

variable {depth : Nat}

theorem closes_block (depth : Nat) : Closes (block depth) := by
  cases depth with
  | zero => rw [block]; exact .failure
  | succ depth =>
      rw [block]
      refine (Closes.mark _).bind fun _ =>
        (Moves.discard (Moves.sibling_list ?_ .curly depth [])).ends
      exact fun _ _ => (nests depth).stmt

theorem closes_if_stmt (depth : Nat) : Closes (ifStmt depth) := by
  induction depth with
  | zero => rw [ifStmt]; exact .failure
  | succ depth ih =>
      have header := (nests depth).simpleStmt false false [.curly]
      have body (condition : SimpleKind) : Closes (do
          failUnless (condition == .expression)
          block depth
          if ← skip (isKeyword "else") then
            if ← sees (isKeyword "if") then ifStmt depth else block depth) := by
        refine .later (Keeps.fail_unless _ []) fun _ => (closes_block depth).bind fun _ => ?_
        refine .bind (Keeps.skip (plain_is_keyword _)).ends fun other => ?_
        refine .ite (.bind (Keeps.sees _).ends fun again => ?_) (Keeps.pure _).ends
        exact .ite ih.ends (closes_block depth).ends
      rw [ifStmt]
      refine .later (Keeps.keyword _ []) fun _ => .later header fun first => ?_
      refine .later (moves_skip_terminator .curly []) fun ended => .ite ?_ ?_
      · exact .later header body
      · exact .later (Keeps.pure _ []) body

theorem closes_for_stmt (depth : Nat) : Closes (forStmt depth) := by
  cases depth with
  | zero => rw [forStmt]; exact .failure
  | succ depth =>
      have header (ranges : Bool) := (nests depth).simpleStmt false ranges [.curly]
      have body := closes_block depth
      rw [forStmt]
      refine .later (Keeps.keyword _ []) fun _ => .later (header true) fun first => .ite ?_ body
      refine .later (moves_skip_terminator .curly []) fun ended => .ite ?_ ?_
      · refine .later (header false) fun condition => .later (Keeps.fail_unless _ []) fun _ => ?_
        refine .later (moves_skip_terminator .curly []) fun third => .ite ?_ ?_
        · exact .later (header false).discard fun _ => body
        · exact .later (Keeps.fail_unless _ []) fun _ => body
      · exact .later (Keeps.fail_unless _ []) fun _ => body

theorem closes_switch_stmt (depth : Nat) : Closes (switchStmt depth) := by
  cases depth with
  | zero => rw [switchStmt]; exact .failure
  | succ depth =>
      have header := (nests depth).simpleStmt false false [.curly]
      have clauses : Closes (do
          mark "\x7b"
          switchClauses depth) :=
        (Closes.mark _).bind fun _ => ((nests depth).switchClauses []).ends
      have guarded (value : SimpleKind) : Closes (do
          if ← seesTypeSwitchGuard then
            mark "."
            mark "("
            keyword "type"
            mark ")"
          else failUnless (value == .empty || value == .expression)
          mark "\x7b"
          switchClauses depth) := by
        refine .later (keeps_sees_type_switch_guard []) fun ofType => .ite ?_ ?_
        · refine .later (Keeps.mark (by decide) []) fun _ => ?_
          refine .later (Moves.opening .round : Moves [] _ _) fun _ => ?_
          refine .later (Keeps.keyword _ []) fun _ => ?_
          exact .later (Moves.closing .round : Moves _ _ []) fun _ => clauses
        · exact .later (Keeps.fail_unless _ []) fun _ => clauses
      rw [switchStmt]
      refine .later (Keeps.keyword _ []) fun _ => .later header fun first => ?_
      refine .later (moves_skip_terminator .curly []) fun ended => .ite ?_ ?_
      · exact .later header guarded
      · exact .later (Keeps.pure _ []) guarded

theorem ends_stmt (depth : Nat) : Ends (stmt depth) := by
  induction depth with
  | zero => rw [stmt]; exact Closes.failure.ends
  | succ depth ih =>
      rw [stmt]
      refine .bind keeps_sees_label.ends fun labelled => .ite ?_
        (.bind_next (fun first rest => ?_) ?_)
      · exact .bind Keeps.name.ends fun _ => .bind (Keeps.mark (by decide)).ends fun _ => ih
      -- A keyword that is taken whatever it is.
      · have keyword (kind : first.kind = .keyword) {next : Parser Unit} (keeps : Keeps next) :
            EndsOn (first :: rest) (do
              let _ ← take fun _ => true
              next) :=
          ((MovesOn.take (pending_step_of_kind (by simp [kind]) (by simp [kind]) []) _).bind
            fun _ => keeps []).ends
        have jumps : Keeps (do
            let _ ← skip isName
            return ()) := .bind (.skip plain_is_name) fun _ => .pure _
        dsimp only
        split
        · exact (nests depth).valueDecl.ends _
        · exact (nests depth).valueDecl.ends _
        · exact ((nests depth).typeDecl [] 0).discard.ends _
        · exact (closes_block depth).ends _
        · exact (closes_if_stmt depth).ends _
        · exact (closes_for_stmt depth).ends _
        · exact (closes_switch_stmt depth).ends _
        · refine Ends.bind (Keeps.keyword _).ends (fun _ => (Closes.mark _).ends.bind fun _ => ?_) _
          exact ((nests depth).selectClauses []).ends
        · exact keyword ‹_› ((nests depth).expr true)
        · exact keyword ‹_› ((nests depth).expr true)
        · refine Keeps.ends (.bind (.keyword _) fun _ => .bind (.sees _) fun ends pending => ?_) _
          exact .ite (.pure _) ((Keeps.comma_list1 ((nests depth).expr true) depth).discard _)
        · exact keyword ‹_› jumps
        · exact keyword ‹_› jumps
        · exact keyword ‹_› jumps
        · exact (Keeps.keyword _).ends _
        · exact ((nests depth).simpleStmt true false).discard.ends _
      · exact Keeps.failure.ends

end

end EndpointAtlas.Go
