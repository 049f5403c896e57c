import EndpointAtlas.Proofs.Go.DocRuns
import EndpointAtlas.Proofs.Go.Rules.Tokens

/-!
Tokens on lower rows. What a reader reads depends on how far apart rows are, and not on where they
are.
-/

namespace EndpointAtlas.Go

open EndpointAtlas.Go.Parser

variable {α β : Type}

def Sibling.lowered (sibling : Sibling) (count : Nat) : Sibling :=
  match sibling with
  | comment found => .comment (found.lowered count)
  | declaration endRow => .declaration (endRow + count)

@[simp] theorem Sibling.lowered_comment (comment : Comment) (count : Nat) :
    (Sibling.comment comment).lowered count = .comment (comment.lowered count) := rfl

@[simp] theorem Sibling.lowered_declaration (endRow count : Nat) :
    (Sibling.declaration endRow).lowered count = .declaration (endRow + count) := rfl

def Token.lowered (token : Token) (count : Nat) : Token :=
  { token with
    row := token.row + count
    endRow := token.endRow + count
    comments := token.comments.map (·.lowered count) }

def lower (count : Nat) (tokens : List Token) : List Token := tokens.map (·.lowered count)

section

variable (count : Nat) (token : Token) (tokens : List Token) (before : List Sibling)

@[simp] theorem lower_nil : lower count [] = [] := rfl

@[simp] theorem lower_cons :
    lower count (token :: tokens) = token.lowered count :: lower count tokens := rfl

@[simp] theorem lower_append (others : List Token) :
    lower count (tokens ++ others) = lower count tokens ++ lower count others := List.map_append

@[simp] theorem length_lower : (lower count tokens).length = tokens.length := List.length_map _

theorem take_lower (size : Nat) : (lower count tokens).take size = lower count (tokens.take size) :=
  List.map_take.symm

@[simp] theorem is_mark_lowered (text : String) :
    isMark text (token.lowered count) = isMark text token := rfl

@[simp] theorem is_terminator_lowered :
    isTerminator (token.lowered count) = isTerminator token := rfl

@[simp] theorem accepts_lowered (test : Test) :
    test.accepts (token.lowered count) = test.accepts token := rfl

theorem is_trailing_lowered (comment : Comment) :
    isTrailing (comment.lowered count) (before.map (·.lowered count)) =
      isTrailing comment before := by
  cases before with
  | nil => rfl
  | cons sibling before =>
      cases sibling <;> simp [isTrailing, Comment.lowered]

theorem doc_run_map_lowered (row : Nat) : docRun (row + count) (before.map (·.lowered count)) =
    (docRun row before).map (·.lowered count) := by
  induction before generalizing row with
  | nil => rfl
  | cons sibling before ih =>
      cases sibling with
      | declaration endRow => rfl
      | comment comment =>
          have below : (comment.lowered count).endRow + 1 = row + count ↔
              comment.endRow + 1 = row := by
            change comment.endRow + count + 1 = row + count ↔ _
            omega
          have row_eq : (comment.lowered count).row = comment.row + count := rfl
          simp only [List.map_cons, Sibling.lowered_comment, docRun, is_trailing_lowered, below,
            row_eq, ih]
          split <;> rfl

theorem doc_of_lowered (row : Nat) :
    docOf (row + count) (before.map (·.lowered count)) = docOf row before := by
  rw [docOf, docOf, doc_run_map_lowered]
  cases docRun row before with
  | nil => rfl
  | cons comment run => simp [Comment.lowered]

theorem siblings_before_lowered :
    siblingsBefore (token.lowered count) (before.map (·.lowered count)) =
      (siblingsBefore token before).map (·.lowered count) := by
  simp [siblingsBefore, Token.lowered, Function.comp_def]

@[simp] theorem glance_lowered : (token.lowered count).glance = token.glance := by
  have doc : docOf (token.row + count) (siblingsBefore (token.lowered count) []) =
      docOf token.row (siblingsBefore token []) := by
    rw [← doc_of_lowered count _ token.row, ← siblings_before_lowered]
    rfl
  rw [Token.glance, Token.glance, ← doc]
  cases comments : token.comments <;> simp [Token.lowered, comments, Comment.lowered]

@[simp] theorem sees_lower (look : Look) : look.sees (lower count tokens) = look.sees tokens := by
  cases look with
  | guard =>
      match tokens with
      | [] | [_] | [_, _] | _ :: _ :: _ :: _ => rfl
  | word | label =>
      match tokens with
      | [] | [_] | _ :: _ :: _ => rfl

@[simp] theorem starts_method_lower : startsMethod (lower count tokens) = startsMethod tokens := by
  match tokens with
  | [] | [_] | _ :: _ :: _ => rfl

@[simp] theorem span_text_lower : Token.spanText (lower count tokens) = Token.spanText tokens := by
  cases tokens with
  | nil => rfl
  | cons first rest => simp [Token.spanText, lower, List.flatMap_map, Token.lowered]

theorem end_row_before_lower (rest : List Token) :
    endRowBefore (token.lowered count) (lower count tokens) (lower count rest) =
      endRowBefore token tokens rest + count := by
  rw [endRowBefore, endRowBefore, ← lower_cons, length_lower, length_lower, lower, ← List.map_take,
    List.getLast?_map, Option.map_map]
  cases ((token :: tokens).take ((token :: tokens).length - rest.length)).getLast? <;> rfl

end

/-- Whether a reader reads tokens on lower rows as it reads them where they are. -/
def RowFree (count : Nat) (reader : Parser α) : Prop :=
  ∀ tokens, reader (lower count tokens) =
    (reader tokens).map fun pair => (pair.1, lower count pair.2)

namespace RowFree

variable {count : Nat}

protected theorem pure (value : α) : RowFree count (pure value : Parser α) := fun _ => rfl

protected theorem failure : RowFree count (failure : Parser α) := fun _ => rfl

protected theorem bind {first : Parser α} {next : α → Parser β} (one : RowFree count first)
    (other : ∀ value, RowFree count (next value)) : RowFree count (first >>= next) := by
  intro tokens
  rw [bind_apply, bind_apply, one]
  cases first tokens with
  | none => rfl
  | some pair => exact other pair.1 pair.2

theorem of_peek {peek : List Token → α} (same : ∀ tokens, peek (lower count tokens) = peek tokens) :
    RowFree count (fun tokens => some (peek tokens, tokens) : Parser α) := by
  intro tokens
  change some (peek (lower count tokens), _) = _
  rw [same]
  rfl

protected theorem glance : RowFree count (Option.map Token.glance <$> next?) := by
  intro tokens
  cases tokens with
  | nil => rfl
  | cons token tokens =>
      change some (some (token.lowered count).glance, _) = some (some token.glance, _)
      rw [glance_lowered]

protected theorem sees (test : Test) : RowFree count (Parser.sees test.accepts) :=
  of_peek fun tokens => by cases tokens <;> rfl

protected theorem take (test : Test) :
    RowFree count ((·.text) <$> Parser.take test.accepts) := by
  intro tokens
  rw [map_apply, map_apply]
  cases tokens with
  | nil => rfl
  | cons token tokens =>
      rw [lower_cons, Parser.take, Parser.take, accepts_lowered]
      split <;> rfl

protected theorem skip (test : Test) : RowFree count (Parser.skip test.accepts) := by
  intro tokens
  cases tokens with
  | nil => rfl
  | cons token tokens =>
      rw [lower_cons, Parser.skip, Parser.skip, accepts_lowered]
      split <;> rfl

protected theorem either {first second : Parser α} (one : RowFree count first)
    (other : RowFree count second) : RowFree count (Parser.either first second) := by
  intro tokens
  rw [Parser.either, Parser.either, one, other]
  cases first tokens <;> rfl

theorem span {reader : Parser α} (rowFree : RowFree count reader) :
    RowFree count (do
      let pair ← withTokens reader
      return (pair.1, Token.spanText pair.2)) := by
  intro tokens
  rw [bind_pure_comp, map_apply, map_apply, withTokens, withTokens, rowFree]
  cases reader tokens with
  | none => rfl
  | some pair =>
      dsimp only [Option.map_some]
      rw [length_lower, length_lower, take_lower, span_text_lower]

protected theorem items {item : Parser α} (rowFree : RowFree count item) {divides : Token → Bool}
    (same : ∀ token, divides (Token.lowered token count) = divides token) (bound : Nat)
    (close : String) (before : List Sibling) (tokens : List Token) :
    items divides bound item close (before.map (·.lowered count)) (lower count tokens) =
      (items divides bound item close before tokens).map
        fun pair => (pair.1, lower count pair.2) := by
  induction bound generalizing before tokens with
  | zero => rfl
  | succ bound ih =>
      cases tokens with
      | nil => rfl
      | cons token others =>
          have doc := doc_of_lowered count (siblingsBefore token before) token.row
          rw [lower_cons, items, items, is_mark_lowered, ← lower_cons, rowFree,
            siblings_before_lowered]
          split
          · rfl
          · cases item (token :: others) with
            | none => rfl
            | some found =>
                obtain ⟨value, middle⟩ := found
                cases middle with
                | nil => rfl
                | cons last left =>
                    have further := ih (.declaration (endRowBefore token others (last :: left)) ::
                      siblingsBefore token before) left
                    rw [List.map_cons, Sibling.lowered_declaration,
                      ← end_row_before_lower] at further
                    dsimp only [Option.map_some, Option.bind_some, lower_cons]
                    rw [same, is_mark_lowered, ← lower_cons, further]
                    have doc' : docOf (token.lowered count).row _ = _ := doc
                    rw [doc']
                    split
                    · rw [Option.map_map, Option.map_map]
                      rfl
                    · split <;> rfl

theorem of_lower {reader : Parser α} (rowFree : RowFree count reader) (shrinks : Shrinks reader)
    {tokens rest : List Token} {value : α} (within : rest <:+ tokens)
    (read : reader (lower count tokens) = some (value, lower count rest)) :
    reader tokens = some (value, rest) := by
  rw [rowFree, Option.map_eq_some_iff] at read
  obtain ⟨⟨found, left⟩, read, same⟩ := read
  obtain ⟨rfl, lowered⟩ := Prod.mk.inj same
  have size := congrArg List.length lowered
  rw [length_lower, length_lower] at size
  have within' := List.suffix_of_suffix_length_le (shrinks _ _ _ read) within size.le
  rw [read, within'.eq_of_length size]

section

variable {item : Parser α} (rowFree : RowFree count item) (shrinks : Shrinks item)

include rowFree

protected theorem bracketed (opening closing : String) (bound : Nat) :
    RowFree count (bracketed opening closing bound item) := by
  intro tokens
  cases tokens with
  | nil => rfl
  | cons token others =>
      rw [lower_cons, bracketed_eq_items, bracketed_eq_items, is_mark_lowered]
      split
      · rw [← rowFree.items (fun token => is_terminator_lowered count token),
          ← siblings_before_lowered]
        rfl
      · rfl

protected theorem comma_list1 (bound : Nat) : RowFree count (commaList1 bound item) := by
  induction bound with
  | zero => exact .failure
  | succ bound ih =>
      refine .bind rowFree fun first => .bind (.skip (.mark ",")) fun more => ?_
      cases more with
      | true => exact .bind ih fun others => .pure _
      | false => exact .pure _

include shrinks

protected theorem comma_list (bound : Nat) (close : String) :
    RowFree count (commaList bound item close) := by
  intro tokens
  rw [comma_list_eq_items shrinks bound close [], map_apply, map_apply]
  have listed := rowFree.items (fun token => is_mark_lowered count token ",") bound close [] tokens
  rw [List.map_nil] at listed
  rw [listed, Option.map_map, Option.map_map]
  rfl

end

end RowFree

section

variable {count bound : Nat}

theorem Rule.row_free_run
    (below : ∀ {β : Type} (reader : Reader β), RowFree count (reader.read bound)) (rule : Rule α) :
    RowFree count (rule.run bound) := by
  induction rule with
  | done value => exact .pure value
  | refuse => exact .failure
  | head next ih =>
      have glanced := RowFree.bind (@RowFree.glance count) fun glance => ih glance
      rw [bind_map_left] at glanced
      exact glanced
  | sees test next ih => exact .bind (.sees test) fun _ => ih _
  | look kind next ih =>
      exact .bind (.of_peek fun tokens => sees_lower count tokens kind) fun _ => ih _
  | skip test next ih => exact .bind (.skip test) fun _ => ih _
  | take test next ih =>
      have taken := RowFree.bind (@RowFree.take count test) fun text => ih text
      rw [bind_map_left] at taken
      exact taken
  | call reader next ih => exact .bind (below reader) fun _ => ih _
  | span inner next ihInner ih =>
      have spanned := RowFree.bind (RowFree.span ihInner) fun pair => ih pair.1 pair.2
      simp only [bind_assoc, pure_bind] at spanned
      exact spanned
  | commas item close next ihItem ih =>
      exact .bind (.comma_list ihItem (item.shrinks_run bound) _ _) fun _ => ih _
  | commas1 item next ihItem ih => exact .bind (.comma_list1 ihItem _) fun _ => ih _
  | group opening closing item next ihItem ih => exact .bind (.bracketed ihItem _ _ _) fun _ => ih _

theorem Body.row_free_run
    (below : ∀ {β : Type} (reader : Reader β), RowFree count (reader.read bound)) (body : Body α) :
    RowFree count (body.run bound) := by
  cases body with
  | one rule => exact rule.row_free_run below
  | two first second => exact .either (first.row_free_run below) (second.row_free_run below)
  | method rule other =>
      refine .bind (.of_peek (starts_method_lower count)) fun starts => ?_
      cases starts with
      | true => exact rule.row_free_run below
      | false => exact other.row_free_run below

/-- What is read does not depend on the rows where it stands. -/
theorem Reader.row_free_read (reader : Reader α) : RowFree count (reader.read bound) := by
  induction bound generalizing α with
  | zero =>
      rw [read_zero]
      exact .failure
  | succ bound ih =>
      rw [read_succ]
      exact reader.body.row_free_run ih

end

end EndpointAtlas.Go
