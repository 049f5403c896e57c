import EndpointAtlas.Proofs.Go.Brackets
import EndpointAtlas.Proofs.Go.DeclaredNames

/-!
What readers take off the front of tokens, and what they find in the tokens of a whole file. A
reader that finds something depends on where in the file it starts; all it leaves is an end of the
file.
-/

namespace EndpointAtlas.Go

open EndpointAtlas.Go.Parser

namespace Parser

variable {α β : Type} {tokens rest : List Token}

theorem bind_eq_some {first : Parser α} {next : α → Parser β} {pair : β × List Token} :
    (first >>= next) tokens = some pair ↔
      ∃ value middle, first tokens = some (value, middle) ∧ next value middle = some pair := by
  change (first tokens).bind (fun found => next found.1 found.2) = some pair ↔ _
  simp only [Option.bind_eq_some_iff, Prod.exists]

theorem next_bind {next : Option Token → Parser α} :
    (next? >>= next) tokens = next tokens.head? tokens := rfl

theorem take_eq_some {accept : Token → Bool} {token : Token} :
    take accept tokens = some (token, rest) ↔ tokens = token :: rest ∧ accept token = true := by
  unfold take
  split
  · rename_i first others
    constructor
    · intro taken
      split at taken
      · rename_i accepted
        obtain ⟨rfl, rfl⟩ := Prod.mk.inj (Option.some.inj taken)
        exact ⟨rfl, accepted⟩
      · cases taken
    · rintro ⟨same, accepted⟩
      obtain ⟨rfl, rfl⟩ := List.cons.inj same
      rw [if_pos accepted]
  · simp

theorem discard_take_eq_some {accept : Token → Bool} {nothing : Unit} :
    (discard (take accept) : Parser Unit) tokens = some (nothing, rest) ↔
      ∃ token, tokens = token :: rest ∧ accept token = true := by
  change (take accept >>= fun _ => pure ()) tokens = some (nothing, rest) ↔ _
  rw [bind_eq_some]
  constructor
  · rintro ⟨token, middle, taken, stays⟩
    obtain ⟨-, rfl⟩ := Prod.mk.inj (Option.some.inj stays)
    exact ⟨token, take_eq_some.1 taken⟩
  · rintro ⟨token, taken⟩
    exact ⟨token, rest, take_eq_some.2 taken, rfl⟩

theorem mark_eq_some {text : String} {nothing : Unit} : mark text tokens = some (nothing, rest) ↔
    ∃ token, tokens = token :: rest ∧ isMark text token = true := discard_take_eq_some

theorem keyword_eq_some {text : String} {nothing : Unit} :
    keyword text tokens = some (nothing, rest) ↔
    ∃ token, tokens = token :: rest ∧ isKeyword text token = true := discard_take_eq_some

theorem name_eq_some {text : String} : Parser.name tokens = some (text, rest) ↔
    ∃ token, tokens = token :: rest ∧ isName token = true ∧ token.text = text := by
  unfold Parser.name
  rw [← bind_pure_comp, bind_eq_some]
  constructor
  · rintro ⟨token, middle, taken, stays⟩
    obtain ⟨rfl, rfl⟩ := Prod.mk.inj (Option.some.inj stays)
    obtain ⟨rfl, accepted⟩ := take_eq_some.1 taken
    exact ⟨token, rfl, accepted, rfl⟩
  · rintro ⟨token, rfl, accepted, rfl⟩
    exact ⟨token, rest, take_eq_some.2 ⟨rfl, accepted⟩, rfl⟩

theorem skip_eq_some {accept : Token → Bool} {found : Bool}
    (read : skip accept tokens = some (found, rest)) :
    (found = true ∧ ∃ token, tokens = token :: rest ∧ accept token = true) ∨
      (found = false ∧ tokens = rest ∧ ∀ token ∈ rest.head?, accept token = false) := by
  unfold skip at read
  split at read
  · rename_i token others
    cases accepted : accept token with
    | true =>
        rw [accepted, if_pos rfl] at read
        obtain ⟨rfl, rfl⟩ := Prod.mk.inj (Option.some.inj read)
        exact .inl ⟨rfl, token, rfl, accepted⟩
    | false =>
        rw [accepted, if_neg Bool.false_ne_true] at read
        obtain ⟨rfl, rfl⟩ := Prod.mk.inj (Option.some.inj read)
        exact .inr ⟨rfl, rfl, by simpa using accepted⟩
  · obtain ⟨rfl, rfl⟩ := Prod.mk.inj (Option.some.inj read)
    exact .inr ⟨rfl, rfl, by simp⟩

theorem either_eq_some {one other : Parser α} {pair : α × List Token}
    (read : either one other tokens = some pair) :
    one tokens = some pair ∨ other tokens = some pair := by
  unfold either at read
  split at read
  · rename_i taken
    exact .inl (taken.trans read)
  · exact .inr read

theorem fail_unless_sees_bind {accept : Token → Bool} {next : Parser α} {pair : α × List Token}
    (read : (do
      failUnless (← sees accept)
      next) tokens = some pair) :
    (∃ token ∈ tokens.head?, accept token = true) ∧ next tokens = some pair := by
  change (failUnless ((tokens.head?.map accept).getD false) >>= fun _ => next) tokens = some pair
    at read
  cases seen : (tokens.head?.map accept).getD false with
  | true =>
      rw [seen] at read
      refine ⟨?_, read⟩
      cases tokens with
      | nil => cases seen
      | cons token others => exact ⟨token, rfl, seen⟩
  | false =>
      rw [seen] at read
      cases read

theorem with_tokens_eq_some {reader : Parser α} {pair : α × List Token} :
    withTokens reader tokens = some (pair, rest) ↔
      reader tokens = some (pair.1, rest) ∧
        pair.2 = tokens.take (tokens.length - rest.length) := by
  obtain ⟨value, taken⟩ := pair
  change (reader tokens).map _ = some _ ↔ _
  simp only [Option.map_eq_some_iff, Prod.exists, Prod.mk.injEq]
  constructor
  · rintro ⟨value, rest, read, ⟨rfl, rfl⟩, rfl⟩
    exact ⟨read, rfl⟩
  · rintro ⟨read, rfl⟩
    exact ⟨_, _, read, ⟨rfl, rfl⟩, rfl⟩

/-- What a list of items starts with: its end, or an item with its end or with the rest of the
list. -/
theorem sibling_list_eq_some {item : List Sibling → Nat → Parser α} {depth : Nat} {close : String}
    {before : List Sibling} {results : List α}
    (read : siblingList (depth + 1) item close before tokens = some (results, rest)) :
    (results = [] ∧ ∃ closing, tokens = closing :: rest) ∨
      ∃ token others first middle, tokens = token :: others ∧
        item (siblingsBefore token before) token.row tokens = some (first, middle) ∧
          ((results = [first] ∧ ∃ closing, middle = closing :: rest) ∨
            ∃ terminator left later, isTerminator terminator = true ∧ middle = terminator :: left ∧
              results = first :: later ∧
              siblingList depth item close
                (.declaration (((tokens.take (tokens.length - middle.length)).getLast?.map
                  (·.endRow)).getD token.row) :: siblingsBefore token before) left =
                some (later, rest)) := by
  rw [siblingList, bind_eq_some] at read
  obtain ⟨closed, others, skipped, read⟩ := read
  obtain ⟨rfl, closing, rfl, -⟩ | ⟨rfl, rfl, -⟩ := skip_eq_some skipped
  · obtain ⟨rfl, rfl⟩ := Prod.mk.inj (Option.some.inj read)
    exact .inl ⟨rfl, closing, rfl⟩
  · rw [if_neg Bool.false_ne_true, bind_eq_some] at read
    obtain ⟨next, others, looked, read⟩ := read
    obtain ⟨rfl, rfl⟩ := Prod.mk.inj (Option.some.inj looked)
    cases tokens with
    | nil => cases read
    | cons token others =>
        change (withTokens _ >>= _) _ = _ at read
        rw [bind_eq_some] at read
        obtain ⟨⟨first, taken⟩, middle, found, read⟩ := read
        obtain ⟨found, rfl⟩ := with_tokens_eq_some.1 found
        refine .inr ⟨token, others, first, middle, rfl, found, ?_⟩
        rw [bind_eq_some] at read
        obtain ⟨ended, left, skipped, read⟩ := read
        obtain ⟨rfl, terminator, rfl, ends⟩ | ⟨rfl, rfl, -⟩ := skip_eq_some skipped
        · rw [if_pos rfl, bind_eq_some] at read
          obtain ⟨later, last, further, read⟩ := read
          obtain ⟨rfl, rfl⟩ := Prod.mk.inj (Option.some.inj read)
          exact .inr ⟨terminator, left, later, ends, rfl, rfl, further⟩
        · rw [if_neg Bool.false_ne_true, bind_eq_some] at read
          obtain ⟨nothing, last, closed, read⟩ := read
          obtain ⟨rfl, rfl⟩ := Prod.mk.inj (Option.some.inj read)
          obtain ⟨closing, rfl, -⟩ := mark_eq_some.1 closed
          exact .inl ⟨rfl, closing, rfl⟩

end Parser

/-- Whatever the reader accepts at an end of all tokens, it leaves an end of it, and its result is
as stated. -/
def Finds (all : List Token) (reader : Parser α) (holds : α → Prop) : Prop :=
  ∀ tokens result rest, tokens <:+ all → reader tokens = some (result, rest) →
    rest <:+ tokens ∧ holds result

namespace Finds

variable {α β : Type} {all : List Token} {pending after : List Bracket} {holds : α → Prop}

protected theorem pure {value : α} (given : holds value) : Finds all (pure value) holds := by
  intro tokens result rest within read
  obtain ⟨rfl, rfl⟩ := Prod.mk.inj (Option.some.inj read)
  exact ⟨List.suffix_rfl, given⟩

protected theorem failure : Finds all (failure : Parser α) holds := by
  intro tokens result rest within read
  cases read

protected theorem bind {first : Parser β} {next : β → Parser α} {given : β → Prop}
    (one : Finds all first given) (other : ∀ value, given value → Finds all (next value) holds) :
    Finds all (first >>= next) holds := by
  intro tokens result rest within read
  obtain ⟨value, middle, taken, continued⟩ := bind_eq_some.1 read
  obtain ⟨between, found⟩ := one tokens value middle within taken
  obtain ⟨left, holds⟩ := other value found middle result rest (between.trans within) continued
  exact ⟨left.trans between, holds⟩

theorem of_reads {reader : Parser α} (moves : Moves pending reader after)
    (reads : Reads reader holds) : Finds all reader holds := by
  intro tokens result rest within read
  obtain ⟨taken, rfl, -⟩ := moves tokens result rest read
  exact ⟨List.suffix_append taken rest, reads _ _ _ read⟩

theorem anything {reader : Parser α} (moves : Moves pending reader after) :
    Finds all reader fun _ => True := of_reads moves (.anything reader)

theorem later {first : Parser β} {next : β → Parser α} (one : Finds all first fun _ => True)
    (other : ∀ value, Finds all (next value) holds) : Finds all (first >>= next) holds :=
  one.bind fun value _ => other value

protected theorem mark (text : String) : Finds all (mark text) fun _ => True := by
  intro tokens result rest within read
  obtain ⟨token, rfl, -⟩ := mark_eq_some.1 read
  exact ⟨List.suffix_cons token rest, trivial⟩

protected theorem keyword (text : String) : Finds all (keyword text) fun _ => True :=
  anything (Keeps.keyword text [])

protected theorem skip (accept : Token → Bool) : Finds all (skip accept) fun _ => True := by
  intro tokens result rest within read
  obtain ⟨-, token, rfl, -⟩ | ⟨-, rfl, -⟩ := skip_eq_some read
  · exact ⟨List.suffix_cons token rest, trivial⟩
  · exact ⟨List.suffix_rfl, trivial⟩

protected theorem sees (accept : Token → Bool) : Finds all (sees accept) fun _ => True :=
  anything (Keeps.sees accept [])

protected theorem next : Finds all next? fun _ => True := anything (Keeps.next [])

protected theorem fail_unless (condition : Bool) : Finds all (failUnless condition) fun _ => True :=
  anything (Keeps.fail_unless condition [])

protected theorem ite {condition : Bool} {one other : Parser α} (yes : Finds all one holds)
    (no : Finds all other holds) : Finds all (if condition then one else other) holds := by
  cases condition
  · exact no
  · exact yes

protected theorem either {one other : Parser α} (first : Finds all one holds)
    (second : Finds all other holds) : Finds all (either one other) holds := by
  intro tokens result rest within read
  rcases either_eq_some read with taken | taken
  · exact first tokens result rest within taken
  · exact second tokens result rest within taken

protected theorem comma_list {item : Parser α} (finds : Finds all item holds) (depth : Nat)
    (close : String) :
    Finds all (commaList depth item close) fun items => ∀ each ∈ items, holds each := by
  induction depth with
  | zero => exact .failure
  | succ depth ih =>
      unfold Parser.commaList
      refine .later (.skip _) fun closed => .ite (.pure (by simp)) (.bind finds fun first own => ?_)
      refine .later (.skip _) fun more => .ite (.bind ih fun others found => .pure ?_) ?_
      · exact List.forall_mem_cons.2 ⟨own, found⟩
      · exact .later (.mark close) fun _ => .pure (List.forall_mem_singleton.2 own)

/-- Items that terminators end, found one after another. What is reached in front of an item says
what the item depends on, and each item leads to the next. -/
theorem sibling_list_of_reached {item : List Sibling → Nat → Parser α}
    (reached : List Token → List Sibling → Prop)
    (step : ∀ prior before token others result rest, reached prior before →
      all = prior ++ token :: others →
      item (siblingsBefore token before) token.row (token :: others) = some (result, rest) →
      holds result ∧ ∃ taken, token :: others = taken ++ rest ∧
        ∀ terminator ∈ rest.head?, isTerminator terminator = true →
          reached (prior ++ taken ++ [terminator])
            (.declaration ((taken.getLast?.map (·.endRow)).getD token.row) ::
              siblingsBefore token before))
    {depth : Nat} {close : String} {prior tokens rest : List Token} {before : List Sibling}
    {results : List α} (start : reached prior before) (whole : all = prior ++ tokens)
    (read : siblingList depth item close before tokens = some (results, rest)) :
    rest <:+ tokens ∧ ∀ each ∈ results, holds each := by
  induction depth generalizing prior before tokens results with
  | zero => cases read
  | succ depth ih =>
      obtain ⟨rfl, closing, rfl⟩ | ⟨token, others, first, middle, rfl, found, ended⟩ :=
        sibling_list_eq_some read
      · exact ⟨List.suffix_cons closing rest, by simp⟩
      · obtain ⟨own, taken, split, next⟩ := step _ _ _ _ _ _ start whole found
        obtain ⟨rfl, closing, rfl⟩ | ⟨terminator, left, later, ends, rfl, rfl, further⟩ := ended
        · exact ⟨⟨taken ++ [closing], by simp [split]⟩, List.forall_mem_singleton.2 own⟩
        · have cut : (token :: others).take
              ((token :: others).length - (terminator :: left).length) = taken := by simp [split]
          rw [cut] at further
          obtain ⟨within, each⟩ := ih (next terminator rfl ends) (by simp [whole, split]) further
          refine ⟨within.trans ⟨taken ++ [terminator], by simp [split]⟩, ?_⟩
          exact List.forall_mem_cons.2 ⟨own, each⟩

protected theorem sibling_list {item : List Sibling → Nat → Parser α}
    (finds : ∀ before row, Finds all (item before row) holds) (depth : Nat) (close : String)
    (before : List Sibling) :
    Finds all (siblingList depth item close before) fun items => ∀ each ∈ items, holds each := by
  intro tokens results rest within read
  obtain ⟨prior, whole⟩ := within
  refine sibling_list_of_reached (fun _ _ => True) ?_ trivial whole.symm read
  intro prior before token others result rest _ whole found
  obtain ⟨⟨taken, split⟩, own⟩ := finds _ _ _ _ _ ⟨prior, whole.symm⟩ found
  exact ⟨own, taken, split.symm, fun _ _ _ => trivial⟩

end Finds

def FindsAt (tokens : List Token) (reader : Parser α) (holds : α → Prop) : Prop :=
  ∀ result rest, reader tokens = some (result, rest) → holds result

namespace FindsAt

variable {α β : Type} {tokens : List Token} {holds : α → Prop}

protected theorem failure : FindsAt tokens (failure : Parser α) holds := by
  intro result rest read
  cases read

theorem bind_next {token : Token} {rest : List Token} {next : Option Token → Parser α}
    (finds : FindsAt (token :: rest) (next (some token)) holds) :
    FindsAt (token :: rest) (next? >>= next) holds := finds

theorem bind_pure {reader : Parser β} {change : β → α} {given : β → Prop}
    (finds : FindsAt tokens reader given) (changed : ∀ value, given value → holds (change value)) :
    FindsAt tokens (reader >>= fun value => pure (change value)) holds := by
  intro result rest read
  obtain ⟨value, middle, found, read⟩ := bind_eq_some.1 read
  obtain ⟨rfl, -⟩ := Prod.mk.inj (Option.some.inj read)
  exact changed value (finds value middle found)

theorem anything (reader : Parser α) : FindsAt tokens reader fun _ => True :=
  fun _ _ _ => trivial

end FindsAt

section

variable {token : Token} {text : String}

theorem is_terminator_of_is_mark (mark : isMark text token = true) :
    isTerminator token = false := by
  simp_all [isMark, isTerminator]

theorem is_terminator_of_is_keyword (keyword : isKeyword text token = true) :
    isTerminator token = false := by
  simp_all [isKeyword, isTerminator]

theorem is_terminator_of_is_name (name : isName token = true) : isTerminator token = false := by
  simp_all [isName, isTerminator]

end

/-- Whether the reader accepts nothing that starts with a terminator. -/
def RefusesTerminators (reader : Parser α) : Prop :=
  ∀ token rest, isTerminator token = true → reader (token :: rest) = none

namespace RefusesTerminators

variable {α β : Type}

/-- What the reader accepts starts with no terminator. -/
theorem stands {reader : Parser α} {token : Token} {rest : List Token} {pair : α × List Token}
    (refuses : RefusesTerminators reader) (read : reader (token :: rest) = some pair) :
    isTerminator token = false := by
  cases ends : isTerminator token with
  | false => rfl
  | true =>
      rw [refuses token rest ends] at read
      cases read

protected theorem failure : RefusesTerminators (failure : Parser α) := fun _ _ _ => rfl

protected theorem bind {first : Parser β} (refuses : RefusesTerminators first)
    (next : β → Parser α) : RefusesTerminators (first >>= next) := by
  intro token rest ends
  change (first (token :: rest)).bind _ = none
  rw [refuses token rest ends]
  rfl

protected theorem take {accept : Token → Bool}
    (stands : ∀ token, accept token = true → isTerminator token = false) :
    RefusesTerminators (take accept) := by
  intro token rest ends
  change (if accept token = true then some (token, rest) else none) = none
  rw [if_neg fun accepted => Bool.false_ne_true ((stands token accepted).symm.trans ends)]

protected theorem keyword (text : String) : RefusesTerminators (keyword text) := by
  change RefusesTerminators (take (isKeyword text) >>= fun _ => pure ())
  exact .bind (.take fun _ => is_terminator_of_is_keyword) _

protected theorem name : RefusesTerminators Parser.name := by
  unfold Parser.name
  rw [← bind_pure_comp]
  exact (RefusesTerminators.take fun _ => is_terminator_of_is_name).bind _

theorem bind_skip {accept : Token → Bool} {next : Bool → Parser α}
    (stands : ∀ token, accept token = true → isTerminator token = false)
    (refuses : RefusesTerminators (next false)) :
    RefusesTerminators (skip accept >>= next) := by
  intro token rest ends
  change (skip accept (token :: rest)).bind _ = none
  rw [skip, if_neg fun accepted => Bool.false_ne_true ((stands token accepted).symm.trans ends)]
  exact refuses token rest ends

theorem bind_sees {accept : Token → Bool} {next : Bool → Parser α}
    (refuses : ∀ seen, RefusesTerminators (next seen)) :
    RefusesTerminators (sees accept >>= next) :=
  fun token rest ends => refuses (accept token) token rest ends

protected theorem either {one other : Parser α} (first : RefusesTerminators one)
    (second : RefusesTerminators other) : RefusesTerminators (either one other) := by
  intro token rest ends
  rw [Parser.either, first token rest ends]
  exact second token rest ends

protected theorem with_tokens {reader : Parser α} (refuses : RefusesTerminators reader) :
    RefusesTerminators (withTokens reader) := by
  intro token rest ends
  rw [Parser.withTokens, refuses token rest ends]
  rfl

end RefusesTerminators

end EndpointAtlas.Go
