import Mathlib.Order.Nat
import EndpointAtlas.Proofs.Go.Rules.Readers

/-!
Lists of items. Lists between commas and lists that terminators divide are one kind of list, where
each item is found with the comments that document it.
-/

namespace EndpointAtlas.Go

open EndpointAtlas.Go.Parser

variable {α β : Type}

def Shrinks (reader : Parser α) : Prop :=
  ∀ tokens value rest, reader tokens = some (value, rest) → rest <:+ tokens

namespace Parser

variable {token : Token} {rest : List Token} {text : String}

theorem mark_of_is_mark (accepted : isMark text token = true) :
    mark text (token :: rest) = some ((), rest) :=
  mark_eq_some.2 ⟨token, rfl, accepted⟩

theorem mark_of_not (refused : isMark text token = false) : mark text (token :: rest) = none := by
  rw [mark, discard_eq_bind]
  exact take_bind_of_refuses refused _

theorem not_is_mark {other : String} (shown : isMark text token = true) (differs : text ≠ other) :
    isMark other token = false := by
  rw [is_mark_iff] at shown
  simp [isMark, shown, differs]

end Parser

def endRowBefore (token : Token) (others rest : List Token) : Nat :=
  (((token :: others).take ((token :: others).length - rest.length)).getLast?.map (·.endRow)).getD
    token.row

theorem end_row_before_of_append {token : Token} {others taken rest : List Token}
    (split : token :: others = taken ++ rest) :
    endRowBefore token others rest = (taken.getLast?.map (·.endRow)).getD token.row := by
  simp [endRowBefore, split]

def items (divides : Token → Bool) :
    Nat → Parser α → String → List Sibling → Parser (List (Option (List String) × α))
  | 0, _, _, _, _ => none
  | _ + 1, _, _, _, [] => none
  | bound + 1, item, close, before, token :: others =>
      if isMark close token then some ([], others)
      else (item (token :: others)).bind fun found =>
        let siblings := siblingsBefore token before
        match found.2 with
        | [] => none
        | last :: left =>
            if divides last then
              (items divides bound item close
                (.declaration (endRowBefore token others found.2) :: siblings) left).map fun more =>
                  ((docOf token.row siblings, found.1) :: more.1, more.2)
            else if isMark close last then some ([(docOf token.row siblings, found.1)], left)
            else none

theorem comma_list_eq_items {item : Parser α} (shrinks : Shrinks item) (bound : Nat)
    (close : String) (before : List Sibling) : commaList bound item close =
      List.map (·.2) <$> items (isMark ",") bound item close before := by
  funext tokens
  rw [map_apply]
  induction bound generalizing tokens before with
  | zero => rfl
  | succ bound ih =>
      cases tokens with
      | nil =>
          rw [commaList, skip_bind_of_refuses (by simp), if_neg Bool.false_ne_true, bind_apply]
          refine Option.bind_eq_none_iff.2 fun found read => ?_
          obtain ⟨value, middle⟩ := found
          obtain rfl := List.suffix_nil.1 (shrinks _ _ _ read)
          rfl
      | cons token others =>
          rw [commaList, items]
          cases closed : isMark close token with
          | true =>
              rw [skip_bind_of_accepts closed]
              rfl
          | false =>
              rw [skip_bind_of_refuses (by simpa using closed), if_neg Bool.false_ne_true,
                if_neg Bool.false_ne_true, bind_apply]
              cases item (token :: others) with
              | none => rfl
              | some found =>
                  obtain ⟨value, middle⟩ := found
                  dsimp only [Option.bind_some]
                  cases middle with
                  | nil => rfl
                  | cons last left =>
                      dsimp only
                      cases divides : isMark "," last with
                      | true =>
                          rw [skip_bind_of_accepts divides, if_pos rfl, if_pos rfl, bind_pure_comp,
                            map_apply, ih _ left, Option.map_map, Option.map_map]
                          rfl
                      | false =>
                          rw [skip_bind_of_refuses (by simpa using divides),
                            if_neg Bool.false_ne_true, if_neg Bool.false_ne_true, bind_apply]
                          cases ends : isMark close last with
                          | true =>
                              rw [mark_of_is_mark ends]
                              rfl
                          | false =>
                              rw [mark_of_not ends]
                              rfl

theorem sibling_list_eq_items (item : Parser α) (bound : Nat) (close : String)
    (before : List Sibling) :
    siblingList bound (fun before row => (docOf row before, ·) <$> item) close before =
      items isTerminator bound item close before := by
  funext tokens
  induction bound generalizing tokens before with
  | zero => rfl
  | succ bound ih =>
      cases tokens with
      | nil => rfl
      | cons token others =>
          rw [siblingList, items]
          cases closed : isMark close token with
          | true =>
              rw [skip_bind_of_accepts closed]
              rfl
          | false =>
              rw [skip_bind_of_refuses (by simpa using closed), if_neg Bool.false_ne_true,
                if_neg Bool.false_ne_true, next_bind, List.head?_cons]
              dsimp only
              rw [bind_apply, withTokens, map_apply]
              cases item (token :: others) with
              | none => rfl
              | some found =>
                  obtain ⟨value, middle⟩ := found
                  dsimp only [Option.map_some, Option.bind_some]
                  cases middle with
                  | nil => rfl
                  | cons last left =>
                      dsimp only
                      cases divides : isTerminator last with
                      | true =>
                          rw [skip_bind_of_accepts divides, if_pos rfl, if_pos rfl, bind_pure_comp,
                            map_apply, ih]
                          rfl
                      | false =>
                          rw [skip_bind_of_refuses (by simpa using divides),
                            if_neg Bool.false_ne_true, if_neg Bool.false_ne_true, bind_apply]
                          cases ends : isMark close last with
                          | true =>
                              rw [mark_of_is_mark ends]
                              rfl
                          | false =>
                              rw [mark_of_not ends]
                              rfl

theorem bracketed_eq_items (opening closing : String) (bound : Nat) (item : Parser α)
    (token : Token) (others : List Token) :
    bracketed opening closing bound item (token :: others) =
      if isMark opening token then
        items isTerminator bound item closing (siblingsBefore token []) others
      else none := by
  cases opens : isMark opening token with
  | true => rw [bracketed_of_is_mark opens, sibling_list_eq_items, if_pos rfl]
  | false =>
      rw [bracketed, next_bind, List.head?_cons, if_neg Bool.false_ne_true]
      dsimp only
      rw [bind_apply, mark_of_not opens]
      rfl

/-- A list of items, as it is read: its end, its last item or an item with the rest of the list. -/
inductive Listed (divides : Token → Bool) (item : Parser α) (close : String) :
    Nat → List Sibling → List Token → List (Option (List String) × α) → List Token → Prop
  | closed {bound : Nat} {before : List Sibling} {token : Token} {rest : List Token}
      (closes : isMark close token = true) :
      Listed divides item close (bound + 1) before (token :: rest) [] rest
  | last {bound : Nat} {before : List Sibling} {token last : Token} {others rest : List Token}
      {value : α} (stays : isMark close token = false)
      (read : item (token :: others) = some (value, last :: rest))
      (ends : divides last = false) (closes : isMark close last = true) :
      Listed divides item close (bound + 1) before (token :: others)
        [(docOf token.row (siblingsBefore token before), value)] rest
  | more {bound : Nat} {before : List Sibling} {token last : Token} {others left rest : List Token}
      {value : α} {later : List (Option (List String) × α)} (stays : isMark close token = false)
      (read : item (token :: others) = some (value, last :: left)) (goes : divides last = true)
      (further : Listed divides item close bound
        (.declaration (endRowBefore token others (last :: left)) :: siblingsBefore token before)
        left later rest) :
      Listed divides item close (bound + 1) before (token :: others)
        ((docOf token.row (siblingsBefore token before), value) :: later) rest

section

variable {divides : Token → Bool} {item : Parser α} {close : String} {bound : Nat}
  {before : List Sibling} {tokens rest : List Token} {found : List (Option (List String) × α)}

theorem listed_of_items (read : items divides bound item close before tokens = some (found, rest)) :
    Listed divides item close bound before tokens found rest := by
  induction bound generalizing before tokens found with
  | zero => cases read
  | succ bound ih =>
      cases tokens with
      | nil => cases read
      | cons token others =>
          rw [items] at read
          cases closed : isMark close token with
          | true =>
              rw [closed, if_pos rfl] at read
              obtain ⟨rfl, rfl⟩ := Prod.mk.inj (Option.some.inj read)
              exact .closed closed
          | false =>
              rw [closed, if_neg Bool.false_ne_true, Option.bind_eq_some_iff] at read
              obtain ⟨⟨value, middle⟩, taken, read⟩ := read
              cases middle with
              | nil => cases read
              | cons last left =>
                  dsimp only at read
                  cases goes : divides last with
                  | true =>
                      rw [goes, if_pos rfl, Option.map_eq_some_iff] at read
                      obtain ⟨⟨later, rest⟩, further, same⟩ := read
                      obtain ⟨rfl, rfl⟩ := Prod.mk.inj same
                      exact .more closed taken goes (ih further)
                  | false =>
                      rw [goes, if_neg Bool.false_ne_true] at read
                      cases closes : isMark close last with
                      | true =>
                          rw [closes, if_pos rfl] at read
                          obtain ⟨rfl, rfl⟩ := Prod.mk.inj (Option.some.inj read)
                          exact .last closed taken goes closes
                      | false =>
                          rw [closes, if_neg Bool.false_ne_true] at read
                          cases read

theorem Listed.items (listed : Listed divides item close bound before tokens found rest) :
    items divides bound item close before tokens = some (found, rest) := by
  induction listed with
  | closed closes => rw [Go.items, if_pos closes]
  | last stays read ends closes => simp [Go.items, stays, read, ends, closes]
  | more stays read goes _ ih => simp [Go.items, stays, read, goes, ih]

theorem Listed.shorter (listed : Listed divides item close bound before tokens found rest)
    (shrinks : Shrinks item) : rest.length < tokens.length := by
  induction listed with
  | closed closes => exact Nat.lt_succ_self _
  | last stays read ends closes => exact Nat.lt_of_succ_le (shrinks _ _ _ read).length_le
  | more stays read goes _ ih =>
      exact ih.trans (Nat.lt_of_succ_le (shrinks _ _ _ read).length_le)

theorem Listed.suffix (listed : Listed divides item close bound before tokens found rest)
    (shrinks : Shrinks item) : rest <:+ tokens := by
  induction listed with
  | closed closes => exact List.suffix_cons _ _
  | last stays read ends closes => exact (List.suffix_cons _ _).trans (shrinks _ _ _ read)
  | more stays read goes _ ih =>
      exact (ih.trans (List.suffix_cons _ _)).trans (shrinks _ _ _ read)

/-- A list between commas is read as one whose documentation does not matter. -/
theorem comma_list_eq_some {values : List α} (shrinks : Shrinks item)
    (read : commaList bound item close tokens = some (values, rest)) :
    ∃ found, Listed (isMark ",") item close bound [] tokens found rest ∧
      values = found.map (·.2) := by
  rw [comma_list_eq_items shrinks bound close [], map_apply, Option.map_eq_some_iff] at read
  obtain ⟨⟨found, rest⟩, read, same⟩ := read
  obtain ⟨rfl, rfl⟩ := Prod.mk.inj same
  exact ⟨found, listed_of_items read, rfl⟩

theorem comma_list_of_listed (shrinks : Shrinks item)
    (listed : Listed (isMark ",") item close bound [] tokens found rest) :
    commaList bound item close tokens = some (found.map (·.2), rest) := by
  rw [comma_list_eq_items shrinks bound close [], map_apply, listed.items]
  rfl

theorem bracketed_of_listed {opening : String} {token : Token}
    (opens : isMark opening token = true)
    (listed : Listed isTerminator item close bound (siblingsBefore token []) tokens found rest) :
    bracketed opening close bound item (token :: tokens) = some (found, rest) := by
  rw [bracketed_eq_items, if_pos opens, listed.items]

theorem bracketed_eq_some {opening : String}
    (read : bracketed opening close bound item tokens = some (found, rest)) :
    ∃ token others, tokens = token :: others ∧ isMark opening token = true ∧
      Listed isTerminator item close bound (siblingsBefore token []) others found rest := by
  cases tokens with
  | nil => cases read
  | cons token others =>
      rw [bracketed_eq_items] at read
      cases opens : isMark opening token with
      | true =>
          rw [opens, if_pos rfl] at read
          exact ⟨token, others, rfl, opens, listed_of_items read⟩
      | false =>
          rw [opens, if_neg Bool.false_ne_true] at read
          cases read

end

end EndpointAtlas.Go
