import Mathlib.Data.List.Basic
import EndpointAtlas.Proofs.Go.Nesting
import EndpointAtlas.Proofs.Go.Rules.Tokens

/-!
Names in front of types. After a name that is a type by itself no type can follow, whatever its type
arguments are, so that an item without a name is never taken for one with a name.
-/

namespace EndpointAtlas.Go

open EndpointAtlas.Go.Parser

variable {α : Type} {depth : Nat} {tokens rest : List Token} {token : Token}

theorem uninterpreted_type_eq_none (noType : startsType token = false) (rest : List Token) :
    uninterpretedType depth (token :: rest) = none := by
  cases depth with
  | zero => rw [uninterpretedType]; rfl
  | succ depth =>
      have noKeyword (text : String)
          (starts : text ∈ ["struct", "interface", "map", "chan", "func"]) :
          isKeyword text token = false := by
        by_contra keyword
        rw [Bool.not_eq_false, is_keyword_iff] at keyword
        simp_all [startsType]
      have noArrow : isMark "<-" token = false := by
        by_contra mark
        rw [Bool.not_eq_false, is_mark_iff] at mark
        simp_all [startsType]
      rw [uninterpretedType, skip_bind_of_refuses (by simpa using noKeyword _ (by decide)),
        if_neg Bool.false_ne_true, skip_bind_of_refuses (by simpa using noArrow),
        if_neg Bool.false_ne_true, keyword, discard_eq_map, bind_map_left,
        take_bind_of_refuses (noKeyword _ (by decide))]

theorem type_expr_eq_none (noType : ∀ token ∈ tokens.head?, startsType token = false) :
    typeExpr depth tokens = none := by
  cases depth with
  | zero => rw [typeExpr]; rfl
  | succ depth =>
      rw [typeExpr, next_bind]
      cases tokens with
      | nil => rfl
      | cons token rest =>
          have noType := noType token rfl
          have other := @uninterpreted_type_eq_none depth token noType rest
          rw [List.head?_cons]
          dsimp only
          rw [startsType] at noType
          generalize token.kind = kind, token.text = text at noType ⊢
          split
          all_goals try simp at noType
          rw [bind_apply, withTokens, other]
          rfl

theorem type_expr_of_is_name (named : isName token = true) (tokens : List Token) :
    typeExpr (depth + 1) (token :: tokens) = typeName depth (token :: tokens) := by
  have kind : token.kind = .name := by simpa [isName] using named
  rw [typeExpr, next_bind, List.head?_cons]
  simp only [kind]

theorem type_name_of_type_expr {type : TypeExpr} (named : isName token = true)
    (read : typeExpr depth (token :: tokens) = some (type, rest)) :
    ∃ bound, typeName bound (token :: tokens) = some (type, rest) := by
  cases depth with
  | zero =>
      rw [typeExpr] at read
      cases read
  | succ depth => exact ⟨depth, type_expr_of_is_name named tokens ▸ read⟩

inductive LengthRead (depth : Nat) (rest : List Token) : List Token → Prop
  | slice : LengthRead depth rest []
  | anyLength {dots : Token} (open_ : isMark "..." dots = true) : LengthRead depth rest [dots]
  | array {length : List Token}
      (sized : ∀ token ∈ length.head?, isMark "]" token = false ∧ isMark "..." token = false)
      (read : expr depth true (length ++ rest) = some ((), rest)) : LengthRead depth rest length

theorem LengthRead.balanced {length : List Token} (read : LengthRead depth rest length) :
    Balanced length := by
  cases read with
  | slice => rfl
  | @anyLength dots open_ =>
      have plain : Plain (isMark "...") := plain_is_mark (by decide)
      rw [Balanced, pendingAfter, List.foldlM_cons, plain dots open_]
      rfl
  | array sized read =>
      obtain ⟨taken, split, balanced⟩ := (nests depth).expr true [] _ _ _ read
      rwa [List.append_cancel_right split]

/-- A type in front of which something stands in square brackets. -/
theorem type_expr_of_square {type : TypeExpr} (opens : isMark "[" token = true)
    (read : typeExpr (depth + 1) (token :: tokens) = some (type, rest)) :
    ∃ length close tail found, tokens = length ++ close :: tail ∧ isMark "]" close = true ∧
      LengthRead depth (close :: tail) length ∧ typeExpr depth tail = some (found, rest) := by
  have shown := is_mark_iff.1 opens
  rw [typeExpr, next_bind, List.head?_cons] at read
  simp only [shown] at read
  rw [mark_bind_of_is_mark opens, bind_eq_some] at read
  obtain ⟨closed, left, skipped, read⟩ := read
  obtain ⟨rfl, close, rfl, closes⟩ | ⟨rfl, rfl, open'⟩ := skip_eq_some skipped
  · obtain ⟨found, rest, element, same⟩ := bind_eq_some.1 read
    obtain ⟨-, rfl⟩ := Prod.mk.inj (Option.some.inj same)
    exact ⟨[], close, left, found, rfl, closes, .slice, element⟩
  · rw [if_neg Bool.false_ne_true, bind_eq_some] at read
    obtain ⟨anyLength, others, skipped, read⟩ := read
    have after {others : List Token} (read : (do
        mark "]"
        let element ← typeExpr depth
        pure element.array : Parser TypeExpr) others = some (type, rest)) :
        ∃ close tail found, others = close :: tail ∧ isMark "]" close = true ∧
          typeExpr depth tail = some (found, rest) := by
      obtain ⟨nothing, middle, closed, further⟩ := bind_eq_some.1 read
      obtain ⟨close, rfl, closes⟩ := mark_eq_some.1 closed
      obtain ⟨found, rest, element, same⟩ := bind_eq_some.1 further
      obtain ⟨-, rfl⟩ := Prod.mk.inj (Option.some.inj same)
      exact ⟨close, middle, found, rfl, closes, element⟩
    obtain ⟨rfl, dots, rfl, seen⟩ | ⟨rfl, rfl, sized⟩ := skip_eq_some skipped
    · obtain ⟨close, tail, found, rfl, closes, element⟩ := after read
      exact ⟨[dots], close, tail, found, rfl, closes, .anyLength seen, element⟩
    · obtain ⟨nothing, middle, length, read⟩ := bind_eq_some.1 read
      obtain ⟨close, tail, found, rfl, closes, element⟩ := after read
      obtain ⟨content, rfl⟩ := (Reader.expr true).shrinks_read depth _ _ _ length
      refine ⟨content, close, tail, found, rfl, closes, .array (fun token first => ?_) length,
        element⟩
      have first' : token ∈ (content ++ close :: tail).head? :=
        List.mem_head?_append_of_mem_head? first
      exact ⟨open' token first', sized token first'⟩

theorem Listed.balanced {item : Parser α} (keeps : Keeps item) {close : String} {bound : Nat}
    {before : List Sibling} {found : List (Option (List String) × α)}
    (listed : Listed (isMark ",") item close bound before tokens found rest) :
    ∃ content token, tokens = content ++ token :: rest ∧ isMark close token = true ∧
      Balanced content := by
  induction listed with
  | @closed bound before token rest closes => exact ⟨[], token, rfl, closes, rfl⟩
  | @last bound before token last others rest value stays read ends closes =>
      obtain ⟨content, split, balanced⟩ := keeps [] _ _ _ read
      exact ⟨content, last, split, closes, balanced⟩
  | @more bound before token last others left rest value later stays read goes further ih =>
      obtain ⟨content, split, balanced⟩ := keeps [] _ _ _ read
      obtain ⟨content', close, rfl, closes, balanced'⟩ := ih
      refine ⟨content ++ [last] ++ content', close, by simp [split], closes, ?_⟩
      refine (Balanced.append balanced ?_).append balanced'
      have plain : Plain (isMark ",") := plain_is_mark (by decide)
      rw [Balanced, pendingAfter, List.foldlM_cons, plain last goes]
      rfl

theorem fail_unless_eq_some {condition : Bool} {nothing : Unit} :
    failUnless condition tokens = some (nothing, rest) ↔ condition = true ∧ tokens = rest := by
  cases condition with
  | true =>
      exact ⟨fun read => ⟨rfl, (Prod.mk.inj (Option.some.inj read)).2⟩, fun same => same.2 ▸ rfl⟩
  | false => exact ⟨nofun, nofun⟩

/-- What follows a name that is a type: nothing of the type, a point, or its type arguments. -/
theorem type_name_cons {type : TypeExpr}
    (read : typeName depth (token :: tokens) = some (type, rest)) :
    isName token = true ∧ (tokens = rest ∨ (∃ dot others, tokens = dot :: others ∧
      isMark "." dot = true) ∨
      ∃ opening content close, tokens = opening :: (content ++ close :: rest) ∧
        isMark "[" opening = true ∧ isMark "]" close = true ∧ Balanced content) := by
  cases depth with
  | zero =>
      rw [typeName] at read
      cases read
  | succ depth =>
      rw [typeName] at read
      obtain ⟨pair, rest, spanned, same⟩ := bind_eq_some.1 read
      obtain ⟨-, rfl⟩ := Prod.mk.inj (Option.some.inj same)
      obtain ⟨inner, -⟩ := with_tokens_eq_some.1 spanned
      obtain ⟨text, middle, named, rest⟩ := bind_eq_some.1 inner
      obtain ⟨first, split, isName, -⟩ := name_eq_some.1 named
      obtain ⟨rfl, rfl⟩ := List.cons.inj split
      refine ⟨isName, ?_⟩
      obtain ⟨dotted, left, skipped, qualified⟩ := bind_eq_some.1 rest
      obtain ⟨rfl, dot, rfl, isDot⟩ | ⟨rfl, rfl, -⟩ := skip_eq_some skipped
      · exact .inr (.inl ⟨dot, left, rfl, isDot⟩)
      · rw [if_neg Bool.false_ne_true, pure_bind] at qualified
        obtain ⟨generic, left, skipped, further⟩ := bind_eq_some.1 qualified
        obtain ⟨rfl, opening, rfl, opens⟩ | ⟨rfl, rfl, -⟩ := skip_eq_some skipped
        · obtain ⟨arguments, last, listed, ended⟩ := bind_eq_some.1 further
          obtain ⟨nothing, rest, checked, same⟩ := bind_eq_some.1 ended
          obtain ⟨-, rfl⟩ := fail_unless_eq_some.1 checked
          obtain ⟨-, rfl⟩ := Prod.mk.inj (Option.some.inj same)
          obtain ⟨found, listed, -⟩ :=
            comma_list_eq_some (Reader.typeExpr.shrinks_read depth) listed
          obtain ⟨content, close, rfl, closes, balanced⟩ := listed.balanced (nests depth).typeExpr
          exact .inr (.inr ⟨opening, content, close, rfl, opens, closes, balanced⟩)
        · obtain ⟨-, rfl⟩ := Prod.mk.inj (Option.some.inj further)
          exact .inl rfl

theorem type_name_ident {text : String}
    (read : typeName depth (token :: tokens) = some (.ident text, rest)) : tokens = rest := by
  cases depth with
  | zero =>
      rw [typeName] at read
      cases read
  | succ depth =>
      rw [typeName] at read
      obtain ⟨⟨⟨type, isGeneric⟩, taken⟩, rest, spanned, same⟩ := bind_eq_some.1 read
      obtain ⟨shown, rfl⟩ := Prod.mk.inj (Option.some.inj same)
      obtain ⟨inner, -⟩ := with_tokens_eq_some.1 spanned
      obtain ⟨text, middle, named, inner⟩ := bind_eq_some.1 inner
      obtain ⟨first, split, -, -⟩ := name_eq_some.1 named
      obtain ⟨rfl, rfl⟩ := List.cons.inj split
      have generic {type' : TypeExpr} {others : List Token} (inner : (do
          let arguments ← commaList depth (typeExpr depth) "]"
          failUnless !arguments.isEmpty
          return (type', true)) others = some ((type, isGeneric), rest)) : False := by
        obtain ⟨arguments, last, -, ended⟩ := bind_eq_some.1 inner
        obtain ⟨nothing, left, -, same⟩ := bind_eq_some.1 ended
        obtain ⟨same, -⟩ := Prod.mk.inj (Option.some.inj same)
        obtain ⟨-, rfl⟩ := Prod.mk.inj same
        cases shown
      rcases skip_bind_eq_some.1 inner with ⟨dot, others, -, -, inner⟩ | ⟨-, inner⟩
      · rw [if_pos rfl, bind_eq_some] at inner
        obtain ⟨name, left, -, inner⟩ := inner
        rw [pure_bind] at inner
        rcases skip_bind_eq_some.1 inner with ⟨_, _, -, -, inner⟩ | ⟨-, inner⟩
        · exact (generic inner).elim
        · obtain ⟨same, -⟩ := Prod.mk.inj (Option.some.inj inner)
          obtain ⟨rfl, rfl⟩ := Prod.mk.inj same
          cases shown
      · rw [if_neg Bool.false_ne_true, pure_bind] at inner
        rcases skip_bind_eq_some.1 inner with ⟨_, _, -, -, inner⟩ | ⟨-, inner⟩
        · exact (generic inner).elim
        · exact (Prod.mk.inj (Option.some.inj inner)).2

theorem constraint_ident {text : String} (named : isName token = true)
    (read : constraint depth (token :: tokens) = some (some (.embedded (.ident text)), rest)) :
    tokens = rest := by
  cases depth with
  | zero =>
      rw [constraint] at read
      cases read
  | succ depth =>
      have kind : token.kind = .name := by simpa [isName] using named
      rw [constraint, sees_bind, skip_bind_of_refuses (by simp [isMark, kind]), bind_eq_some]
        at read
      obtain ⟨type, middle, typed, read⟩ := read
      obtain ⟨bound, typed⟩ := type_name_of_type_expr named typed
      rcases skip_bind_eq_some.1 read with ⟨bar, others, -, -, read⟩ | ⟨-, read⟩
      · rw [if_pos rfl, bind_eq_some] at read
        obtain ⟨_, _, -, read⟩ := read
        cases read
      · simp only [List.head?_cons, Option.map_some, Option.getD_some, named, if_true,
          Bool.false_eq_true, if_false] at read
        split at read
        · obtain ⟨-, rfl⟩ := Prod.mk.inj (Option.some.inj read)
          exact type_name_ident typed
        · obtain ⟨same, rfl⟩ := Prod.mk.inj (Option.some.inj read)
          cases same
        · cases read

theorem pending_step_nil_closing {bracket : Bracket}
    (closes : isMark bracket.closing token = true) :
    pendingStep [] token = none := by
  rw [is_mark_iff] at closes
  have unopened : token.opens? = none := by
    rw [Token.opens?, if_pos closes.1, closes.2]
    cases bracket <;> rfl
  have closed : token.closes? = some bracket := by
    rw [Token.closes?, if_pos closes.1, closes.2]
    cases bracket <;> rfl
  simp [pendingStep, unopened, closed]

/-- No balanced tokens go past a token that can not stand outside brackets. -/
theorem Balanced.is_prefix_of_stop {taken front rest others : List Token} {last : Token}
    (balanced : Balanced taken) (balanced' : Balanced front)
    (split : front ++ last :: others = taken ++ rest) (stops : pendingStep [] last = none) :
    ∃ middle, front = taken ++ middle ∧ rest = middle ++ last :: others := by
  obtain ⟨middle, rfl, same⟩ | ⟨middle, rfl, same⟩ := List.append_eq_append_iff.1 split
  · cases middle with
    | nil => exact ⟨[], by simp, same.symm⟩
    | cons next middle =>
        obtain ⟨rfl, -⟩ := List.cons.inj same
        rw [Balanced, pending_after_append, balanced', Option.bind_some, pendingAfter,
          List.foldlM_cons, stops] at balanced
        cases balanced
  · exact ⟨middle, rfl, same⟩

/-- Brackets close where their content ends. -/
theorem content_unique {content content' : List Token} {close close' : Token}
    {rest rest' : List Token} {bracket : Bracket}
    (same : content ++ close :: rest = content' ++ close' :: rest')
    (closes : isMark bracket.closing close = true) (closes' : isMark bracket.closing close' = true)
    (balanced : Balanced content) (balanced' : Balanced content') :
    content = content' ∧ rest = rest' := by
  obtain ⟨middle, rfl, split⟩ :=
    balanced'.is_prefix_of_stop balanced same (pending_step_nil_closing closes)
  cases middle with
  | nil => exact ⟨by simp, (List.cons.inj split).2.symm⟩
  | cons next middle =>
      obtain ⟨rfl, -⟩ := List.cons.inj split
      rw [Balanced, pending_after_append, balanced', Option.bind_some, pendingAfter,
        List.foldlM_cons, pending_step_nil_closing closes'] at balanced
      cases balanced

/-- No points follow a name that is a type by itself, if none follow the type. -/
theorem not_dots_after_type_name {type : TypeExpr}
    (read : typeName depth (token :: tokens) = some (type, rest))
    (noDots : ∀ token ∈ rest.head?, isMark "..." token = false) :
    ∀ token ∈ tokens.head?, isMark "..." token = false := by
  have other {token : Token} {text : String} (shown : isMark text token = true)
      (differs : text ≠ "...") : isMark "..." token = false := by
    rw [is_mark_iff] at shown
    simp [isMark, shown, differs]
  obtain ⟨-, rfl | ⟨dot, others, rfl, isDot⟩ | ⟨opening, content, close, rfl, opens, -⟩⟩ :=
    type_name_cons read
  · exact noDots
  · simpa using other isDot (by decide)
  · simpa using other opens (by decide)

/-- After a name that is a type by itself no type can be read, if no type can follow. -/
theorem type_expr_after_type_name {type : TypeExpr} (bound : Nat)
    (read : typeName depth (token :: tokens) = some (type, rest))
    (noType : ∀ token ∈ rest.head?, startsType token = false) : typeExpr bound tokens = none := by
  obtain ⟨-, rfl | ⟨dot, others, rfl, isDot⟩ |
    ⟨opening, content, close, rfl, opens, closes, balanced⟩⟩ := type_name_cons read
  · exact type_expr_eq_none noType
  · refine type_expr_eq_none ?_
    rintro _ ⟨⟩
    rw [is_mark_iff] at isDot
    simp [startsType, isDot]
  · refine Option.eq_none_iff_forall_ne_some.2 fun pair typed => ?_
    cases bound with
    | zero =>
        rw [typeExpr] at typed
        cases typed
    | succ bound =>
        obtain ⟨content', close', tail, found, same, closes', length, element⟩ :=
          type_expr_of_square opens typed
        obtain ⟨-, rfl⟩ :=
          @content_unique _ _ _ _ _ _ .square same closes closes' balanced length.balanced
        rw [type_expr_eq_none noType] at element
        cases element

end EndpointAtlas.Go
