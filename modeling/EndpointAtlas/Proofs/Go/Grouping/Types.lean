import Mathlib.Data.List.Induction
import EndpointAtlas.Proofs.Go.Grouping.Places
import EndpointAtlas.Proofs.Go.Rules.TypeEnds

/-!
Grouping is notation. Wherever a part of a file can be grouped in another way, a reader that takes
the part takes it in either way with the same result.
-/

namespace EndpointAtlas.Go

open EndpointAtlas.Go.Parser

variable {α β : Type}

@[simp] theorem lower_zero (tokens : List Token) : lower 0 tokens = tokens := by
  have same (token : Token) : token.lowered 0 = token := by
    have comments : token.comments.map (·.lowered 0) = token.comments := List.map_id _
    rw [Token.lowered]
    cases token
    simp_all
  simp only [lower, same, List.map_id']

/-- Whether two lists of tokens end with the same rest, one so many rows lower than the other, and
the tokens in front of the rest as well. -/
def EndsLower (rows : Nat) (tokens edited rest : List Token) : Prop :=
  ∃ front last front' last', tokens = front ++ last :: rest ∧
    edited = front' ++ last' :: lower rows rest ∧ last'.endRow = last.endRow + rows

/-- Whether a reader that reads the one list of tokens reads the other with the same result. -/
def Carries (rows : Nat) (reader : Parser α) (tokens edited : List Token) : Prop :=
  ∀ value rest, reader tokens = some (value, rest) →
    reader edited = some (value, lower rows rest) ∧ EndsLower rows tokens edited rest

namespace EndsLower

variable {rows : Nat} {tokens edited rest : List Token}

theorem append (front : List Token) (ends : EndsLower rows tokens edited rest) :
    EndsLower rows (front ++ tokens) (front ++ edited) rest := by
  obtain ⟨one, last, other, last', rfl, rfl, same⟩ := ends
  exact ⟨front ++ one, last, front ++ other, last', by simp, by simp, same⟩

theorem cons (token : Token) (ends : EndsLower rows tokens edited rest) :
    EndsLower rows (token :: tokens) (token :: edited) rest := ends.append [token]

theorem suffix {left : List Token} (ends : EndsLower rows tokens edited rest)
    (within : left <:+ rest) : EndsLower rows tokens edited left := by
  obtain ⟨one, last, other, last', rfl, rfl, same⟩ := ends
  obtain ⟨taken, rfl⟩ := within
  cases taken using List.reverseRecOn with
  | nil => exact ⟨one, last, other, last', rfl, rfl, same⟩
  | append_singleton taken final =>
      refine ⟨one ++ last :: taken, final, other ++ last' :: lower rows taken,
        final.lowered rows, by simp, by simp, rfl⟩

end EndsLower

namespace Carries

variable {rows : Nat} {tokens edited : List Token}

theorem bind {first : Parser α} {next : α → Parser β} (carries : Carries rows first tokens edited)
    (rowFree : ∀ value, RowFree rows (next value)) (shrinks : ∀ value, Shrinks (next value)) :
    Carries rows (first >>= next) tokens edited := by
  intro value rest read
  obtain ⟨found, middle, taken, further⟩ := bind_eq_some.1 read
  obtain ⟨again, ends⟩ := carries _ _ taken
  refine ⟨bind_eq_some.2 ⟨found, _, again, ?_⟩, ends.suffix (shrinks _ _ _ _ further)⟩
  rw [rowFree, further]
  rfl

theorem of_reads {reader : Parser α} {rest : List Token} {value : α}
    (read : reader tokens = some (value, rest))
    (again : reader edited = some (value, lower rows rest))
    (ends : EndsLower rows tokens edited rest) : Carries rows reader tokens edited := by
  intro found left found_
  obtain ⟨rfl, rfl⟩ := Prod.mk.inj (Option.some.inj (read.symm.trans found_))
  exact ⟨again, ends⟩

end Carries

theorem enough_for_mono {less more : Nat} (le : less ≤ more) : enoughFor less ≤ enoughFor more :=
  Nat.mul_le_mul_left _ (Nat.succ_le_succ le)

theorem Reader.read_eq_of_enough (reader : Reader α) (tokens : List Token) {bound further : Nat}
    (enough : enoughFor tokens.length ≤ bound) (enough' : enoughFor tokens.length ≤ further) :
    reader.read bound tokens = reader.read further tokens := by
  have := reader.rank_lt
  unfold enoughFor at enough enough'
  exact reader.read_eq_read tokens (by omega) (by omega)

theorem Reader.Reads.before {reader : Reader α} {front tokens others : List Token} {value : α}
    (reads : reader.Reads (front ++ tokens) value tokens) (alike : Alike tokens others) :
    reader.Reads (front ++ others) value others := by
  intro bound enough
  have large := reader.local_read _ _ _ _
    (reads (max bound (enoughFor (front ++ tokens).length)) (le_max_right _ _)) _ alike
  rw [← large]
  exact reader.read_eq_of_enough _ enough (enough.trans (le_max_left _ _))

theorem keyword_bind_of_is_keyword {token : Token} {rest : List Token} {text : String}
    (accepted : isKeyword text token = true) (next : Unit → Parser α) :
    (keyword text >>= next) (token :: rest) = next () rest := by
  rw [keyword, discard_eq_map, bind_map_left]
  exact take_bind_of_accepts accepted _

section

variable {depth : Nat} {opening closing : Token} {tokens rest : List Token} {type : TypeExpr}

theorem type_expr_star {star : Token} (points : isMark "*" star = true) (tokens : List Token) :
    typeExpr (depth + 1) (star :: tokens) = (typeExpr depth tokens).map fun pair =>
      (.pointer (afterMark tokens.head? pair.1), pair.2) := by
  have shown := is_mark_iff.1 points
  rw [typeExpr, next_bind, List.head?_cons]
  simp only [shown]
  rw [mark_bind_of_is_mark points, next_bind, bind_pure_comp, map_apply]

theorem type_expr_paren (opens : isMark "(" opening = true) (closes : isMark ")" closing = true)
    (read : typeExpr depth tokens = some (type, closing :: rest)) :
    typeExpr (depth + 1) (opening :: tokens) = some (afterMark tokens.head? type, rest) := by
  have shown := is_mark_iff.1 opens
  rw [typeExpr, next_bind, List.head?_cons]
  simp only [shown]
  rw [mark_bind_of_is_mark opens, next_bind, bind_apply, read, Option.bind_some,
    mark_bind_of_is_mark closes]
  rfl

theorem type_expr_bracket (opens : isMark "[" opening = true) (tokens : List Token) :
    typeExpr (depth + 1) (opening :: tokens) = (do
      if ← skip (isMark "]") then return .slice (← typeExpr depth)
      unless ← skip (isMark "...") do expr depth true
      mark "]"
      return .array (← typeExpr depth) : Parser TypeExpr) tokens := by
  have shown := is_mark_iff.1 opens
  rw [typeExpr, next_bind, List.head?_cons]
  simp only [shown]
  rw [mark_bind_of_is_mark opens]

theorem type_expr_map {word : Token} (maps : isKeyword "map" word = true) (tokens : List Token) :
    typeExpr (depth + 1) (word :: tokens) = (do
      mark "["
      let key ← typeExpr depth
      mark "]"
      return .map key (← typeExpr depth) : Parser TypeExpr) tokens := by
  have shown := is_keyword_iff.1 maps
  rw [typeExpr, next_bind, List.head?_cons]
  simp only [shown]
  rw [keyword_bind_of_is_keyword maps]

theorem sized_of_is_mark (closes : isMark "]" closing = true) :
    (do
      mark "]"
      return .array (← typeExpr depth) : Parser TypeExpr) (closing :: tokens) =
        (typeExpr depth tokens).map fun pair => (.array pair.1, pair.2) := by
  rw [mark_bind_of_is_mark closes, bind_pure_comp, map_apply]

theorem ElementPrefix.before {front tokens : List Token} {make : TypeExpr → TypeExpr}
    (leads : ElementPrefix front tokens make) (others : List Token) :
    ElementPrefix front others make := by
  cases leads with
  | slice opens closes => exact .slice opens closes
  | anyLength opens open_ closes => exact .anyLength opens open_ closes
  | array opens sized reads closes =>
      exact .array opens sized (reads.before (.of_is_mark closes (by decide) _ _)) closes
  | map maps opens reads closes =>
      exact .map maps opens (reads.before (.of_is_mark closes (by decide) _ _)) closes

theorem type_expr_element {front : List Token} {make : TypeExpr → TypeExpr}
    (leads : ElementPrefix front tokens make)
    (enough : enoughFor (front ++ tokens).length ≤ depth) :
    typeExpr (depth + 1) (front ++ tokens) =
      (typeExpr depth tokens).map fun pair => (make pair.1, pair.2) := by
  cases leads with
  | slice opens closes =>
      rw [List.cons_append, type_expr_bracket opens, List.cons_append, skip_bind_of_accepts closes,
        if_pos rfl, bind_pure_comp, map_apply]
      rfl
  | anyLength opens open_ closes =>
      have notClosed := not_is_mark open_ (by decide : "..." ≠ "]")
      rw [List.cons_append, type_expr_bracket opens, List.cons_append,
        skip_bind_of_refuses (by simpa using notClosed), if_neg Bool.false_ne_true,
        skip_bind_of_accepts open_, if_pos rfl]
      exact sized_of_is_mark closes
  | @array opening closing length tokens opens stays reads closes =>
      have read : expr depth true (length ++ closing :: tokens) = some ((), closing :: tokens) :=
        reads depth ((enough_for_mono (by simp)).trans enough)
      rw [List.cons_append, type_expr_bracket opens, List.append_assoc, List.singleton_append]
      cases length with
      | nil =>
          exact absurd ((Reader.expr true).consumes_read rfl depth _ _ _ read) (Nat.lt_irrefl _)
      | cons first length =>
          obtain ⟨notClosed, notOpen⟩ := stays first rfl
          rw [List.cons_append] at read
          rw [List.cons_append, skip_bind_of_refuses (by simpa using notClosed),
            if_neg Bool.false_ne_true, skip_bind_of_refuses (by simpa using notOpen),
            if_neg Bool.false_ne_true, bind_apply, read]
          exact sized_of_is_mark closes
  | @map word opening closing key tokens type maps opens reads closes =>
      have read := reads depth ((enough_for_mono (by simp; omega)).trans enough)
      rw [Reader.read] at read
      rw [List.cons_append, type_expr_map maps, List.cons_append, mark_bind_of_is_mark opens,
        List.append_assoc, List.singleton_append, bind_apply, read, Option.bind_some,
        mark_bind_of_is_mark closes, bind_pure_comp, map_apply]

theorem type_expr_succ_of_enough (enough : enoughFor tokens.length ≤ depth) :
    typeExpr (depth + 1) tokens = typeExpr depth tokens :=
  Reader.typeExpr.read_eq_of_enough tokens (Nat.le_succ_of_le enough) enough

theorem type_expr_in_parens {plain wrapped : List Token} (parens : InParens plain wrapped)
    (read : typeExpr depth (plain ++ rest) = some (type, rest))
    (enough : enoughFor (wrapped ++ rest).length ≤ depth) :
    typeExpr depth (wrapped ++ rest) = some (type, rest) := by
  cases parens with
  | @intro first bare opening closing inner resembles uncommented opens comments closes ends =>
      have closed : Test.endsType.accepts closing = true := by
        simp [Test.endsType, closes]
      have alone := (Reader.ends_types depth).1 (first :: inner) rest type read closing rest closed
      have bared : typeExpr depth (bare :: (inner ++ closing :: rest)) =
          some (type, closing :: rest) :=
        (type_expr_of_resembles resembles _).trans alone
      have whole := type_expr_paren opens closes bared
      rw [List.head?_cons, afterMark, uncommented] at whole
      rw [← type_expr_succ_of_enough enough, ← whole]
      simp

theorem type_expr_copied {plain copy : List Token} (copied : Copied plain copy)
    (read : typeExpr depth (plain ++ rest) = some (type, rest)) {last : Token} {others : List Token}
    (ends : Test.endsType.accepts last = true) :
    typeExpr depth (copy ++ last :: others) = some (type, last :: others) := by
  cases copied with
  | @intro first copy inner inner' up down resembles same =>
      have low : typeExpr depth (lower down (first :: inner) ++ lower down rest) =
          some (type, lower down rest) := by
        have rowFree : RowFree down (typeExpr depth) := Reader.typeExpr.row_free_read
        rw [← lower_append, rowFree, read]
        rfl
      have ended := (Reader.ends_types depth).1 _ _ _ low (last.lowered up) (lower up others) ends
      have shown : (copy.lowered up).Resembles (first.lowered down) :=
        ⟨resembles.kind, resembles.text, resembles.glyphs⟩
      have lowered : typeExpr depth (lower up (copy :: inner' ++ last :: others)) =
          some (type, lower up (last :: others)) := by
        rw [lower_append, lower_cons, same]
        exact (type_expr_of_resembles shown _).trans ended
      exact RowFree.of_lower Reader.typeExpr.row_free_read (Reader.typeExpr.shrinks_read depth)
        (List.suffix_append _ _) lowered

end

namespace InParens

variable {type wrapped rest : List Token} (parens : InParens type wrapped)

include parens

theorem ends_lower (rest : List Token) : EndsLower 0 (type ++ rest) (wrapped ++ rest) rest := by
  cases parens with
  | @intro first bare opening closing inner resembles uncommented opens comments closes ends =>
      refine ⟨(first :: inner).dropLast, _, opening :: bare :: inner, closing, ?_, by simp, ends⟩
      have cut := List.dropLast_append_getLast (List.cons_ne_nil first inner)
      exact (congrArg (· ++ rest) cut).symm.trans (by simp)

theorem after_mark_head (rest : List Token) (found : TypeExpr) :
    afterMark (wrapped ++ rest).head? found = afterMark (type ++ rest).head? found := by
  cases parens with
  | intro _ _ _ comments => simp [afterMark, comments]

theorem length_le : type.length ≤ wrapped.length := by
  cases parens with
  | intro => simp

theorem reads {found : TypeExpr} (reads : Reader.typeExpr.Reads (type ++ rest) found rest) :
    Reader.typeExpr.Reads (wrapped ++ rest) found rest := by
  intro bound enough
  refine type_expr_in_parens parens (reads bound ?_) enough
  have := parens.length_le
  exact (enough_for_mono (by simp; omega)).trans enough

end InParens

section

variable {depth : Nat} {type wrapped rest : List Token} {found : TypeExpr}
  (parens : InParens type wrapped)

include parens

theorem InParens.carries (front : List Token) {reader : Parser α} (value : α) {left : List Token}
    (reads : Reader.typeExpr.Reads (type ++ rest) found rest) (within : left <:+ rest)
    (whole : ∀ tokens, enoughFor (front ++ tokens).length ≤ depth →
      typeExpr depth tokens = some (found, rest) →
        afterMark tokens.head? found = afterMark (type ++ rest).head? found →
          reader (front ++ tokens) = some (value, left))
    (enough : enoughFor (front ++ (wrapped ++ rest)).length ≤ depth) :
    Carries 0 reader (front ++ (type ++ rest)) (front ++ (wrapped ++ rest)) := by
  have := parens.length_le
  have enough' : enoughFor (front ++ (type ++ rest)).length ≤ depth :=
    (enough_for_mono (by simp; omega)).trans enough
  have inner : typeExpr depth (type ++ rest) = some (found, rest) :=
    reads depth ((enough_for_mono (by simp)).trans enough')
  have inner' : typeExpr depth (wrapped ++ rest) = some (found, rest) :=
    parens.reads reads depth ((enough_for_mono (by simp)).trans enough)
  refine .of_reads (whole _ enough' inner rfl) ?_
    (((parens.ends_lower rest).append front).suffix within)
  rw [lower_zero]
  exact whole _ enough inner' (parens.after_mark_head rest found)

theorem carries_pointer {star : Token} (points : isMark "*" star = true)
    (reads : Reader.typeExpr.Reads (type ++ rest) found rest)
    (enough : enoughFor (star :: (wrapped ++ rest)).length ≤ depth) :
    Carries 0 (typeExpr depth) (star :: (type ++ rest)) (star :: (wrapped ++ rest)) := by
  refine parens.carries [star] (.pointer (afterMark (type ++ rest).head? found)) reads
    List.suffix_rfl (fun tokens enough read same => ?_) enough
  rw [List.singleton_append] at enough ⊢
  rw [← type_expr_succ_of_enough enough, type_expr_star points, read, Option.map_some, same]

theorem carries_element {front : List Token} {make : TypeExpr → TypeExpr}
    (leads : ElementPrefix front (type ++ rest) make)
    (reads : Reader.typeExpr.Reads (type ++ rest) found rest)
    (enough : enoughFor (front ++ (wrapped ++ rest)).length ≤ depth) :
    Carries 0 (typeExpr depth) (front ++ (type ++ rest)) (front ++ (wrapped ++ rest)) := by
  refine parens.carries front (make found) reads List.suffix_rfl
    (fun tokens enough read _ => ?_) enough
  rw [← type_expr_succ_of_enough enough, type_expr_element (leads.before tokens) enough, read,
    Option.map_some]

theorem carries_key {word opening closing : Token} (maps : isKeyword "map" word = true)
    (opens : isMark "[" opening = true)
    (reads : Reader.typeExpr.Reads (type ++ closing :: rest) found (closing :: rest))
    (closes : isMark "]" closing = true)
    (enough : enoughFor (word :: opening :: (wrapped ++ closing :: rest)).length ≤ depth) :
    Carries 0 (typeExpr depth) (word :: opening :: (type ++ closing :: rest))
      (word :: opening :: (wrapped ++ closing :: rest)) := by
  intro value left read
  have := parens.length_le
  have enough' : enoughFor (word :: opening :: (type ++ closing :: rest)).length ≤ depth :=
    (enough_for_mono (by simp; omega)).trans enough
  have split (key : List Token) : word :: opening :: (key ++ closing :: rest) =
      word :: opening :: (key ++ [closing]) ++ rest := by simp
  have whole := ElementPrefix.map maps opens reads closes
  have whole' := ElementPrefix.map maps opens (parens.reads reads) closes
  have ends : EndsLower 0 (word :: opening :: (type ++ closing :: rest))
      (word :: opening :: (wrapped ++ closing :: rest)) rest :=
    (((parens.ends_lower (closing :: rest)).suffix (List.suffix_cons _ _)).cons opening).cons word
  rw [← type_expr_succ_of_enough enough', split, type_expr_element whole (split type ▸ enough'),
    Option.map_eq_some_iff] at read
  obtain ⟨⟨found', left⟩, inner, same⟩ := read
  obtain ⟨rfl, rfl⟩ := Prod.mk.inj same
  refine ⟨?_, ends.suffix (Reader.typeExpr.shrinks_read _ _ _ _ inner)⟩
  rw [← type_expr_succ_of_enough enough, split, type_expr_element whole' (split wrapped ▸ enough),
    inner, lower_zero]
  rfl

end

end EndpointAtlas.Go
