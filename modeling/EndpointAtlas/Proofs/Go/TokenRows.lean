import EndpointAtlas.Go.Parser

/-!
The rows of tokens. Every token stands beside or below the one before it, and the comments that it
keeps stand between the two, in the order of the source.
-/

namespace EndpointAtlas.Go

open EndpointAtlas.Go.Parser Text

/-- Whether siblings, the nearest first, stand in the order of the source and end on the row or
above it. -/
def EndBy (row : Nat) : List Sibling → Prop
  | [] => True
  | .comment comment :: before =>
      comment.endRow ≤ row ∧ comment.row ≤ comment.endRow ∧ EndBy comment.row before
  | .declaration endRow :: before => endRow ≤ row ∧ EndBy endRow before

theorem EndBy.mono {row lower : Nat} {before : List Sibling} (ordered : EndBy row before)
    (below : row ≤ lower) : EndBy lower before := by
  cases before with
  | nil => trivial
  | cons near before =>
      cases near with
      | comment => exact ⟨Nat.le_trans ordered.1 below, ordered.2⟩
      | declaration => exact ⟨Nat.le_trans ordered.1 below, ordered.2⟩

theorem EndBy.append {row start : Nat} {comments : List Comment} {before : List Sibling}
    (ordered : EndBy row (comments.map .comment ++ [.declaration start]))
    (above : EndBy start before) : EndBy row (comments.map .comment ++ before) := by
  induction comments generalizing row with
  | nil => exact above.mono ordered.1
  | cons comment comments ih => exact ⟨ordered.1, ordered.2.1, ih ordered.2.2⟩

/-- Siblings end above all that comes after them. -/
theorem EndBy.end_row_le {row endRow : Nat} {near far : List Sibling}
    (ordered : EndBy row (near ++ .declaration endRow :: far)) : endRow ≤ row := by
  induction near generalizing row with
  | nil => exact ordered.1
  | cons first near ih =>
      cases first with
      | comment => exact Nat.le_trans (ih ordered.2.2) (Nat.le_trans ordered.2.1 ordered.1)
      | declaration => exact Nat.le_trans (ih ordered.2) ordered.1

theorem EndBy.member_le {row endRow : Nat} {before : List Sibling} (ordered : EndBy row before)
    (member : .declaration endRow ∈ before) : endRow ≤ row := by
  obtain ⟨near, far, rfl⟩ := List.append_of_mem member
  exact ordered.end_row_le

/-- Whether tokens stand in the order of the source from a row on, each with its comments between
itself and the token before it. Terminators do not count: the comments that stand before one are
those of the token after it. -/
def InOrder (row : Nat) : List Token → Prop
  | [] => True
  | token :: rest =>
      if isTerminator token then InOrder row rest
      else EndBy token.row (siblingsBefore token [.declaration row]) ∧ token.row ≤ token.endRow ∧
        InOrder token.endRow rest

def rowAfter (row : Nat) : List Token → Nat
  | [] => row
  | token :: rest => rowAfter (if isTerminator token then row else token.endRow) rest

section

variable {row : Nat} {token : Token} {tokens others : List Token}

theorem in_order_cons (stands : isTerminator token = false) : InOrder row (token :: tokens) ↔
    EndBy token.row (siblingsBefore token [.declaration row]) ∧ token.row ≤ token.endRow ∧
      InOrder token.endRow tokens := by
  simp only [InOrder, stands, Bool.false_eq_true, if_false]

theorem in_order_append : InOrder row (tokens ++ others) ↔
    InOrder row tokens ∧ InOrder (rowAfter row tokens) others := by
  induction tokens generalizing row with
  | nil => exact ⟨fun ordered => ⟨trivial, ordered⟩, And.right⟩
  | cons token tokens ih =>
      simp only [List.cons_append, InOrder, rowAfter]
      split
      · exact ih
      · rw [ih]
        simp only [and_assoc]

theorem row_after_append :
    rowAfter row (tokens ++ others) = rowAfter (rowAfter row tokens) others := by
  induction tokens generalizing row with
  | nil => rfl
  | cons token tokens ih => exact ih

theorem row_after_le (ordered : InOrder row tokens) : row ≤ rowAfter row tokens := by
  induction tokens generalizing row with
  | nil => exact Nat.le_refl _
  | cons token tokens ih =>
      cases ends : isTerminator token with
      | true =>
          simp only [InOrder, rowAfter, ends, if_true] at ordered ⊢
          exact ih ordered
      | false =>
          obtain ⟨comments, down, rest⟩ := (in_order_cons ends).1 ordered
          simp only [rowAfter, ends, Bool.false_eq_true, if_false]
          exact Nat.le_trans comments.end_row_le (Nat.le_trans down (ih rest))

end

namespace Token

theorem in_order_of_lexemes_from (scan : Scan) (lexemes : List Lexeme) (start : Nat)
    (ordered : EndBy scan.row
      ((scan.comments.map Sibling.comment).reverse ++ [.declaration start])) :
    InOrder start (ofLexemesFrom scan lexemes) := by
  induction lexemes generalizing scan start with
  | nil =>
      rw [ofLexemesFrom]
      split
      · trivial
      · trivial
  | cons lexeme rest ih =>
      have down := ordered.mono (Nat.le_add_right scan.row (lineEnds lexeme.glyphs))
      rw [ofLexemesFrom]
      split
      · have further (pending : Bool) : InOrder start (ofLexemesFrom
            ⟨scan.row + lineEnds lexeme.glyphs, scan.gap ++ lexeme.glyphs,
              if lexeme.kind = .comment then scan.comments ++ [⟨Glyph.text lexeme.glyphs, scan.row,
                scan.row + lineEnds lexeme.glyphs⟩] else scan.comments, pending⟩ rest) := by
          apply ih
          dsimp only
          split
          · rw [List.map_append, List.reverse_append]
            exact ⟨Nat.le_refl _, Nat.le_add_right _ _, ordered⟩
          · exact down
        dsimp only
        split
        · exact further false
        · exact further scan.pending
      · exact ih _ _ down
      · rename_i kind stands made
        have noTerminator : kind ≠ .terminator := stands
        refine (in_order_cons (by simpa [isTerminator] using noTerminator)).2 ⟨ordered, ?_⟩
        exact ⟨Nat.le_add_right _ _, ih _ _ ⟨Nat.le_refl _, trivial⟩⟩

theorem in_order_of_source {source : List Glyph} {tokens : List Token}
    (read : ofSource? source = some tokens) : InOrder 0 tokens := by
  unfold ofSource? at read
  split at read
  · cases read
  · obtain ⟨lexemes, -, rfl⟩ := Option.map_eq_some_iff.1 read
    exact in_order_of_lexemes_from _ lexemes 0 ⟨Nat.le_refl _, trivial⟩

end Token

end EndpointAtlas.Go
