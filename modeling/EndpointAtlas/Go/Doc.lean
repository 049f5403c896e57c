import EndpointAtlas.Go.Token

/-!
Which comments document a declaration. They are the comments that stand directly above it without a
blank line, as far up as no blank line and no other declaration on the same line interrupts them.
-/

namespace EndpointAtlas.Go

/-- What stands before a declaration on its level: comments, and other declarations with the row of
their last character. -/
inductive Sibling where
  | comment (comment : Comment)
  | declaration (endRow : Nat)
  deriving DecidableEq, Repr

/-- Whether a comment starts on the row where the declaration directly before it ends. The siblings
before it are given with the nearest first. -/
def isTrailing (comment : Comment) : List Sibling → Bool
  | .declaration endRow :: _ => endRow == comment.row
  | _ => false

/-- The documenting comments of what starts on the row, the nearest first. -/
def docRun (row : Nat) : List Sibling → List Comment
  | .comment comment :: before =>
      if comment.endRow + 1 = row && !isTrailing comment before then
        comment :: docRun comment.row before
      else []
  | _ => []

/-- The texts of the documenting comments in source order. The siblings before the declaration are
given with the nearest first. -/
def docOf (row : Nat) (before : List Sibling) : Option (List String) :=
  match docRun row before with
  | [] => none
  | run => some ((run.map (·.text)).reverse)

def siblingsBefore (token : Token) (before : List Sibling) : List Sibling :=
  (token.comments.map Sibling.comment).reverse ++ before

end EndpointAtlas.Go
