import Mathlib.Logic.Relation
import EndpointAtlas.Proofs.Go.Grouping.Edits
import EndpointAtlas.Proofs.Go.Rules.Declarations

/-!
Grouping is notation. A file is read alike in whatever way the types and the names in it are
grouped.
-/

namespace EndpointAtlas.Go

open EndpointAtlas.Go.Parser

/-- The tokens of a file, and of the file with a place in one of its declarations grouped in another
way. -/
inductive Regroups : List Token → List Token → Prop
  | intro {rows : Nat} {front tokens edited : List Token}
      (leads : Leads Rule.declaration isTerminator (fun _ => false) front tokens)
      (edits : Rule.declaration.Edited rows tokens edited) :
      Regroups (front ++ tokens) (front ++ edited)

namespace SourceFile

variable {depth remaining : Nat} {file result : SourceFile} {before : List Sibling}
  {tokens edited : List Token}

def declarationsAfter (depth remaining : Nat) (file : SourceFile) (siblings : List Sibling)
    (endRow : Nat) : List Token → Option SourceFile
  | [] => some file
  | terminator :: tail =>
      if isTerminator terminator then
        declarations depth remaining file (.declaration endRow :: siblings) tail
      else none

theorem declarations_cons (first : Token) (rest : List Token) :
    declarations depth (remaining + 1) file before (first :: rest) =
      (Rule.declaration.run depth (first :: rest)).bind fun pair =>
        declarationsAfter depth remaining
          (pair.1.addTo file (docOf first.row (siblingsBefore first before)))
          (siblingsBefore first before) (endRowBefore first rest pair.2) pair.2 := by
  rw [declarations, withTokens, Rule.run_declaration, map_apply]
  cases Rule.declaration.run depth (first :: rest) with
  | none => rfl
  | some pair =>
      obtain ⟨declared, after⟩ := pair
      cases after <;> rfl

theorem declarations_declaration (endRow : Nat) (before other : List Sibling)
    (tokens : List Token) :
    declarations depth remaining file (.declaration endRow :: before) tokens =
      declarations depth remaining file (.declaration endRow :: other) tokens := by
  induction remaining generalizing file endRow before other tokens with
  | zero => cases tokens <;> rfl
  | succ remaining ih =>
      cases tokens with
      | nil => rfl
      | cons token others =>
          have doc : docOf token.row (siblingsBefore token (.declaration endRow :: before)) =
              docOf token.row (siblingsBefore token (.declaration endRow :: other)) := by
            rw [docOf, docOf, siblingsBefore, siblingsBefore, ← List.map_reverse,
              doc_run_declaration]
          rw [declarations_cons, declarations_cons, doc]
          congr 1
          funext pair
          cases pair.2 with
          | nil => rfl
          | cons terminator tail =>
              rw [declarationsAfter, declarationsAfter,
                ih _ _ (siblingsBefore token (.declaration endRow :: other))]

/-- What a file is does not depend on the rows where it starts. -/
theorem declarations_lower (rows : Nat) (before : List Sibling) (tokens : List Token) :
    declarations depth remaining file (before.map (·.lowered rows)) (lower rows tokens) =
      declarations depth remaining file before tokens := by
  induction remaining generalizing file before tokens with
  | zero => cases tokens <;> rfl
  | succ remaining ih =>
      cases tokens with
      | nil => rfl
      | cons token others =>
          have rowFree : RowFree rows (Rule.declaration.run depth) :=
            Rule.declaration.row_free_run fun reader => reader.row_free_read
          have doc : docOf (token.lowered rows).row _ = _ :=
            doc_of_lowered rows (siblingsBefore token before) token.row
          rw [lower_cons, declarations_cons, declarations_cons, ← lower_cons, rowFree,
            siblings_before_lowered, doc]
          cases Rule.declaration.run depth (token :: others) with
          | none => rfl
          | some pair =>
              obtain ⟨declared, after⟩ := pair
              rw [Option.map_some, Option.bind_some, Option.bind_some, end_row_before_lower]
              cases after with
              | nil => rfl
              | cons terminator tail =>
                  have further := @ih
                    (declared.addTo file (docOf token.row (siblingsBefore token before)))
                    (.declaration (endRowBefore token others (terminator :: tail)) ::
                      siblingsBefore token before) tail
                  rw [List.map_cons, Sibling.lowered_declaration] at further
                  dsimp only
                  rw [lower_cons, declarationsAfter, declarationsAfter, is_terminator_lowered,
                    further]

/-- From bounds on that the tokens give, the bounds do not matter. -/
theorem declarations_eq {depth' remaining' : Nat} (enough : enoughFor tokens.length ≤ depth)
    (enough' : enoughFor tokens.length ≤ depth') (few : tokens.length ≤ remaining)
    (few' : tokens.length ≤ remaining') :
    declarations depth remaining file before tokens =
      declarations depth' remaining' file before tokens := by
  induction remaining generalizing remaining' file before tokens with
  | zero =>
      obtain rfl := List.eq_nil_of_length_eq_zero (Nat.le_zero.1 few)
      cases remaining' <;> rfl
  | succ remaining ih =>
      cases tokens with
      | nil => cases remaining' <;> rfl
      | cons token others =>
          obtain ⟨remaining', rfl⟩ := Nat.exists_eq_add_one_of_ne_zero
            (Nat.ne_zero_of_lt (Nat.lt_of_succ_le few'))
          rw [declarations_cons, declarations_cons,
            Rule.declaration.run_eq_run_of_enough _ enough enough']
          cases read : Rule.declaration.run depth' (token :: others) with
          | none => rfl
          | some pair =>
              obtain ⟨declared, after⟩ := pair
              have shorter := (Rule.declaration.shrinks_run depth' _ _ _ read).length_le
              rw [Option.bind_some, Option.bind_some]
              cases after with
              | nil => rfl
              | cons terminator tail =>
                  rw [List.length_cons, List.length_cons] at shorter
                  rw [List.length_cons] at few few'
                  have fewer : enoughFor tail.length ≤ enoughFor (token :: others).length :=
                    enough_for_mono (by rw [List.length_cons]; omega)
                  dsimp only
                  rw [declarationsAfter, declarationsAfter,
                    @ih _ _ tail remaining' (fewer.trans enough) (fewer.trans enough') (by omega)
                      (by omega)]

theorem declarations_of_edited {rows : Nat} (edits : Rule.declaration.Edited rows tokens edited)
    (enough : enoughFor tokens.length ≤ depth) (enough' : enoughFor edited.length ≤ depth)
    (read : declarations depth remaining file before tokens = some result) :
    declarations depth remaining file before edited = some result := by
  have head := edits.alike.head
  cases tokens with
  | nil =>
      obtain rfl : edited = [] := List.head?_eq_none_iff.1 head.symm
      exact read
  | cons token others =>
      obtain ⟨others', rfl⟩ : ∃ others', edited = token :: others' := by
        cases edited with
        | nil => cases head
        | cons token' others' => exact ⟨others', by rw [Option.some.inj head]⟩
      cases remaining with
      | zero => cases read
      | succ remaining =>
          rw [declarations_cons, Option.bind_eq_some_iff] at read
          obtain ⟨⟨declared, after⟩, taken, left⟩ := read
          obtain ⟨again, below⟩ := edits.carries enough enough' _ _ taken
          rw [declarations_cons, again, Option.bind_some]
          cases after with
          | nil => exact left
          | cons terminator tail =>
              have rows' := below.end_row_before
              have further := @declarations_lower depth remaining
                (declared.addTo file (docOf token.row (siblingsBefore token before))) rows
                (.declaration (endRowBefore token others (terminator :: tail)) ::
                  siblingsBefore token before) tail
              rw [List.map_cons, Sibling.lowered_declaration,
                declarations_declaration _ _ (siblingsBefore token before)] at further
              rw [rows', lower_cons, declarationsAfter, is_terminator_lowered, further]
              exact left

/-- Declarations in front of an edited one are read as before. -/
theorem declarations_of_leads {front : List Token}
    (leads : Leads Rule.declaration isTerminator (fun _ => false) front tokens)
    (alike : Alike tokens edited)
    (same : ∀ {remaining file before result},
      declarations depth remaining file before tokens = some result →
        declarations depth remaining file before edited = some result)
    (enough : enoughFor (front ++ tokens).length ≤ depth)
    (read : declarations depth remaining file before (front ++ tokens) = some result) :
    declarations depth remaining file before (front ++ edited) = some result := by
  induction leads generalizing remaining file before with
  | here => exact same read
  | @next taken front tokens value last stays reads goes further ih =>
      rw [List.append_assoc, List.cons_append] at enough
      have found := reads depth enough
      have found' := Rule.declaration.is_local _ _ _ found _ ((alike.append front).cons last)
      obtain ⟨token, others, whole⟩ :=
        List.exists_cons_of_ne_nil (by simp : taken ++ last :: (front ++ tokens) ≠ [])
      obtain ⟨inner, starts⟩ := Local.exists_cons_of_append whole
      have joined (others : List Token) :
          taken ++ last :: front ++ others = token :: (inner ++ (front ++ others)) := by
        rw [List.append_assoc, List.cons_append, starts]
      rw [joined] at read
      rw [joined]
      rw [starts] at found found'
      cases remaining with
      | zero => cases read
      | succ remaining =>
          rw [declarations_cons, found, Option.bind_some] at read
          rw [declarations_cons, found', Option.bind_some]
          dsimp only at read ⊢
          rw [end_row_before_of_append (starts (front ++ tokens)).symm, declarationsAfter,
            if_pos goes]
            at read
          rw [end_row_before_of_append (starts (front ++ edited)).symm, declarationsAfter,
            if_pos goes]
          exact ih alike same ((enough_for_mono (by simp; omega)).trans enough) read

/-- A file that is grouped in another way in one place is the same file. -/
theorem of_tokens_of_regroups (regroups : Regroups tokens edited)
    (read : ofTokens? tokens = some file) : ofTokens? edited = some file := by
  cases regroups with
  | @intro rows front tokens edited leads edits =>
      let depth := max (depthBound (front ++ tokens).length) (depthBound (front ++ edited).length)
      let remaining := max ((front ++ tokens).length + 1) ((front ++ edited).length + 1)
      have bound (count : Nat) : enoughFor count ≤ depthBound count :=
        Nat.mul_le_mul_left _ (Nat.le_succ _)
      have enough : enoughFor (front ++ tokens).length ≤ depth := (bound _).trans (le_max_left _ _)
      have enough' : enoughFor (front ++ edited).length ≤ depth :=
        (bound _).trans (le_max_right _ _)
      have few : (front ++ tokens).length ≤ remaining := (Nat.le_succ _).trans (le_max_left _ _)
      have few' : (front ++ edited).length ≤ remaining := (Nat.le_succ _).trans (le_max_right _ _)
      rw [ofTokens?, declarations_eq (bound _) enough (Nat.le_succ _) few] at read
      rw [ofTokens?, declarations_eq (bound _) enough' (Nat.le_succ _) few']
      exact declarations_of_leads leads edits.alike
        (declarations_of_edited edits ((enough_for_mono (by simp)).trans enough)
          ((enough_for_mono (by simp)).trans enough')) enough read

/-- Grouping is notation: whatever places of a file are grouped in another way, what is read of the
file is the same. -/
theorem of_source_of_regroups {source edited : List Text.Glyph} {tokens regrouped : List Token}
    (scanned : Token.ofSource? source = some tokens)
    (scanned' : Token.ofSource? edited = some regrouped)
    (regroups : Relation.ReflTransGen Regroups tokens regrouped)
    (parses : ofSource? source = some file) : ofSource? edited = some file := by
  rw [ofSource?, scanned, Option.bind_some] at parses
  rw [ofSource?, scanned', Option.bind_some]
  clear scanned'
  induction regroups with
  | refl => exact parses
  | tail _ step ih => exact of_tokens_of_regroups step ih

def declaresArray (file : SourceFile) : Bool :=
  file.types.any fun spec => match spec.type with
    | .array _ => true
    | _ => false

/-- What stands in the brackets of a declaration can become the length of an array, and the name of
an embedded field behind a `*` is no place for parentheses. -/
theorem of_source_ne_of_wrapped :
    ((ofSource? (Text.Glyph.ofString "type G[P [4]int] struct\x7b\x7d\n")).isSome = true ∧
      ofSource? (Text.Glyph.ofString "type G[P [4](int)] struct\x7b\x7d\n") ≠
        ofSource? (Text.Glyph.ofString "type G[P [4]int] struct\x7b\x7d\n")) ∧
    ((ofSource? (Text.Glyph.ofString "type T struct\x7b *B \x7d\n")).isSome = true ∧
      ofSource? (Text.Glyph.ofString "type T struct\x7b *(B) \x7d\n") = none) := by
  have array : (ofSource? (Text.Glyph.ofString "type G[P [4](int)] struct\x7b\x7d\n")).any
      declaresArray = true := by decide +kernel
  have struct : (ofSource? (Text.Glyph.ofString "type G[P [4]int] struct\x7b\x7d\n")).any
      declaresArray = false := by decide +kernel
  refine ⟨⟨by decide +kernel, fun same => ?_⟩, by decide +kernel, ?_⟩
  · rw [same, struct] at array
    cases array
  · exact Option.isNone_iff_eq_none.1 (by decide +kernel)

end SourceFile

/-! A function with two parameters that share a type, and the function in which each has a type of
its own and the second one stands in parentheses. -/

section

deriving instance DecidableEq for Token

def writtenToken (kind : TokenKind) (text gap : String)
    (named : kind = .name → Lexeme.IsName text) : Token :=
  ⟨kind, text, Text.Glyph.ofString text, Text.Glyph.ofString gap, 0, 0, [], named⟩

def writtenMark (text gap : String) : Token := writtenToken .mark text gap nofun

theorem is_name_of_all {text : String} (nonempty : text.toList ≠ [])
    (parts : text.toList.all Lexeme.isNamePart = true) : Lexeme.IsName text :=
  ⟨nonempty, List.all_eq_true.1 parts⟩

def firstName : Token := writtenToken .name "a" "" fun _ => is_name_of_all (by decide) (by decide)

def secondName : Token := writtenToken .name "b" " " fun _ => is_name_of_all (by decide) (by decide)

def sharedType (gap : String) : Token :=
  writtenToken .name "int" gap fun _ => is_name_of_all (by decide) (by decide)

def funcTokens (params : List Token) : List Token :=
  writtenToken .keyword "func" "" nofun ::
    writtenToken .name "f" " " (fun _ => is_name_of_all (by decide) (by decide)) ::
    writtenMark "(" "" :: (params ++ [writtenMark ")" "", Token.lineTerminator 0])

theorem regroups_func_tokens {params others : List Token}
    (edits : ∀ next : List Param → Rule (List Param), (Rule.call .paramList next).Edited 0
      (writtenMark "(" "" :: (params ++ [writtenMark ")" "", Token.lineTerminator 0]))
      (writtenMark "(" "" :: (others ++ [writtenMark ")" "", Token.lineTerminator 0]))) :
    Regroups (funcTokens params) (funcTokens others) := by
  refine @Regroups.intro 0 [] _ _ (.here fun _ _ => rfl) ?_
  refine .head (.take rfl (.sees (.take rfl (.pass ?_ (.inside rfl (edits _))))))
  rintro token ⟨⟩
  rfl

theorem regroups_shared_type :
    Regroups (funcTokens [firstName, writtenMark "," "", secondName, sharedType " "])
      (funcTokens [firstName, sharedType " ", writtenMark "," "", secondName, sharedType " "]) := by
  refine regroups_func_tokens fun next => .here ?_
  exact @Regrouped.params 0 _ firstName (writtenMark "," "") (writtenMark "," "") secondName []
    [sharedType " "] [sharedType " "] [writtenMark ")" "", Token.lineTerminator 0] _ rfl
    (.here (by decide)) rfl rfl rfl (Reader.reads_ident rfl (by decide)) ⟨_, rfl, rfl⟩
    (@Copied.intro _ _ [] [] 0 0 ⟨rfl, rfl, rfl⟩ rfl) rfl

theorem regroups_second_type :
    Regroups
      (funcTokens [firstName, sharedType " ", writtenMark "," "", secondName, sharedType " "])
      (funcTokens [firstName, sharedType " ", writtenMark "," "", secondName, writtenMark "(" " ",
        sharedType "", writtenMark ")" ""]) := by
  refine regroups_func_tokens fun next => .inside rfl (.take rfl ?_)
  refine @Rule.Edited.item _ _ _ _ _ _ [firstName, sharedType " ", writtenMark "," ""] _ _
    (@Leads.next _ _ _ _ [firstName, sharedType " "] [] _ (.named "a" (.ident "int"))
      (writtenMark "," "") (by decide) (fun bound enough => ?_) rfl (.here (by decide))) (.here ?_)
  · rw [Rule.run_read]
    exact param_item_of_type_expr rfl (Reader.reads_ident rfl (by decide) bound
      ((enough_for_mono (by simp)).trans enough)) ⟨_, rfl, rfl⟩ enough
  · exact @Regrouped.param secondName [] [sharedType " "]
      [writtenMark "(" " ", sharedType "", writtenMark ")" ""]
      [writtenMark ")" "", Token.lineTerminator 0] _ rfl (.inl rfl)
      (Reader.reads_ident rfl (by decide)) (.intro ⟨rfl, rfl, rfl⟩ rfl rfl rfl rfl rfl)
        ⟨_, rfl, rfl⟩

theorem of_source_shared_type : ∃ file,
    SourceFile.ofSource? (Text.Glyph.ofString "func f(a, b int)\n") = some file ∧
      SourceFile.ofSource? (Text.Glyph.ofString "func f(a int, b (int))\n") = some file := by
  have parses :
      (SourceFile.ofSource? (Text.Glyph.ofString "func f(a, b int)\n")).isSome = true := by
    decide +kernel
  obtain ⟨file, read⟩ := Option.isSome_iff_exists.1 parses
  exact ⟨file, read, SourceFile.of_source_of_regroups (by decide +kernel) (by decide +kernel)
    (.tail (.single regroups_shared_type) regroups_second_type) read⟩

end

end EndpointAtlas.Go
