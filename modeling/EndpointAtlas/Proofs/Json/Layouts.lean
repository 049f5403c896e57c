import EndpointAtlas.Proofs.Json.Grammar

/-!
Both layouts of a value spell it. They differ only in the white space between the tokens. A word is
not over until something else follows, so a part of a text is put in front of another one only where
that ends a word.
-/

namespace EndpointAtlas.Json

theorem hex_number_of_code {code : Nat} (low : code < 0x20) :
    let digits := List.replicate (4 - (Text.hexDigits code).length) '0' ++ Text.hexDigits code
    digits.length = 4 ∧ hexNumber? 0 digits = some code := by
  revert code
  decide

theorem StandsFor.escape_char {chars text : List Char} (c : Char) (rest : StandsFor chars text) :
    StandsFor (escapeChar c ++ chars) (c :: text) := by
  by_cases special : c = '"' ∨ c = '\\' ∨ c = '\x08' ∨ c = '\x0c' ∨ c = '\n' ∨ c = '\r' ∨ c = '\t'
  · rcases special with rfl | rfl | rfl | rfl | rfl | rfl | rfl <;> exact .escape rfl rest
  · simp only [not_or] at special
    unfold escapeChar
    simp only [special, if_false]
    split
    · rename_i low
      obtain ⟨four, value⟩ := hex_number_of_code low
      simpa using StandsFor.code four value rest
    · rename_i visible
      exact .plain (Nat.le_of_not_lt visible) special.1 special.2.1 rest

theorem stands_for_written (chars : List Char) : StandsFor (chars.flatMap escapeChar) chars := by
  induction chars with
  | nil => exact .nil
  | cons c rest ih => exact .escape_char c ih

theorem whole_of_written_number (value : Int) : wholeOf (writeNumber value) = value := by
  cases value with
  | ofNat n =>
      show wholeOf n.repr.toList = n
      rw [Nat.toList_repr]
      unfold wholeOf
      split
      · rename_i digits same
        have digit := @Nat.isDigit_of_mem_toDigits 10 n '-' (by decide) (by decide) (by simp [same])
        cases digit
      · rw [Nat.ofDigitChars_ten_toDigits]
  | negSucc n =>
      show wholeOf ("-" ++ n.succ.repr).toList = _
      rw [String.toList_append, Nat.toList_repr]
      show -((Nat.ofDigitChars 10 (Nat.toDigits 10 n.succ) 0 : Nat) : Int) = _
      rw [Nat.ofDigitChars_ten_toDigits]
      rfl

theorem breaks_nil : Breaks [] := fun _ member => nomatch member

theorem breaks_cons {c : Char} {rest : List Char} (apart : isWordChar c = false) :
    Breaks (c :: rest) := by
  rintro c ⟨⟩
  exact apart

theorem Breaks.append {chars others : List Char} (first : Breaks chars) (second : Breaks others) :
    Breaks (chars ++ others) := by
  cases chars with
  | nil => exact second
  | cons head tail => exact first

namespace Lexes

variable {chars others : List Char} {row more : List Token}

protected theorem append (first : Lexes chars row) (second : Lexes others more)
    (apart : Breaks others) : Lexes (chars ++ others) (row ++ more) := by
  induction first with
  | nil => exact second
  | space blank _ ih => exact .space blank ih
  | mark marks _ ih => exact .mark marks ih
  | text stands _ ih =>
      rw [List.cons_append, List.append_assoc]
      exact .text stands ih
  | word read breaks _ ih =>
      rw [List.append_assoc]
      exact .word read (breaks.append apart) ih

protected theorem new_line {level : Nat} (lexes : Lexes chars row) :
    Lexes (newLine level ++ chars) row := by
  have blanks : ∀ count, Lexes (List.replicate count ' ' ++ chars) row := by
    intro count
    induction count with
    | zero => exact lexes
    | succ count ih => exact .space rfl ih
  exact .space rfl (blanks (2 * level))

protected theorem write_text {value : String} (lexes : Lexes chars row) :
    Lexes (writeText value ++ chars) (.text value :: row) := by
  have lexed := Lexes.text (stands_for_written value.toList) lexes
  simpa [writeText] using lexed

protected theorem single {word : List Char} {token : Token} (read : word? word = some token) :
    Lexes word [token] := by
  simpa using Lexes.word read breaks_nil .nil

end Lexes

-- A comma is written between two items, but for the tokens it starts what follows an item.
theorem compact_items_cons (item : Json) (rest : List Json) :
    compactItems (item :: rest) =
      compactChars item ++ rest.flatMap fun next => ',' :: compactChars next := by
  induction rest generalizing item with
  | nil => simp [compactItems]
  | cons next rest ih => rw [compactItems, ih, List.flatMap_cons, List.cons_append]

theorem compact_members_cons (key : String) (value : Json) (rest : List (String × Json)) :
    compactMembers ((key, value) :: rest) = writeText key ++ (':' :: (compactChars value ++
      rest.flatMap fun (key, value) => ',' :: (writeText key ++ (':' :: compactChars value)))) := by
  induction rest generalizing key value with
  | nil => simp [compactMembers]
  | cons next rest ih =>
      rw [compactMembers, ih, List.flatMap_cons]
      simp

theorem breaks_compact_items (items : List Json) :
    Breaks ((items.flatMap fun item => ',' :: compactChars item) ++ [']']) := by
  cases items <;> exact breaks_cons rfl

theorem breaks_compact_members (members : List (String × Json)) :
    Breaks ((members.flatMap fun (key, value) =>
      ',' :: (writeText key ++ (':' :: compactChars value))) ++ ['\x7d']) := by
  cases members <;> exact breaks_cons rfl

theorem breaks_pretty_items (level : Nat) (items : List Json) :
    Breaks (prettyItems level items) := by
  cases items <;> exact breaks_cons rfl

theorem breaks_pretty_members (level : Nat) (members : List (String × Json)) :
    Breaks (prettyMembers level members) := by
  cases members <;> exact breaks_cons rfl

theorem lexes_null : Lexes "null".toList [.null] := .single (by decide)

theorem lexes_text (value : String) : Lexes (writeText value) [.text value] := by
  simpa using @Lexes.write_text _ _ value .nil

theorem lexes_bool (value : Bool) : Lexes (writeBool value) [.bool value] := by
  cases value <;> exact .single (by decide)

theorem lexes_number (value : Int) : Lexes (writeNumber value) [.number value] :=
  .single (by simp [word?, whole_of_written_number])

mutual

theorem lexes_compact (json : Json) : Lexes (compactChars json) (tokens json) := by
  cases json with
  | null => exact lexes_null
  | bool value => exact lexes_bool value
  | number value => exact lexes_number value
  | text value => exact lexes_text value
  | list items =>
      cases items with
      | nil => exact .mark rfl (.mark rfl .nil)
      | cons item rest =>
          rw [compactChars, compact_items_cons, List.cons_append, List.append_assoc]
          exact .mark rfl ((lexes_compact item).append (lexes_compact_items rest)
            (breaks_compact_items rest))
  | object members =>
      cases members with
      | nil => exact .mark rfl (.mark rfl .nil)
      | cons entry rest =>
          obtain ⟨key, value⟩ := entry
          rw [compactChars, compact_members_cons]
          simp only [List.cons_append, List.append_assoc]
          exact .mark rfl (.write_text (.mark rfl ((lexes_compact value).append
            (lexes_compact_members rest) (breaks_compact_members rest))))

theorem lexes_compact_items (items : List Json) :
    Lexes ((items.flatMap fun item => ',' :: compactChars item) ++ [']']) (itemTokens items) := by
  cases items with
  | nil => exact .mark rfl .nil
  | cons item rest =>
      rw [List.flatMap_cons, List.cons_append, List.cons_append, List.append_assoc]
      exact .mark rfl ((lexes_compact item).append (lexes_compact_items rest)
        (breaks_compact_items rest))

theorem lexes_compact_members (members : List (String × Json)) :
    Lexes ((members.flatMap fun (key, value) =>
      ',' :: (writeText key ++ (':' :: compactChars value))) ++ ['\x7d'])
        (memberTokens members) := by
  cases members with
  | nil => exact .mark rfl .nil
  | cons entry rest =>
      obtain ⟨key, value⟩ := entry
      rw [List.flatMap_cons]
      simp only [List.cons_append, List.append_assoc]
      exact .mark rfl (.write_text (.mark rfl ((lexes_compact value).append
        (lexes_compact_members rest) (breaks_compact_members rest))))

end

mutual

theorem lexes_pretty (level : Nat) (json : Json) :
    Lexes (prettyChars level json) (tokens json) := by
  cases json with
  | null => exact lexes_null
  | bool value => exact lexes_bool value
  | number value => exact lexes_number value
  | text value => exact lexes_text value
  | list items =>
      cases items with
      | nil => exact .mark rfl (.mark rfl .nil)
      | cons item rest =>
          rw [prettyChars, List.cons_append, List.cons_append, List.append_assoc]
          exact .mark rfl (.new_line ((lexes_pretty (level + 1) item).append
            (lexes_pretty_items level rest) (breaks_pretty_items level rest)))
  | object members =>
      cases members with
      | nil => exact .mark rfl (.mark rfl .nil)
      | cons entry rest =>
          obtain ⟨key, value⟩ := entry
          rw [prettyChars]
          simp only [List.cons_append, List.append_assoc]
          exact .mark rfl (.new_line (.write_text (.mark rfl (.space rfl
            ((lexes_pretty (level + 1) value).append (lexes_pretty_members level rest)
              (breaks_pretty_members level rest))))))

theorem lexes_pretty_items (level : Nat) (items : List Json) :
    Lexes (prettyItems level items) (itemTokens items) := by
  cases items with
  | nil => exact .new_line (.mark rfl .nil)
  | cons item rest =>
      rw [prettyItems, List.cons_append, List.cons_append, List.append_assoc]
      exact .mark rfl (.new_line ((lexes_pretty (level + 1) item).append
        (lexes_pretty_items level rest) (breaks_pretty_items level rest)))

theorem lexes_pretty_members (level : Nat) (members : List (String × Json)) :
    Lexes (prettyMembers level members) (memberTokens members) := by
  cases members with
  | nil => exact .new_line (.mark rfl .nil)
  | cons entry rest =>
      obtain ⟨key, value⟩ := entry
      rw [prettyMembers]
      simp only [List.cons_append, List.append_assoc]
      exact .mark rfl (.new_line (.write_text (.mark rfl (.space rfl
        ((lexes_pretty (level + 1) value).append (lexes_pretty_members level rest)
          (breaks_pretty_members level rest))))))

end

theorem spelled_by_compact (json : Json) : json.SpelledBy json.compact := by
  rw [SpelledBy, compact, String.toList_ofList]
  exact lexes_compact json

theorem spelled_by_pretty (json : Json) : json.SpelledBy (json.pretty ++ "\n") := by
  rw [SpelledBy, pretty, String.toList_append, String.toList_ofList]
  simpa using (lexes_pretty 0 json).append (.space rfl .nil) (breaks_cons rfl)

end EndpointAtlas.Json
