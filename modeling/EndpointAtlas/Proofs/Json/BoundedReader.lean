import EndpointAtlas.Proofs.Json.Grammar

/-!
A reader of JSON texts that goes down to a bound of nesting. A scan cuts the text into tokens, one
character at a time, and a parse puts the tokens together by means of the lists and objects that are
open, which may not be more than the bound says.
-/

namespace EndpointAtlas.Json

def isLead (code : Nat) : Bool := 0xD800 ≤ code && code < 0xDC00

def isTrail (code : Nat) : Bool := 0xDC00 ≤ code && code < 0xE000

/-- The characters of codes, where a lead surrogate and a trail surrogate make one character. -/
def charsOf? : List Nat → Option (List Char)
  | [] => some []
  | [code] => if isLead code || isTrail code then none else some [Char.ofNat code]
  | code :: next :: rest =>
      if isLead code then
        if isTrail next then
          (Char.ofNat (0x10000 + (code - 0xD800) * 0x400 + (next - 0xDC00)) :: ·) <$> charsOf? rest
        else none
      else if isTrail code then none
      else (Char.ofNat code :: ·) <$> charsOf? (next :: rest)

/-- Where a scan stands. What it has read of a word or of a text is kept in reverse; of a code, it
knows how many digits follow the next one, and the value so far. -/
inductive Place where
  | between
  | word (before : List Char)
  | text (before : List Nat)
  | escape (before : List Nat)
  | code (before : List Nat) (left value : Nat)

def enter (c : Char) : List Token × Place :=
  if isSpace c then ([], .between)
  else if c = '"' then ([], .text [])
  else
    match mark? c with
    | some token => ([token], .between)
    | none => ([], .word [c])

/-- The tokens that end with a character, and where the scan is then. -/
def step : Place → Char → Option (List Token × Place)
  | .between, c => some (enter c)
  | .word before, c =>
      if isWordChar c then some ([], .word (c :: before))
      else do
        let token ← word? before.reverse
        return (token :: (enter c).1, (enter c).2)
  | .text before, c =>
      if c = '"' then do
        let chars ← charsOf? before.reverse
        return ([.text (String.ofList chars)], .between)
      else if c = '\\' then some ([], .escape before)
      else if c.toNat < 0x20 then none
      else some ([], .text (c.toNat :: before))
  | .escape before, c =>
      if c = 'u' then some ([], .code before 3 0)
      else do
        let char ← escaped? c
        return ([], .text (char.toNat :: before))
  | .code before left value, c => do
      let digit ← hexValue? c
      match left with
      | 0 => return ([], .text ((16 * value + digit) :: before))
      | left + 1 => return ([], .code before left (16 * value + digit))

def scan : Place → List Char → Option (List Token)
  | .between, [] => some []
  | .word before, [] => (word? before.reverse).map ([·])
  | _, [] => none
  | place, c :: rest =>
      match step place c with
      | some (tokens, next) => (scan next rest).map (tokens ++ ·)
      | none => none

/-- A list or an object of which only a part has been read; for an object, with the key of the value
that comes next. -/
inductive Open where
  | list (before : List Json)
  | object (before : List (String × Json)) (key : String)

mutual

def start (bound : Nat) (outer : List Open) : List Token → Option Json
  | .null :: rest => finish bound .null outer rest
  | .bool value :: rest => finish bound (.bool value) outer rest
  | .number value :: rest => finish bound (.number value) outer rest
  | .text value :: rest => finish bound (.text value) outer rest
  | .openList :: .closeList :: rest =>
      if outer.length < bound then finish bound (.list []) outer rest else none
  | .openList :: rest =>
      if outer.length < bound then start bound (.list [] :: outer) rest else none
  | .openObject :: .closeObject :: rest =>
      if outer.length < bound then finish bound (.object []) outer rest else none
  | .openObject :: .text key :: .colon :: rest =>
      if outer.length < bound then start bound (.object [] key :: outer) rest else none
  | _ => none

def finish (bound : Nat) (json : Json) : List Open → List Token → Option Json
  | [], [] => some json
  | .list before :: outer, .comma :: rest =>
      start bound (.list (before ++ [json]) :: outer) rest
  | .list before :: outer, .closeList :: rest =>
      finish bound (.list (before ++ [json])) outer rest
  | .object before key :: outer, .comma :: .text next :: .colon :: rest =>
      start bound (.object (before ++ [(key, json)]) next :: outer) rest
  | .object before key :: outer, .closeObject :: rest =>
      finish bound (.object (before ++ [(key, json)])) outer rest
  | _, _ => none

end

def ofText? (bound : Nat) (text : String) : Option Json :=
  (scan .between text.toList).bind (start bound [])

section

variable {place next : Place} {c : Char} {rest : List Char}

end

theorem tokens_ne_close_list (json : Json) (rest more : List Token) :
    tokens json ++ rest ≠ .closeList :: more := by
  rcases json with - | value | value | value | ⟨- | item⟩ | ⟨- | entry⟩ <;> simp [tokens]

section

variable {bound : Nat}

mutual

/-- The tokens of a value are read as the value, which then stands in what is open. -/
theorem start_tokens (json : Json) (outer : List Open) (rest : List Token)
    (within : outer.length + json.depth ≤ bound) :
    start bound outer (tokens json ++ rest) = finish bound json outer rest := by
  cases json with
  | null => rfl
  | bool value => rfl
  | number value => rfl
  | text value => rfl
  | list items =>
      rw [depth] at within
      have room : outer.length < bound := by omega
      cases items with
      | nil => exact if_pos room
      | cons item others =>
          rw [itemsDepth] at within
          rw [tokens, List.cons_append, List.append_assoc, start, if_pos room,
            start_tokens item _ _ (by rw [List.length_cons]; omega)]
          · exact finish_item_tokens others [] item outer rest (by omega)
          · exact fun more => tokens_ne_close_list item _ more
  | object members =>
      rw [depth] at within
      have room : outer.length < bound := by omega
      cases members with
      | nil => exact if_pos room
      | cons entry others =>
          obtain ⟨key, value⟩ := entry
          rw [membersDepth] at within
          rw [tokens]
          simp only [List.cons_append, List.append_assoc]
          rw [start, if_pos room, start_tokens value _ _ (by rw [List.length_cons]; omega)]
          exact finish_member_tokens others [] key value outer rest (by omega)

theorem finish_item_tokens (items before : List Json) (json : Json) (outer : List Open)
    (rest : List Token) (within : outer.length + (itemsDepth items + 1) ≤ bound) :
    finish bound json (.list before :: outer) (itemTokens items ++ rest) =
      finish bound (.list (before ++ json :: items)) outer rest := by
  cases items with
  | nil => rfl
  | cons item others =>
      rw [itemsDepth] at within
      rw [itemTokens, List.cons_append, List.append_assoc, finish,
        start_tokens item _ _ (by rw [List.length_cons]; omega),
        finish_item_tokens others _ _ _ _ (by omega)]
      simp

theorem finish_member_tokens (members before : List (String × Json)) (key : String) (json : Json)
    (outer : List Open) (rest : List Token)
    (within : outer.length + (membersDepth members + 1) ≤ bound) :
    finish bound json (.object before key :: outer) (memberTokens members ++ rest) =
      finish bound (.object (before ++ (key, json) :: members)) outer rest := by
  cases members with
  | nil => rfl
  | cons entry others =>
      obtain ⟨next, value⟩ := entry
      rw [membersDepth] at within
      rw [memberTokens]
      simp only [List.cons_append, List.append_assoc]
      rw [finish, start_tokens value _ _ (by rw [List.length_cons]; omega),
        finish_member_tokens others _ _ _ _ _ (by omega)]
      simp

end

end

example : ofText? 1 " [ 7, \"\\u00E9\\uD83D\\uDE00\" ]" = some (.list [.number 7, .text "é😀"]) := by
  rfl

example : ofText? 1 "[[]]" = none := by
  rfl

end EndpointAtlas.Json
