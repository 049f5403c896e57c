import EndpointAtlas.Go.Doc

/-!
Readers of token lists. A reader takes tokens off the front of a list or refuses the list.
-/

namespace EndpointAtlas.Go

abbrev Parser := StateT (List Token) Option

namespace Parser

def next? : Parser (Option Token) := fun tokens => some (tokens.head?, tokens)

def take (accept : Token → Bool) : Parser Token
  | token :: rest => if accept token then some (token, rest) else none
  | [] => none

def skip (accept : Token → Bool) : Parser Bool
  | token :: rest => if accept token then some (true, rest) else some (false, token :: rest)
  | [] => some (false, [])

def sees (accept : Token → Bool) : Parser Bool := fun tokens =>
  some ((tokens.head?.map accept).getD false, tokens)

def isMark (text : String) (token : Token) : Bool := token.kind == .mark && token.text == text

def isKeyword (text : String) (token : Token) : Bool :=
  token.kind == .keyword && token.text == text

def isName (token : Token) : Bool := token.kind == .name

def isTerminator (token : Token) : Bool := token.kind == .terminator

def mark (text : String) : Parser Unit := discard (take (isMark text))

def keyword (text : String) : Parser Unit := discard (take (isKeyword text))

def name : Parser String := (·.text) <$> take isName

def either (first second : Parser α) : Parser α := fun tokens =>
  match first tokens with
  | some result => some result
  | none => second tokens

def withTokens (reader : Parser α) : Parser (α × List Token) := fun tokens =>
  (reader tokens).map fun (result, rest) =>
    ((result, tokens.take (tokens.length - rest.length)), rest)

/-- Items between commas up to a closing mark; a comma may follow the last item. -/
def commaList : Nat → Parser α → String → Parser (List α)
  | 0, _, _ => failure
  | depth + 1, item, close => do
      if ← skip (isMark close) then return []
      let first ← item
      if ← skip (isMark ",") then return first :: (← commaList depth item close)
      mark close
      return [first]

def commaList1 : Nat → Parser α → Parser (List α)
  | 0, _ => failure
  | depth + 1, item => do
      let first ← item
      if ← skip (isMark ",") then return first :: (← commaList1 depth item)
      return [first]

/-- Items that terminators end, up to a closing mark. Each item is given the siblings before it,
nearest first, and the row on which it starts. -/
def siblingList : Nat → (List Sibling → Nat → Parser α) → String → List Sibling → Parser (List α)
  | 0, _, _, _ => failure
  | depth + 1, item, close, before => do
      if ← skip (isMark close) then return []
      let some token ← next? | failure
      let siblings := siblingsBefore token before
      let (first, taken) ← withTokens (item siblings token.row)
      let endRow := (taken.getLast?.map (·.endRow)).getD token.row
      if ← skip isTerminator then
        return first :: (← siblingList depth item close (.declaration endRow :: siblings))
      mark close
      return [first]

end Parser

end EndpointAtlas.Go
