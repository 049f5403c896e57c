import EndpointAtlas.Text.Quoted

/-!
JSON values and their two written forms. Objects keep the order of their members. Numbers are whole.
-/

namespace EndpointAtlas

inductive Json where
  | null
  | bool (value : Bool)
  | number (value : Int)
  | text (value : String)
  | list (items : List Json)
  | object (members : List (String × Json))
  deriving Repr, Inhabited

namespace Json

def escapeChar (c : Char) : List Char :=
  if c = '"' then ['\\', '"']
  else if c = '\\' then ['\\', '\\']
  else if c = '\x08' then ['\\', 'b']
  else if c = '\x0c' then ['\\', 'f']
  else if c = '\n' then ['\\', 'n']
  else if c = '\r' then ['\\', 'r']
  else if c = '\t' then ['\\', 't']
  else if c.toNat < 0x20 then
    let digits := Text.hexDigits c.toNat
    ['\\', 'u'] ++ List.replicate (4 - digits.length) '0' ++ digits
  else [c]

def writeText (text : String) : List Char :=
  '"' :: text.toList.flatMap escapeChar ++ ['"']

def writeNumber (value : Int) : List Char := (toString value).toList

def writeBool (value : Bool) : List Char := (if value then "true" else "false").toList

mutual

/-- The form without blanks. -/
def compactChars : Json → List Char
  | null => "null".toList
  | bool value => writeBool value
  | number value => writeNumber value
  | text value => writeText value
  | list items => '[' :: compactItems items ++ [']']
  | object members => '\x7b' :: compactMembers members ++ ['\x7d']

def compactItems : List Json → List Char
  | [] => []
  | [item] => compactChars item
  | item :: next :: rest => compactChars item ++ ',' :: compactItems (next :: rest)

def compactMembers : List (String × Json) → List Char
  | [] => []
  | [(key, value)] => writeText key ++ ':' :: compactChars value
  | (key, value) :: next :: rest =>
      writeText key ++ ':' :: compactChars value ++ ',' :: compactMembers (next :: rest)

end

def newLine (level : Nat) : List Char := '\n' :: List.replicate (2 * level) ' '

mutual

/-- The form with one item or member on a line, at a level of nesting. -/
def prettyChars (level : Nat) : Json → List Char
  | null => "null".toList
  | bool value => writeBool value
  | number value => writeNumber value
  | text value => writeText value
  | list [] => ['[', ']']
  | list (item :: rest) =>
      '[' :: newLine (level + 1) ++ prettyChars (level + 1) item ++ prettyItems level rest
  | object [] => ['\x7b', '\x7d']
  | object ((key, value) :: rest) =>
      '\x7b' :: newLine (level + 1) ++ writeText key ++ ':' :: ' ' ::
        prettyChars (level + 1) value ++ prettyMembers level rest

def prettyItems (level : Nat) : List Json → List Char
  | [] => newLine level ++ [']']
  | item :: rest =>
      ',' :: newLine (level + 1) ++ prettyChars (level + 1) item ++ prettyItems level rest

def prettyMembers (level : Nat) : List (String × Json) → List Char
  | [] => newLine level ++ ['\x7d']
  | (key, value) :: rest =>
      ',' :: newLine (level + 1) ++ writeText key ++ ':' :: ' ' ::
        prettyChars (level + 1) value ++ prettyMembers level rest

end

def compact (json : Json) : String := String.ofList (compactChars json)

def pretty (json : Json) : String := String.ofList (prettyChars 0 json)

end Json

end EndpointAtlas
