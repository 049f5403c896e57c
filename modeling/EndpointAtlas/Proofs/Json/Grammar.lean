import Mathlib.Data.ENat.Basic
import EndpointAtlas.Json

/-!
Texts of JSON values. A text is a row of tokens with white space between them, and it spells the
value that has these tokens. No reader is fixed here: of a reader it is only known that it reads each
text that spells a value, unless the value nests more deeply than the reader goes.
-/

namespace EndpointAtlas.Json

inductive Token where
  | null
  | bool (value : Bool)
  | number (value : Int)
  | text (value : String)
  | openList
  | closeList
  | openObject
  | closeObject
  | comma
  | colon
  deriving DecidableEq, Repr

def isSpace (c : Char) : Bool := c == ' ' || c == '\n' || c == '\r' || c == '\t'

def mark? (c : Char) : Option Token :=
  if c = '[' then some .openList
  else if c = ']' then some .closeList
  else if c = '\x7b' then some .openObject
  else if c = '\x7d' then some .closeObject
  else if c = ',' then some .comma
  else if c = ':' then some .colon
  else none

def isWordChar (c : Char) : Bool := !isSpace c && (mark? c).isNone && c != '"'

def wholeOf : List Char → Int
  | '-' :: digits => -(Nat.ofDigitChars 10 digits 0 : Nat)
  | digits => (Nat.ofDigitChars 10 digits 0 : Nat)

def word? (word : List Char) : Option Token :=
  if word = writeNumber (wholeOf word) then some (.number (wholeOf word))
  else if word = "null".toList then some .null
  else if word = writeBool true then some (.bool true)
  else if word = writeBool false then some (.bool false)
  else none

def escaped? (c : Char) : Option Char :=
  if c = '"' ∨ c = '\\' ∨ c = '/' then some c
  else if c = 'b' then some '\x08'
  else if c = 'f' then some '\x0c'
  else if c = 'n' then some '\n'
  else if c = 'r' then some '\r'
  else if c = 't' then some '\t'
  else none

def hexValue? (c : Char) : Option Nat :=
  if '0' ≤ c ∧ c ≤ '9' then some (c.toNat - '0'.toNat)
  else if 'a' ≤ c ∧ c ≤ 'f' then some (c.toNat - 'a'.toNat + 10)
  else if 'A' ≤ c ∧ c ≤ 'F' then some (c.toNat - 'A'.toNat + 10)
  else none

def hexNumber? (value : Nat) : List Char → Option Nat
  | [] => some value
  | c :: rest => (hexValue? c).bind fun digit => hexNumber? (16 * value + digit) rest

/-- What may stand between the quotes of a text, and the characters that it stands for. A character
may stand for itself, or be escaped by a letter or by its code. -/
inductive StandsFor : List Char → List Char → Prop where
  | nil : StandsFor [] []
  | plain {c : Char} {chars text : List Char} (visible : 0x20 ≤ c.toNat) (noQuote : c ≠ '"')
      (noBackslash : c ≠ '\\') (rest : StandsFor chars text) : StandsFor (c :: chars) (c :: text)
  | escape {letter c : Char} {chars text : List Char} (short : escaped? letter = some c)
      (rest : StandsFor chars text) : StandsFor ('\\' :: letter :: chars) (c :: text)
  | code {digits : List Char} {c : Char} {chars text : List Char} (four : digits.length = 4)
      (value : hexNumber? 0 digits = some c.toNat) (rest : StandsFor chars text) :
      StandsFor ('\\' :: 'u' :: (digits ++ chars)) (c :: text)

def Breaks (rest : List Char) : Prop := ∀ c ∈ rest.head?, isWordChar c = false

/-- The tokens of a text, one after another, with white space anywhere between them. -/
inductive Lexes : List Char → List Token → Prop where
  | nil : Lexes [] []
  | space {c : Char} {chars : List Char} {tokens : List Token} (blank : isSpace c = true)
      (lexes : Lexes chars tokens) : Lexes (c :: chars) tokens
  | mark {c : Char} {token : Token} {chars : List Char} {tokens : List Token}
      (marks : mark? c = some token) (lexes : Lexes chars tokens) :
      Lexes (c :: chars) (token :: tokens)
  | text {inner : List Char} {value : String} {chars : List Char} {tokens : List Token}
      (stands : StandsFor inner value.toList) (lexes : Lexes chars tokens) :
      Lexes ('"' :: (inner ++ '"' :: chars)) (.text value :: tokens)
  | word {word : List Char} {token : Token} {chars : List Char} {tokens : List Token}
      (read : word? word = some token) (breaks : Breaks chars) (lexes : Lexes chars tokens) :
      Lexes (word ++ chars) (token :: tokens)

mutual

def tokens : Json → List Token
  | null => [.null]
  | bool value => [.bool value]
  | number value => [.number value]
  | text value => [.text value]
  | list [] => [.openList, .closeList]
  | list (item :: rest) => .openList :: (tokens item ++ itemTokens rest)
  | object [] => [.openObject, .closeObject]
  | object ((key, value) :: rest) =>
      .openObject :: .text key :: .colon :: (tokens value ++ memberTokens rest)

def itemTokens : List Json → List Token
  | [] => [.closeList]
  | item :: rest => .comma :: (tokens item ++ itemTokens rest)

def memberTokens : List (String × Json) → List Token
  | [] => [.closeObject]
  | (key, value) :: rest => .comma :: .text key :: .colon :: (tokens value ++ memberTokens rest)

end

mutual

/-- How many lists and objects are open at once at the deepest place of a value. -/
def depth : Json → Nat
  | list items => itemsDepth items + 1
  | object members => membersDepth members + 1
  | _ => 0

def itemsDepth : List Json → Nat
  | [] => 0
  | item :: rest => max (depth item) (itemsDepth rest)

def membersDepth : List (String × Json) → Nat
  | [] => 0
  | (_, value) :: rest => max (depth value) (membersDepth rest)

end

def SpelledBy (json : Json) (text : String) : Prop := Lexes text.toList (tokens json)

/-- A reader of JSON texts, with the depth of nesting down to which it reads. What it makes of texts
that nest more deeply, and of those that spell no value, is left open. -/
structure Reader where
  read? : String → Option Json
  limit : ℕ∞
  reads {json : Json} {text : String} : json.SpelledBy text → json.depth ≤ limit →
    read? text = some json

end EndpointAtlas.Json
