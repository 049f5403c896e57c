import EndpointAtlas.Shell.Script
import EndpointAtlas.Text.Split

/-!
Tokens of shell scripts. Quotes, backslashes and dollar signs are taken apart here; a script with an
unclosed quote or brace has no tokens.
-/

namespace EndpointAtlas.Shell

open Text

inductive Token where
  | word (pieces : Word)
  | operator (text : String)
  | redirect (channel : Nat) (kind : RedirectKind)
  deriving DecidableEq, Repr

def isVariableStart (c : Char) : Bool := c.isAlpha || c == '_'

def isVariableChar (c : Char) : Bool := c.isAlphanum || c == '_'

def naturalOf (digits : List Char) : Nat :=
  digits.foldl (fun number c => number * 10 + (c.toNat - '0'.toNat)) 0

/-- The parameter that a name or a sign stands for. -/
def Param.ofChars? : List Char → Option Param
  | ['?'] => some .status
  | ['#'] => some .count
  | ['$'] => some .process
  | ['@'] | ['*'] => some .arguments
  | [] => none
  | c :: rest =>
      if (c :: rest).all Char.isDigit then some (.argument (naturalOf (c :: rest)))
      else if isVariableStart c && rest.all isVariableChar then
        some (.variable (String.ofList (c :: rest)))
      else none

/-- A parameter in braces, with a text in its stead after a colon and a dash. -/
def bracedPiece? (quoted : Bool) (inner : List Char) : Option Piece := do
  let name := inner.takeWhile (· != ':')
  let param ← Param.ofChars? name
  match inner.drop name.length with
  | [] => some (.param param [] quoted)
  | ':' :: '-' :: fallback => some (.param param fallback quoted)
  | _ => none

/-- The text up to the parenthesis that closes an open one, and what follows it. -/
def closeParenthesis : Nat → List Char → Option (List Char × List Char)
  | _, [] => none
  | 0, ')' :: rest => some ([], rest)
  | depth + 1, ')' :: rest =>
      (closeParenthesis depth rest).map fun (inner, after) => (')' :: inner, after)
  | depth, '(' :: rest =>
      (closeParenthesis (depth + 1) rest).map fun (inner, after) => ('(' :: inner, after)
  | depth, c :: rest => (closeParenthesis depth rest).map fun (inner, after) => (c :: inner, after)

/-- The piece after a dollar sign, and what follows it. -/
def dollarPiece? (quoted : Bool) : List Char → Option (Piece × List Char)
  | '\x7b' :: rest => do
      let (inner, after) ← cutFirst (· == '\x7d') rest
      return (← bracedPiece? quoted inner, after)
  | '(' :: rest => do
      let (script, after) ← closeParenthesis 0 rest
      return (.output script quoted, after)
  | c :: rest =>
      if isVariableStart c then
        let name := (c :: rest).takeWhile isVariableChar
        return (.param (.variable (String.ofList name)) [] quoted, (c :: rest).drop name.length)
      else
        match Param.ofChars? [c] with
        | some param => some (.param param [] quoted, rest)
        | none => some (.text ['$'] quoted, c :: rest)
  | [] => some (.text ['$'] quoted, [])

def doubleQuoted : Nat → List Char → Option (List Piece × List Char)
  | 0, _ => none
  | bound + 1, text =>
      let continuing (piece : Piece) (rest : List Char) : Option (List Piece × List Char) :=
        (doubleQuoted bound rest).map fun (pieces, after) => (piece :: pieces, after)
      match text with
      | [] => none
      | '"' :: rest => some ([], rest)
      | '\\' :: '\n' :: rest => doubleQuoted bound rest
      | '\\' :: c :: rest =>
          if ['$', '\x60', '"', '\\'].contains c then continuing (.text [c] true) rest
          else continuing (.text ['\\', c] true) rest
      | '$' :: rest => do
          let (piece, after) ← dollarPiece? true rest
          continuing piece after
      | '\x60' :: rest => do
          let (script, after) ← cutFirst (· == '\x60') rest
          continuing (.output script true) after
      | c :: rest => continuing (.text [c] true) rest

def endsWord (c : Char) : Bool := [' ', '\t', '\n', ';', '&', '|', '<', '>', '(', ')'].contains c

def wordPieces : Nat → List Char → Option (List Piece × List Char)
  | 0, _ => none
  | bound + 1, text =>
      let continuing (pieces : List Piece) (rest : List Char) : Option (List Piece × List Char) :=
        (wordPieces bound rest).map fun (others, after) => (pieces ++ others, after)
      match text with
      | [] => some ([], [])
      | '\'' :: rest => do
          let (quoted, after) ← cutFirst (· == '\'') rest
          continuing [.text quoted true] after
      | '"' :: rest => do
          let (pieces, after) ← doubleQuoted bound rest
          continuing (.text [] true :: pieces) after
      | '\\' :: '\n' :: rest => wordPieces bound rest
      | '\\' :: c :: rest => continuing [.text [c] true] rest
      | '$' :: rest => do
          let (piece, after) ← dollarPiece? false rest
          continuing [piece] after
      | '\x60' :: rest => do
          let (script, after) ← cutFirst (· == '\x60') rest
          continuing [.output script false] after
      | c :: rest => if endsWord c then some ([], c :: rest) else continuing [.text [c] false] rest

/-- The redirection at the start of a text, for the channel if one is named before it. -/
def redirectAt? (channel : Option Nat) : List Char → Option (Token × List Char)
  | '>' :: '>' :: rest => some (.redirect (channel.getD 1) .extend, rest)
  | '>' :: '&' :: rest => some (.redirect (channel.getD 1) .duplicate, rest)
  | '>' :: '|' :: rest => some (.redirect (channel.getD 1) .write, rest)
  | '>' :: rest => some (.redirect (channel.getD 1) .write, rest)
  | '<' :: '&' :: rest => some (.redirect (channel.getD 0) .duplicate, rest)
  | '<' :: '<' :: _ => none
  | '<' :: rest => some (.redirect (channel.getD 0) .read, rest)
  | _ => none

def tokenAt? (bound : Nat) (text : List Char) : Option (Token × List Char) :=
  match text with
  | '\n' :: rest => some (.operator "\n", rest)
  | ';' :: rest => some (.operator ";", rest)
  | '&' :: '&' :: rest => some (.operator "&&", rest)
  | '&' :: rest => some (.operator ";", rest)
  | '|' :: '|' :: rest => some (.operator "||", rest)
  | '|' :: rest => some (.operator "|", rest)
  | '(' :: rest => some (.operator "(", rest)
  | ')' :: rest => some (.operator ")", rest)
  | _ =>
      let digits := text.takeWhile Char.isDigit
      let channel := if digits.isEmpty then none else some (naturalOf digits)
      match redirectAt? channel (text.drop digits.length) with
      | some found => some found
      | none =>
          if ['<', '>'].contains (text.headD ' ') then none
          else (wordPieces bound text).map fun (pieces, rest) => (.word pieces, rest)

def tokensFrom (bound : Nat) : Nat → List Char → Option (List Token)
  | 0, _ => none
  | more + 1, text =>
      match text with
      | [] => some []
      | ' ' :: rest | '\t' :: rest | '\\' :: '\n' :: rest => tokensFrom bound more rest
      | '#' :: rest => tokensFrom bound more (rest.dropWhile (· != '\n'))
      | _ => do
          let (token, rest) ← tokenAt? bound text
          return token :: (← tokensFrom bound more rest)

def tokens? (script : List Char) : Option (List Token) :=
  tokensFrom (script.length + 2) (script.length + 2) script

end EndpointAtlas.Shell
