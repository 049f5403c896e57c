import EndpointAtlas.Toml.Scalar
import EndpointAtlas.Toml.Value

/-!
Reading TOML documents. A reader takes characters off the front of a text or refuses the text. The
depth of readers that go on or call each other is bounded by the length of the text.
-/

namespace EndpointAtlas.Toml

abbrev Reader := StateT (List Char) Option

namespace Reader

def rest : Reader (List Char) := get

def sees (start : List Char) : Reader Bool := return start.isPrefixOf (← get)

def skip (start : List Char) : Reader Bool := do
  if ← sees start then
    modify (·.drop start.length)
    return true
  else return false

def mark (start : List Char) : Reader Unit := do
  if ← skip start then return () else failure

def run (accept : Char → Bool) : Reader (List Char) := fun text =>
  some (text.takeWhile accept, text.dropWhile accept)

def next : Reader Char := fun
  | c :: text => some (c, text)
  | [] => none

end Reader

open Reader

def isBlank (c : Char) : Bool := c == ' ' || c == '\t'

/-- Characters of comments and literal texts: no controls but the tab. -/
def isPlain (c : Char) : Bool := c == '\t' || (0x20 ≤ c.toNat && c.toNat != 0x7F)

def blanks : Reader Unit := discard (run isBlank)

def lineEnd : Reader Bool := do
  if ← skip ['\n'] then return true
  skip ['\r', '\n']

def comment : Reader Unit := do
  if ← skip ['#'] then discard (run isPlain)

def trivia : Nat → Reader Unit
  | 0 => failure
  | bound + 1 => do
      blanks
      comment
      if ← lineEnd then trivia bound

def charOf (digits : List Char) : Reader Char :=
  let code := numberOf 16 digits
  if digits.all isHexDigit && (code < 0xD800 || (0xDFFF < code && code < 0x110000)) then
    return Char.ofNat code
  else failure

def takeExactly : Nat → Reader (List Char)
  | 0 => return []
  | count + 1 => do
      let c ← next
      return c :: (← takeExactly count)

def escape : Reader Char := do
  match ← next with
  | 'b' => return '\x08'
  | 't' => return '\t'
  | 'n' => return '\n'
  | 'f' => return '\x0c'
  | 'r' => return '\r'
  | '"' => return '"'
  | '\\' => return '\\'
  | 'u' => charOf (← takeExactly 4)
  | 'U' => charOf (← takeExactly 8)
  | _ => failure

def basicText : Nat → Reader (List Char)
  | 0 => failure
  | bound + 1 => do
      match ← next with
      | '"' => return []
      | '\\' => do
          let c ← escape
          return c :: (← basicText bound)
      | c => if isPlain c then return c :: (← basicText bound) else failure

def literalText : Reader (List Char) := do
  let text ← run fun c => isPlain c && c != '\''
  mark ['\'']
  return text

/-- The quotes at the end of a text of several lines: three close it, and up to two before them
belong to it. -/
def closingQuotes (quote : Char) : Reader (Option (List Char)) := do
  let count := ((← rest).takeWhile (· == quote)).length
  if count < 3 then return none
  let taken := min count 5
  modify (·.drop taken)
  return some (List.replicate (taken - 3) quote)

/-- Whether a backslash ends a line, with nothing but blanks between the two. -/
def endsLine : Reader Bool := do
  let after := (← rest).dropWhile isBlank
  return ['\n'].isPrefixOf after || ['\r', '\n'].isPrefixOf after

def skipSpace : Nat → Reader Unit
  | 0 => failure
  | bound + 1 => do
      blanks
      if ← lineEnd then skipSpace bound

/-- A text of several lines after the opening quotes. Ends of lines read as line feeds; in double
quotes a backslash at the end of a line takes the space after it away. -/
def linesText (quote : Char) : Nat → Reader (List Char)
  | 0 => failure
  | bound + 1 => do
      if let some tail ← closingQuotes quote then return tail
      if ← lineEnd then return '\n' :: (← linesText quote bound)
      let c ← next
      if c == '\\' && quote == '"' then
        if ← endsLine then
          skipSpace (bound + 1)
          linesText quote bound
        else
          let c ← escape
          return c :: (← linesText quote bound)
      else if isPlain c then return c :: (← linesText quote bound)
      else failure

def isKeyChar (c : Char) : Bool := c.isAlphanum || c == '_' || c == '-'

def keyPart (bound : Nat) : Reader String := do
  if ← skip ['"'] then return String.ofList (← basicText bound)
  if ← skip ['\''] then return String.ofList (← literalText)
  let name ← run isKeyChar
  if name.isEmpty then failure else return String.ofList name

def keyPath (bound : Nat) : Nat → Reader (List String)
  | 0 => failure
  | more + 1 => do
      blanks
      let part ← keyPart bound
      blanks
      if ← skip ['.'] then return part :: (← keyPath bound more)
      return [part]

def isScalarChar (c : Char) : Bool := c.isAlphanum || ['_', '+', '-', '.', ':'].contains c

/-- A word that is a truth value, a number, a date or a time. -/
def bareValue : Reader Value := do
  let word ← run isScalarChar
  if word == "true".toList then return .flag true
  if word == "false".toList then return .flag false
  let following := (← rest).take 2
  if isDate word && following.head? == some ' ' && (following.drop 1).any Char.isDigit then
    modify (·.drop 1)
    let time ← run isScalarChar
    if isDateTime (word ++ ' ' :: time) then return .scalar (word ++ ' ' :: time) else failure
  else if isScalar word then return .scalar word
  else failure

mutual

def value : Nat → Reader Value
  | 0 => failure
  | bound + 1 => do
      if ← skip "\"\"\"".toList then
        discard lineEnd
        return .text (String.ofList (← linesText '"' bound))
      else if ← skip ['"'] then return .text (String.ofList (← basicText bound))
      else if ← skip "\'\'\'".toList then
        discard lineEnd
        return .text (String.ofList (← linesText '\'' bound))
      else if ← skip ['\''] then return .text (String.ofList (← literalText))
      else if ← skip ['['] then return .list (← items bound)
      else if ← skip ['\x7b'] then
        blanks
        if ← skip ['\x7d'] then return .table .inline []
        else return .table .inline (← pairs bound [])
      else bareValue

/-- The items of an array up to its closing bracket. A comma may follow the last one. -/
def items : Nat → Reader (List Value)
  | 0 => failure
  | bound + 1 => do
      trivia bound
      if ← skip [']'] then return []
      let item ← value bound
      trivia bound
      if ← skip [','] then return item :: (← items bound)
      mark [']']
      return [item]

def pairs : Nat → Entries → Reader Entries
  | 0, _ => failure
  | bound + 1, entries => do
      let path ← keyPath bound bound
      mark ['=']
      blanks
      let value ← value bound
      blanks
      let entries ← StateT.lift (entries.define path value .inline)
      if ← skip [','] then pairs bound entries
      else
        mark ['\x7d']
        return entries

end

def statement (bound : Nat) : Reader (Option Statement) := do
  blanks
  if (← rest).isEmpty || (← sees ['#']) || (← sees ['\n']) || (← sees ['\r', '\n']) then return none
  if ← skip ['[', '['] then
    let path ← keyPath bound bound
    mark [']', ']']
    return some (.arrayHeader path)
  if ← skip ['['] then
    let path ← keyPath bound bound
    mark [']']
    return some (.header path)
  let path ← keyPath bound bound
  mark ['=']
  blanks
  return some (.pair path (← value bound))

def statements (bound : Nat) : Nat → Reader (List Statement)
  | 0 => failure
  | lines + 1 => do
      let first ← statement bound
      blanks
      comment
      if ← lineEnd then
        let others ← statements bound lines
        return first.toList ++ others
      else if (← rest).isEmpty then return first.toList
      else failure

/-- Reads a document; there is none if the text is not written well. A byte order mark may stand
before it. -/
def read? (text : String) : Option Entries :=
  let chars := match text.toList with
    | '\uFEFF' :: rest => rest
    | all => all
  let bound := chars.length + 2
  (statements bound bound chars).bind fun (statements, _) =>
    Document.ofStatements? statements

end EndpointAtlas.Toml
