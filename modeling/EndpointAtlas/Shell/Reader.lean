import EndpointAtlas.Shell.Lexer

/-!
Reading shell scripts. A script that is not written well has no command.
-/

namespace EndpointAtlas.Shell

abbrev Reader := StateT (List Token) Option

namespace Reader

/-- The text of a word without quotes and dollar signs. -/
def plainText? (pieces : Word) : Option String :=
  let chars := pieces.mapM fun
    | .text value false => some value
    | _ => none
  chars.map fun chars => String.ofList chars.flatten

def plainWord? : Token → Option String
  | .word pieces => plainText? pieces
  | _ => none

def nextWord : Reader (Option String) := return (← get).head?.bind plainWord?

def skipWord (word : String) : Reader Bool := do
  if (← nextWord) == some word then
    modify List.tail
    return true
  else return false

def expectWord (word : String) : Reader Unit := do
  if ← skipWord word then return () else failure

def skipOperator (text : String) : Reader Bool := do
  if (← get).head? == some (.operator text) then
    modify List.tail
    return true
  else return false

def skipLines : Reader Unit := modify (·.dropWhile (· == .operator "\n"))

def skipEnds : Reader Unit :=
  modify (·.dropWhile fun token => token == .operator "\n" || token == .operator ";")

end Reader

open Reader

/-- Words that end a list of commands where a command could start. -/
def closers : List String := ["then", "elif", "else", "fi", "do", "done", "\x7d"]

/-- The name and the value of a word that assigns a variable. -/
def assignment? (pieces : Word) : Option (String × Word) :=
  let leading := (pieces.takeWhile fun
    | .text value false => value != ['=']
    | _ => false)
  let name := (plainText? leading).getD ""
  match pieces.drop leading.length, name.toList with
  | .text ['='] false :: value, c :: rest =>
      if isVariableStart c && rest.all isVariableChar then some (name, value) else none
  | _, _ => none

def redirects : Nat → Reader (List Redirect)
  | 0 => failure
  | bound + 1 => do
      match ← get with
      | .redirect channel kind :: .word target :: rest =>
          set rest
          return ⟨channel, kind, target⟩ :: (← redirects bound)
      | .redirect _ _ :: _ => failure
      | _ => return []

/-- Adds the words and redirections that come next to a simple command. -/
def simpleCommand : Nat → List (String × Word) → List Word → List Redirect → Reader Command
  | 0, _, _, _ => failure
  | bound + 1, assignments, words, targets => do
      match ← get with
      | .word pieces :: rest =>
          set rest
          match words, assignment? pieces with
          | [], some assignment =>
              simpleCommand bound (assignments ++ [assignment]) words targets
          | _, _ => simpleCommand bound assignments (words ++ [pieces]) targets
      | .redirect channel kind :: .word target :: rest =>
          set rest
          simpleCommand bound assignments words (targets ++ [⟨channel, kind, target⟩])
      | .redirect _ _ :: _ => failure
      | _ =>
          if assignments.isEmpty && words.isEmpty && targets.isEmpty then failure
          else return .simple assignments words targets

/-- The words of a loop, up to the end of the line. -/
def loopWords : Nat → Reader (List Word)
  | 0 => failure
  | bound + 1 => do
      match ← get with
      | .word pieces :: rest =>
          set rest
          return pieces :: (← loopWords bound)
      | _ => return []

mutual

/-- Commands up to a word or a parenthesis that closes them. -/
def list : Nat → Reader Command
  | 0 => failure
  | bound + 1 => do
      skipEnds
      if (← get).isEmpty || (← get).head? == some (.operator ")") then return .nothing
      if closers.contains ((← nextWord).getD "") then return .nothing
      let first ← chain bound
      match (← get).head? with
      | some (.operator "\n") | some (.operator ";") => return .sequence first (← list bound)
      | _ => return first

/-- Commands between which the status of the first decides whether the second runs. -/
def chain : Nat → Reader Command
  | 0 => failure
  | bound + 1 => do chainAfter bound (← pipeline bound)

def chainAfter : Nat → Command → Reader Command
  | 0, _ => failure
  | bound + 1, first => do
      if ← skipOperator "&&" then
        skipLines
        chainAfter bound (.both first (← pipeline bound))
      else if ← skipOperator "||" then
        skipLines
        chainAfter bound (.either first (← pipeline bound))
      else return first

def pipeline : Nat → Reader Command
  | 0 => failure
  | bound + 1 => do
      if ← skipWord "!" then return .negation (← pipeline bound)
      pipeAfter bound (← command bound)

def pipeAfter : Nat → Command → Reader Command
  | 0, _ => failure
  | bound + 1, first => do
      if ← skipOperator "|" then
        skipLines
        pipeAfter bound (.pipe first (← command bound))
      else return first

def command : Nat → Reader Command
  | 0 => failure
  | bound + 1 => do
      if ← skipOperator "(" then
        let body ← list bound
        unless ← skipOperator ")" do failure
        return .group true body (← redirects bound)
      else if ← skipWord "\x7b" then
        let body ← list bound
        expectWord "\x7d"
        return .group false body (← redirects bound)
      else if ← skipWord "if" then
        let body ← conditional bound
        return .group false body (← redirects bound)
      else if ← skipWord "for" then
        let some name ← nextWord | failure
        modify List.tail
        skipLines
        expectWord "in"
        let words ← loopWords bound
        skipEnds
        expectWord "do"
        let body ← list bound
        expectWord "done"
        return .group false (.loop name words body) (← redirects bound)
      else simpleCommand (bound + 1) [] [] []

def conditional : Nat → Reader Command
  | 0 => failure
  | bound + 1 => do
      let test ← list bound
      expectWord "then"
      let positive ← list bound
      if ← skipWord "elif" then return .conditional test positive (← conditional bound)
      let negative ← if ← skipWord "else" then list bound else pure .nothing
      expectWord "fi"
      return .conditional test positive negative

end

def read? (script : List Char) : Option Command := do
  let tokens ← tokens? script
  let (command, rest) ← list (8 * (tokens.length + 2)) tokens
  if rest.isEmpty then some command else none

end EndpointAtlas.Shell
