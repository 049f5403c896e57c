import EndpointAtlas.Text.Split

/-!
The module path that a `go.mod` file states.
-/

namespace EndpointAtlas.Go

open Text

def beforeComment : List Char → List Char
  | '/' :: '/' :: _ => []
  | c :: rest => c :: beforeComment rest
  | [] => []

def isQuote (c : Char) : Bool := c == '"'

/-- What follows the word `module` and a space in a line that starts with them, without comment and
quotes. -/
def moduleLine? (line : List Char) : Option (List Char) :=
  (afterStart? "module ".toList (trim line)).map fun rest =>
    dropEndWhile isQuote ((trim (beforeComment rest)).dropWhile isQuote)

/-- The module path of the first module line, unless that path is empty. -/
def modulePath? (content : String) : Option String :=
  match (lines content.toList).findSome? moduleLine? with
  | some (c :: rest) => some (String.ofList (c :: rest))
  | _ => none

end EndpointAtlas.Go
