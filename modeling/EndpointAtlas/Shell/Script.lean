/-!
Shell scripts: words, redirections and commands.
-/

namespace EndpointAtlas.Shell

inductive Param where
  | variable (name : String)
  /-- An argument of the script; the one with number zero is the name of the script. -/
  | argument (index : Nat)
  | arguments
  | count
  | status
  | process
  deriving DecidableEq, Repr

/-- A part of a word. Parts that are not quoted fall apart at white space when they are expanded. -/
inductive Piece where
  | text (value : List Char) (quoted : Bool)
  /-- The value of a parameter, or another text if it has none. -/
  | param (param : Param) (fallback : List Char) (quoted : Bool)
  /-- What a script writes. -/
  | output (script : List Char) (quoted : Bool)
  deriving DecidableEq, Repr

abbrev Word := List Piece

/-- What is done with a channel of a command. -/
inductive RedirectKind where
  | read
  | write
  | extend
  /-- The channel becomes what another one is. -/
  | duplicate
  deriving DecidableEq, Repr

structure Redirect where
  channel : Nat
  kind : RedirectKind
  target : Word
  deriving DecidableEq, Repr

inductive Command where
  | nothing
  | simple (assignments : List (String × Word)) (words : List Word) (redirects : List Redirect)
  /-- A command in braces or parentheses; in parentheses it keeps its changes to itself. -/
  | group (apart : Bool) (body : Command) (redirects : List Redirect)
  | pipe (first second : Command)
  | negation (body : Command)
  | both (first second : Command)
  | either (first second : Command)
  | sequence (first second : Command)
  | conditional (test positive negative : Command)
  | loop (name : String) (words : List Word) (body : Command)
  deriving Repr, Inhabited

end EndpointAtlas.Shell
