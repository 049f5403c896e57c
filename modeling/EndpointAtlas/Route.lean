import EndpointAtlas.Text.Alphabetic
import EndpointAtlas.Text.Numeric
import EndpointAtlas.Text.Lowercase
import EndpointAtlas.Text.Split

/-!
Path patterns of endpoints and aliases of package paths.
-/

namespace EndpointAtlas

open Text

def isNameChar (c : Char) : Bool := isAlphabetic c || isNumeric c || c == '_'

/-- Names between braces in a path pattern, in order. Braces around anything but a name are passed
over, and an unclosed brace ends the search. -/
def placeholders (pattern : List Char) : List (List Char) :=
  match _opened : cutFirst (· == '\x7b') pattern with
  | none => []
  | some (_, after) =>
      match _closed : cutFirst (· == '\x7d') after with
      | none => []
      | some (name, rest) =>
          if !name.isEmpty && name.all isNameChar then name :: placeholders rest
          else placeholders rest
termination_by pattern.length
decreasing_by
  all_goals
    obtain ⟨_, -, equal, -⟩ := cut_first_eq_some _opened
    obtain ⟨_, -, same, -⟩ := cut_first_eq_some _closed
    subst equal
    subst same
    simp only [List.length_append, List.length_cons]
    omega

/-- The alias of what is left of a package path, after a separator or not. -/
def aliasFrom (separated : Bool) : List Char → List Char
  | [] => []
  | c :: rest =>
      if isNameChar c then lowercase c ++ aliasFrom false rest
      else if separated then aliasFrom true rest
      else '_' :: aliasFrom true rest

/-- A package path in lower case, with an underscore for every run of other characters. -/
def packageAlias (package : String) : String := String.ofList (aliasFrom false package.toList)

end EndpointAtlas
