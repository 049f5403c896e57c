import EndpointAtlas.Table
import EndpointAtlas.Text.Split

/-!
Annotations in documentation comments. A line of a comment that starts with an at sign names a tag,
and what follows the tag is its argument. A tag may occur many times.
-/

namespace EndpointAtlas

/-- The raw comments that document a declaration, in source order. -/
abbrev Doc := Option (List String)

open Text

/-- The trimmed lines of one raw comment without its markers. In a block comment a star that starts
a line is a marker too. -/
def commentLines (raw : List Char) : List (List Char) :=
  match afterStart? ['/', '/'] raw with
  | some rest => [trim rest]
  | none =>
      match afterStart? ['/', '*'] raw with
      | none => [trim raw]
      | some body =>
          let inner := (beforeEnd? ['*', '/'] body).getD body
          (lines inner).map fun line =>
            let line := trim line
            match line with
            | '*' :: rest => trim rest
            | _ => line

/-- The tag and the argument of a line that starts with an at sign. -/
def tagOf? (line : List Char) : Option (String × String) :=
  match line with
  | '@' :: _ =>
      match cutFirst isBlank line with
      | some (tag, rest) => some (String.ofList tag, String.ofList (trim rest))
      | none => some (String.ofList line, "")
  | _ => none

def taggedLines (comments : List String) : List (String × String) :=
  comments.flatMap fun raw => (commentLines raw.toList).filterMap tagOf?

/-- The arguments of each tag that occurs, in source order. -/
structure Annotations where
  tags : Table (List String)
  deriving Inhabited

namespace Annotations

def get (annotations : Annotations) (tag : String) : List String :=
  (annotations.tags.get? tag).getD []

def contains (annotations : Annotations) (tag : String) : Bool := annotations.tags.contains tag

def first? (annotations : Annotations) (tag : String) : Option String :=
  (annotations.get tag).head?

def add (annotations : Annotations) (tag argument : String) : Annotations :=
  ⟨annotations.tags.insert tag (annotations.get tag ++ [argument])⟩

def ofDoc : Doc → Annotations
  | none => ⟨.empty⟩
  | some comments =>
      (taggedLines comments).foldl (fun found line => found.add line.1 line.2) ⟨.empty⟩

theorem get_add (annotations : Annotations) (tag other argument : String) :
    (annotations.add tag argument).get other =
      if other = tag then annotations.get tag ++ [argument] else annotations.get other := by
  unfold get add
  by_cases same : other = tag <;> simp [Table.get_insert, same, get]

end Annotations

def afterField (text : List Char) : List Char := trimStart (text.dropWhile (!isBlank ·))

theorem length_after_field_lt {text : List Char} (something : text ≠ []) :
    (afterField text).length < text.length := by
  cases text with
  | nil => exact absurd rfl something
  | cons c rest =>
      unfold afterField
      cases blank : isBlank c with
      | true =>
          have gap := length_trim_start_le rest
          simpa [trimStart, blank] using Nat.lt_succ_of_le gap
      | false =>
          have field : (rest.dropWhile (!isBlank ·)).length ≤ rest.length :=
            (List.dropWhile_sublist _).length_le
          have gap := length_trim_start_le (rest.dropWhile (!isBlank ·))
          simpa [blank] using Nat.lt_succ_of_le (Nat.le_trans gap field)

/-- The fields of a text that starts with none of its white space, after as many as were taken
before. The last field that the limit allows keeps the rest of the text as it stands; a limit that
was passed before the first field allows any number. -/
def fieldsAfter (limit taken : Nat) (text : List Char) : List (List Char) :=
  if something : text = [] then []
  else if taken + 1 = limit then [text]
  else text.takeWhile (!isBlank ·) :: fieldsAfter limit (taken + 1) (afterField text)
termination_by text.length
decreasing_by exact length_after_field_lt something

/-- The fields of a text between white space, without limit if `limit` is zero. -/
def fields (limit : Nat) (text : List Char) : List (List Char) := fieldsAfter limit 0 (trim text)

end EndpointAtlas
