/-!
Values of TOML documents, and how the statements of a document fill its tables. A table may be
filled by several statements, but each table and each key is defined once.
-/

namespace EndpointAtlas.Toml

/-- How a table came to be. -/
inductive Origin where
  | inline
  | header
  /-- Passed through by the header of a table in it. -/
  | implied
  /-- Passed through by a dotted key. -/
  | dotted
  deriving DecidableEq, Repr

inductive Value where
  | text (value : String)
  | flag (value : Bool)
  /-- A number, a date or a time, as it is written. -/
  | scalar (source : List Char)
  | list (items : List Value)
  | table (origin : Origin) (entries : List (String × Value))
  /-- The tables of an array that is written by headers, the last one first. -/
  | tables (entries : List (List (String × Value)))
  deriving Repr, Inhabited

abbrev Entries := List (String × Value)

/-- The entries with the value of a key set, in its place or at the end. -/
def Entries.set (entries : Entries) (key : String) (value : Value) : Entries :=
  match entries with
  | [] => [(key, value)]
  | (other, kept) :: rest =>
      if other = key then (key, value) :: rest else (other, kept) :: Entries.set rest key value

/-- Changes the table at a path. Tables on the way that do not exist are made; a dotted key passes
neither through tables with a header nor through values. -/
def Entries.descend (dotted : Bool) (change : Origin → Entries → Option Entries) :
    List String → Origin → Entries → Option Entries
  | [], origin, entries => change origin entries
  | key :: path, _, entries =>
      match entries.lookup key with
      | none => do
          let origin := if dotted then .dotted else .implied
          let inner ← descend dotted change path origin []
          return entries.set key (.table origin inner)
      | some (.table origin inner) =>
          if origin = .inline || (dotted && origin = .header) then none
          else do
            let inner ← descend dotted change path origin inner
            return entries.set key (.table origin inner)
      | some (.tables (last :: others)) =>
          if dotted then none
          else do
            let last ← descend dotted change path .header last
            return entries.set key (.tables (last :: others))
      | some _ => none

/-- Defines a key, which must be new, in a table. -/
def Entries.define (path : List String) (value : Value) (origin : Origin) (entries : Entries) :
    Option Entries :=
  match path.getLast? with
  | none => none
  | some key =>
      let place (reached : Origin) (entries : Entries) : Option Entries :=
        if (reached == .dotted) == path.dropLast.isEmpty then none
        else if (entries.lookup key).isSome then none
        else some (entries ++ [(key, value)])
      entries.descend true place path.dropLast origin

inductive Statement where
  | header (path : List String)
  | arrayHeader (path : List String)
  | pair (path : List String) (value : Value)

/-- The tables of a document, and the path of the one that pairs are put into. -/
structure Document where
  entries : Entries
  current : List String

namespace Document

def openTable (key : String) (entries : Entries) : Option Entries :=
  match entries.lookup key with
  | none => some (entries ++ [(key, .table .header [])])
  | some (.table .implied inner) => some (entries.set key (.table .header inner))
  | some _ => none

def openElement (key : String) (entries : Entries) : Option Entries :=
  match entries.lookup key with
  | none => some (entries ++ [(key, .tables [[]])])
  | some (.tables others) => some (entries.set key (.tables ([] :: others)))
  | some _ => none

def add (document : Document) : Statement → Option Document
  | .header path => do
      let key ← path.getLast?
      let entries ←
        document.entries.descend false (fun _ => openTable key) path.dropLast .header
      return ⟨entries, path⟩
  | .arrayHeader path => do
      let key ← path.getLast?
      let entries ←
        document.entries.descend false (fun _ => openElement key) path.dropLast .header
      return ⟨entries, path⟩
  | .pair path value => do
      let entries ←
        document.entries.descend false (Entries.define path value) document.current .header
      return { document with entries }

def ofStatements? (statements : List Statement) : Option Entries :=
  (·.entries) <$> statements.foldlM add ⟨[], []⟩

end Document

end EndpointAtlas.Toml
