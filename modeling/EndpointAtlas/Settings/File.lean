import EndpointAtlas.Path
import EndpointAtlas.Toml.Reader

/-!
Configuration files: three sections of settings, all of them optional. Sections and keys that are
not known and values of another type are refused. A section may also be written as the list of its
values.
-/

namespace EndpointAtlas

structure FileSettings where
  module : Option String
  inclusions : List String
  exclusions : List String
  includeTests : Option Bool
  contextType : Option String
  format : Option String
  plugin : Option String
  shell : Option Bool
  output : Option Path
  deriving DecidableEq, Repr

namespace FileSettings

/-- The entries of a section, whose keys must be among the given ones. -/
def sectionEntries? (names : List String) : Toml.Value → Option Toml.Entries
  | .table _ entries => if entries.all (names.contains ·.1) then some entries else none
  | .list items => if items.length < names.length then none else some (names.zip items)
  | _ => none

/-- A section of a document; one that is absent is empty. -/
def section? (document : Toml.Entries) (name : String) (names : List String) :
    Option Toml.Entries :=
  match document.lookup name with
  | none => some []
  | some value => sectionEntries? names value

def text? (entries : Toml.Entries) (key : String) : Option (Option String) :=
  match entries.lookup key with
  | none => some none
  | some (.text value) => some (some value)
  | some _ => none

def flag? (entries : Toml.Entries) (key : String) : Option (Option Bool) :=
  match entries.lookup key with
  | none => some none
  | some (.flag value) => some (some value)
  | some _ => none

def itemText? : Toml.Value → Option String
  | .text value => some value
  | _ => none

def texts? (entries : Toml.Entries) (key : String) : Option (List String) :=
  match entries.lookup key with
  | none => some []
  | some (.list items) => items.mapM itemText?
  | some _ => none

def ofEntries? (document : Toml.Entries) : Option FileSettings := do
  guard (document.all fun entry => ["analysis", "output", "generate"].contains entry.1)
  let analysis ← section? document "analysis"
    ["module", "include", "exclude", "include_tests", "context_type"]
  let output ← section? document "output" ["format"]
  let generate ← section? document "generate" ["plugin", "shell", "output"]
  return {
    module := ← text? analysis "module"
    inclusions := ← texts? analysis "include"
    exclusions := ← texts? analysis "exclude"
    includeTests := ← flag? analysis "include_tests"
    contextType := ← text? analysis "context_type"
    format := ← text? output "format"
    plugin := ← text? generate "plugin"
    shell := ← flag? generate "shell"
    output := (← text? generate "output").map Path.mk }

def read? (text : String) : Option FileSettings := (Toml.read? text).bind ofEntries?

end FileSettings

end EndpointAtlas
