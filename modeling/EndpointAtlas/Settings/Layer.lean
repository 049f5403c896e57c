import EndpointAtlas.Document.Report
import EndpointAtlas.Settings.File
import EndpointAtlas.Settings.Source

/-!
Layers of settings: what a file, the environment or the command line sets. An empty list in a file
and a list without items on the command line set nothing; a variable that is there always sets its
setting.
-/

namespace EndpointAtlas

structure Layer where
  module : Option String := none
  inclusions : Option (List String) := none
  exclusions : Option (List String) := none
  includeTests : Option Bool := none
  contextType : Option String := none
  format : Option String := none
  plugin : Option String := none
  shell : Option Bool := none
  output : Option Path := none
  deriving DecidableEq, Repr

abbrev Environment := Table String

structure Overrides where
  module : Option String := none
  inclusions : List String := []
  exclusions : List String := []
  includeTests : Bool := false
  contextType : Option String := none
  format : Option OutputFormat := none
  plugin : Option String := none
  shell : Bool := false
  output : Option Path := none
  deriving DecidableEq, Repr

def givenList (items : List String) : Option (List String) :=
  if items.isEmpty then none else some items

def givenSwitch (on : Bool) : Option Bool := if on then some true else none

def isYes (text : String) : Bool := text == "1" || text.map Char.toLower == "true"

/-- The items between commas, without white space around them; empty ones are dropped. -/
def listItems (text : String) : List String :=
  (((text.toList.splitOn ',').map Text.trim).filter (!·.isEmpty)).map String.ofList

/-- A path that stands in a file, seen from the directory of the file. -/
def besideFile (file path : Path) : Path :=
  match file.parent? with
  | some directory => directory.join path
  | none => path

namespace Layer

def sets (layer : Layer) : Setting → Bool
  | .module => layer.module.isSome
  | .inclusions => layer.inclusions.isSome
  | .exclusions => layer.exclusions.isSome
  | .includeTests => layer.includeTests.isSome
  | .contextType => layer.contextType.isSome
  | .format => layer.format.isSome
  | .plugin => layer.plugin.isSome
  | .shell => layer.shell.isSome
  | .output => layer.output.isSome

def ofFile (path : Path) (file : FileSettings) : Layer where
  module := file.module
  inclusions := givenList file.inclusions
  exclusions := givenList file.exclusions
  includeTests := file.includeTests
  contextType := file.contextType
  format := file.format
  plugin := file.plugin
  shell := file.shell
  output := file.output.map (besideFile path)

def ofEnvironment (environment : Environment) : Layer where
  module := environment.get? Setting.module.variableName
  inclusions := (environment.get? Setting.inclusions.variableName).map listItems
  exclusions := (environment.get? Setting.exclusions.variableName).map listItems
  includeTests := (environment.get? Setting.includeTests.variableName).map isYes
  contextType := environment.get? Setting.contextType.variableName
  format := environment.get? Setting.format.variableName
  plugin := environment.get? Setting.plugin.variableName

def ofOverrides (overrides : Overrides) : Layer where
  module := overrides.module
  inclusions := givenList overrides.inclusions
  exclusions := givenList overrides.exclusions
  includeTests := givenSwitch overrides.includeTests
  contextType := overrides.contextType
  format := overrides.format.map OutputFormat.name
  plugin := overrides.plugin
  shell := givenSwitch overrides.shell
  output := overrides.output

end Layer

end EndpointAtlas
