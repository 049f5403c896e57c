import EndpointAtlas.Analysis
import EndpointAtlas.Settings.Layer

/-!
Resolved settings: the values that the layers leave, and the layer of each.
-/

namespace EndpointAtlas

structure Settings where
  module : Option String
  inclusions : List String
  exclusions : List String
  includeTests : Bool
  contextType : String
  format : String
  plugin : Option String
  shell : Bool
  output : Option Path
  provenance : Provenance
  /-- The configuration files that were read, in the order of their layers. -/
  loadedFiles : List Path

def projectFileName : String := ".restc.toml"

namespace Settings

def default : Settings where
  module := none
  inclusions := []
  exclusions := []
  includeTests := false
  contextType := defaultContextType
  format := OutputFormat.json.name
  plugin := none
  shell := false
  output := none
  provenance := .ofList (Setting.all.map fun setting => (setting.name, .default))
  loadedFiles := []

/-- The sources with those of the settings that a layer sets. -/
def recordLayer (layer : Layer) (source : Setting → Source) (provenance : Provenance) :
    Provenance :=
  (Setting.all.filter layer.sets).foldl
    (fun provenance setting => provenance.insert setting.name (source setting)) provenance

def overlay (settings : Settings) (layer : Layer) (source : Setting → Source) : Settings where
  module := layer.module.or settings.module
  inclusions := layer.inclusions.getD settings.inclusions
  exclusions := layer.exclusions.getD settings.exclusions
  includeTests := layer.includeTests.getD settings.includeTests
  contextType := layer.contextType.getD settings.contextType
  format := layer.format.getD settings.format
  plugin := layer.plugin.or settings.plugin
  shell := layer.shell.getD settings.shell
  output := layer.output.or settings.output
  provenance := recordLayer layer source settings.provenance
  loadedFiles := settings.loadedFiles

end Settings

/-- A file tree and the directory in it that relative paths start from. -/
structure Place where
  tree : Tree
  working : Location
  deriving Inhabited

namespace Place

def contains (place : Place) (path : Path) : Bool := (place.tree.find place.working path).toBool

/-- The text of the file at a path, if there is one and it has no stray bytes. -/
def text? (place : Place) (path : Path) : Option String :=
  match place.tree.content place.working path with
  | .ok content => Text.Glyph.text? content
  | .error _ => none

end Place

def userFilePath? (environment : Environment) : Option Path :=
  let directory := match (environment.get? "XDG_CONFIG_HOME").map Path.mk with
    | some path => if path.isAbsolute then some path else none
    | none => none
  let home := (environment.get? "HOME").filter (!·.isEmpty)
  (directory.or (home.map fun home => Path.join ⟨home⟩ ⟨".config"⟩)).map fun path =>
    (path.join ⟨"restc"⟩).join ⟨"config.toml"⟩

/-- The nearest configuration file at or above a directory. -/
def projectFilePath? (place : Place) (directory : Path) : Option Path :=
  (directory.ancestors.map (·.join ⟨projectFileName⟩)).find? place.contains

def loadFile (place : Place) (owner : ConfigOwner) (path : Path) :
    Except Failure FileSettings :=
  match place.text? path with
  | none => .error (.config (.unreadable owner path))
  | some text =>
      match FileSettings.read? text with
      | some file => .ok file
      | none => .error (.config (.invalidFile owner path))

namespace Settings

/-- The settings with those of a configuration file, if there is one. -/
def overlayFile (settings : Settings) (place : Place) (owner : ConfigOwner)
    (source : Path → Source) : Option Path → Except Failure Settings
  | none => .ok settings
  | some path => do
      let file ← loadFile place owner path
      return { settings.overlay (.ofFile path file) fun _ => source path with
        loadedFiles := settings.loadedFiles ++ [path] }

def resolve (place : Place) (environment : Environment) (directory : Path)
    (userFile : Option Path) (overrides : Overrides) : Except Failure Settings := do
  let settings ←
    Settings.default.overlayFile place .user .userFile (userFile.filter place.contains)
  let settings ←
    settings.overlayFile place .project .projectFile (projectFilePath? place directory)
  let settings :=
    settings.overlay (.ofEnvironment environment) fun setting => .environment setting.variableName
  return settings.overlay (.ofOverrides overrides) fun setting => .commandLine setting.flag

/-- The options of an analysis of a project. A module path that is not set is read from the project.
-/
def analysisOptions (settings : Settings) (tree : Tree) (root : Path) :
    Except Failure AnalysisOptions := do
  let module ← match settings.module with
    | some module => pure module
    | none => moduleOf tree root
  let contextType ← readContextType settings.contextType
  return ⟨root, module, settings.inclusions, settings.exclusions, settings.includeTests,
    contextType⟩

end Settings

end EndpointAtlas
