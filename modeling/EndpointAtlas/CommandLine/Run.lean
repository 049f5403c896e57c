import EndpointAtlas.CommandLine.Command
import EndpointAtlas.Generator
import EndpointAtlas.Settings.Show

/-!
What the commands do to a file tree and what they write.
-/

namespace EndpointAtlas.CommandLine

open Text

/-- Where a command is given: the files, the working directory and the environment. -/
structure Host where
  place : Place
  environment : Environment

structure Effects where
  tree : Tree
  output : List Glyph
  warnings : List Warning

/-- A step of a command. What it has done before it fails stays done. -/
abbrev Act := EStateM Failure Effects

namespace Act

def ofExcept : Except Failure α → Act α
  | .ok value => pure value
  | .error failure => throw failure

def write (text : String) : Act Unit :=
  modify fun effects => { effects with output := effects.output ++ Glyph.ofString text }

end Act

namespace Host

/-- The path of the directory that a path leads to, without points and doubled slashes. -/
def resolved? (host : Host) (path : Path) : Option Path :=
  match host.place.tree.find host.place.working path with
  | .ok location => some (Tree.pathOf location)
  | .error _ => none

def workingPath (host : Host) : Path := Tree.pathOf host.place.working

def projectRoot (host : Host) (path : Option Path) : Except Failure Path :=
  let path := path.getD ⟨"."⟩
  match host.resolved? path with
  | some root => .ok root
  | none => .error (.noFiles path)

def settings (host : Host) (directory : Path) (overrides : Overrides) :
    Except Failure Settings :=
  Settings.resolve host.place host.environment directory (userFilePath? host.environment) overrides

def document (host : Host) (root : Path) (settings : Settings) : Act Document := do
  let options ← Act.ofExcept (settings.analysisOptions host.place.tree root)
  let (result, warnings) := EndpointAtlas.analyze host.place.tree options
  modify fun effects => { effects with warnings := effects.warnings ++ warnings }
  Act.ofExcept result

def analyze (host : Host) (path : Option Path) (overrides : Overrides) (output : Option Path) :
    Act Unit := do
  let root ← Act.ofExcept (host.projectRoot path)
  let settings ← Act.ofExcept (host.settings root overrides)
  let some format := OutputFormat.ofName? settings.format
    | throw (.config (.unknownFormat settings.format))
  let document ← host.document root settings
  let text := match format with
    | .json => document.prettyText
    | .text => document.report root
  match output with
  | none => Act.write text
  | some path =>
      match (← get).tree.write host.place.working path (Glyph.ofString text) with
      | .ok tree => modify fun effects => { effects with tree }
      | .error fault => throw (.io fault)

/-- Where a generator writes: the path on the command line is seen from the working directory, one
from a file is complete, and else it is the root of the project. -/
def outputDirectory (host : Host) (root : Path) (overrides : Overrides) (settings : Settings) :
    Path :=
  let path := match overrides.output, settings.output with
    | some path, _ => host.workingPath.join path
    | none, some path => path
    | none, none => root
  root.join path

def generate (host : Host) (path : Option Path) (overrides : Overrides) : Act Unit := do
  let root ← Act.ofExcept (host.projectRoot path)
  let settings ← Act.ofExcept (host.settings root overrides)
  let some name := settings.plugin | throw (.config .noPlugin)
  let generator := Generator.ofName name settings.shell
  let document ← host.document root settings
  let effects ← get
  let session := Generator.session effects.tree root.normalParts host.environment document
    (host.outputDirectory root overrides settings)
  let (tree, written, result) := generator.run session
  set { effects with tree, output := effects.output ++ written }
  Act.ofExcept result

def configDirectory (host : Host) (path : Option Path) : Except Failure Path :=
  let path := path.getD ⟨"."⟩
  match host.resolved? path with
  | some directory => .ok directory
  | none => .error (.config (.invalidPath path))

def showConfig (host : Host) (path : Option Path) : Act Unit := do
  let directory ← Act.ofExcept (host.configDirectory path)
  let settings ← Act.ofExcept (host.settings directory {})
  Act.write settings.shown

def shownPath (host : Host) : Option Path → String
  | none => "(none)"
  | some path => if host.place.contains path then path.text else path.text ++ " (not present)"

def showConfigPaths (host : Host) (path : Option Path) : Act Unit := do
  let directory ← Act.ofExcept (host.configDirectory path)
  Act.write ("user:    " ++ host.shownPath (userFilePath? host.environment) ++ "\n")
  Act.write ("project: " ++ host.shownPath (projectFilePath? host.place directory) ++ "\n")

def act (host : Host) : Command → Act Unit
  | .analyze path overrides output => host.analyze path overrides output
  | .generate path overrides => host.generate path overrides
  | .showConfig path => host.showConfig path
  | .showConfigPaths path => host.showConfigPaths path

/-- What a command does, and whether it fails. -/
def run (host : Host) (command : Command) : Effects × Except Failure Unit :=
  match host.act command ⟨host.place.tree, [], []⟩ with
  | .ok _ effects => (effects, .ok ())
  | .error failure effects => (effects, .error failure)

end Host

end EndpointAtlas.CommandLine
