import EndpointAtlas.CommandLine.Arguments
import EndpointAtlas.Settings.Layer

/-!
The commands of the program, as they are given on the command line.
-/

namespace EndpointAtlas.CommandLine

inductive Command where
  /-- Writes the document of a project, to a file if one is named. -/
  | analyze (path : Option Path) (overrides : Overrides) (output : Option Path)
  /-- Hands the document of a project to a generator. -/
  | generate (path : Option Path) (overrides : Overrides)
  | showConfig (path : Option Path)
  | showConfigPaths (path : Option Path)
  deriving DecidableEq, Repr

inductive Menu where
  | mk (items : List (String × Menu))

namespace Menu

def leaf : Menu := ⟨[]⟩

def items : Menu → List (String × Menu)
  | mk items => items

def config : Menu := ⟨[("show", leaf), ("paths", leaf), ("help", leaf)]⟩

def top : Menu := ⟨[("analyze", leaf), ("generate", leaf), ("config", config), ("help", leaf)]⟩

def leads : List String → Menu → Bool
  | [], _ => true
  | name :: rest, menu =>
      match menu.items.lookup name with
      | some inner => leads rest inner
      | none => false

end Menu

def helpOption : OptionSpec := ⟨"help", some 'h', .help, false⟩

def versionOption : OptionSpec := ⟨"version", some 'V', .version, false⟩

/-- The command that arguments choose from a menu, with the arguments that are left for it. Every
option that may stand before it ends the program. -/
def choose (menu : Menu) (options : List OptionSpec) : List String → Read (String × List String)
  | [] => .error .missingCommand
  | ["--"] => .error .missingCommand
  | "--" :: name :: _ =>
      if (menu.items.lookup name).isSome then .error .unknownArgument else .error .unknownCommand
  | "help" :: names => if menu.leads names then .error .help else .error .unknownCommand
  | name :: rest =>
      if (menu.items.lookup name).isSome then .ok (name, rest)
      else
        match name.toList with
        | '-' :: _ :: _ => do
            discard (readArguments options [] [name])
            .error .unknownArgument
        | _ => .error .unknownCommand

def pathPlace : OptionSpec := ⟨"", none, .path, false⟩

def analysisFlags : List OptionSpec :=
  [helpOption, ⟨"module", none, .text, false⟩, ⟨"include", none, .text, true⟩,
    ⟨"exclude", none, .text, true⟩, ⟨"include-tests", none, .switch, false⟩,
    ⟨"context-type", none, .text, false⟩]

def analyzeFlags : List OptionSpec :=
  analysisFlags ++ [⟨"format", none, .format, false⟩, ⟨"output", some 'o', .path, false⟩]

def generateFlags : List OptionSpec :=
  analysisFlags ++ [⟨"plugin", none, .text, false⟩, ⟨"shell", none, .switch, false⟩,
    ⟨"output", some 'o', .path, false⟩]

def configFlags : List OptionSpec := [helpOption, ⟨"path", none, .path, false⟩]

abbrev Given := List (String × String)

def Given.all (given : Given) (name : String) : List String :=
  (given.filter (·.1 == name)).map Prod.snd

def Given.path? (given : Given) (name : String) : Option Path := (given.lookup name).map Path.mk

def Given.analysisOverrides (given : Given) : Overrides where
  module := given.lookup "module"
  inclusions := given.all "include"
  exclusions := given.all "exclude"
  includeTests := (given.lookup "include-tests").isSome
  contextType := given.lookup "context-type"

def analyzeCommand (arguments : List String) : Read Command := do
  let given : Given ← readArguments analyzeFlags [pathPlace] arguments
  let overrides : Overrides := { given.analysisOverrides with
    format := (given.lookup "format").bind OutputFormat.ofName? }
  return .analyze (given.path? pathPlace.name) overrides (given.path? "output")

def generateCommand (arguments : List String) : Read Command := do
  let given : Given ← readArguments generateFlags [pathPlace] arguments
  let overrides : Overrides := { given.analysisOverrides with
    plugin := given.lookup "plugin"
    shell := (given.lookup "shell").isSome
    output := given.path? "output" }
  return .generate (given.path? pathPlace.name) overrides

def configCommand (arguments : List String) : Read Command := do
  let (name, arguments) ← choose .config [helpOption] arguments
  let given : Given ← readArguments configFlags [] arguments
  let path := given.path? "path"
  return if name == "show" then .showConfig path else .showConfigPaths path

def Command.ofArguments (arguments : List String) : Read Command := do
  let (name, arguments) ← choose .top [helpOption, versionOption] arguments
  if name == "analyze" then analyzeCommand arguments
  else if name == "generate" then generateCommand arguments
  else configCommand arguments

end EndpointAtlas.CommandLine
