import EndpointAtlas.Path
import EndpointAtlas.Table

/-!
The settings and where their values come from. Of two layers that set a setting the later one
counts: defaults, the file of the user, the file of the project, the environment, the command line.
-/

namespace EndpointAtlas

inductive Setting where
  | module
  | inclusions
  | exclusions
  | includeTests
  | contextType
  | format
  | plugin
  | shell
  | output
  deriving DecidableEq, Repr

namespace Setting

def all : List Setting :=
  [module, inclusions, exclusions, includeTests, contextType, format, plugin, shell, output]

def name : Setting → String
  | module => "analysis.module"
  | inclusions => "analysis.include"
  | exclusions => "analysis.exclude"
  | includeTests => "analysis.include_tests"
  | contextType => "analysis.context_type"
  | format => "output.format"
  | plugin => "generate.plugin"
  | shell => "generate.shell"
  | output => "generate.output"

def flag : Setting → String
  | module => "--module"
  | inclusions => "--include"
  | exclusions => "--exclude"
  | includeTests => "--include-tests"
  | contextType => "--context-type"
  | format => "--format"
  | plugin => "--plugin"
  | shell => "--shell"
  | output => "--output"

/-- The environment variable of a setting. No variable is ever read for the last two. -/
def variableName : Setting → String
  | module => "RESTC_MODULE"
  | inclusions => "RESTC_INCLUDE"
  | exclusions => "RESTC_EXCLUDE"
  | includeTests => "RESTC_INCLUDE_TESTS"
  | contextType => "RESTC_CONTEXT_TYPE"
  | format => "RESTC_FORMAT"
  | plugin => "RESTC_PLUGIN"
  | shell => "RESTC_SHELL"
  | output => "RESTC_OUTPUT"

end Setting

inductive Source where
  | default
  | userFile (path : Path)
  | projectFile (path : Path)
  | environment (name : String)
  | commandLine (flag : String)
  deriving DecidableEq, Repr

def Source.display : Source → String
  | default => "default"
  | userFile path => "user config (" ++ path.text ++ ")"
  | projectFile path => "project config (" ++ path.text ++ ")"
  | environment name => "env var (" ++ name ++ ")"
  | commandLine name => "CLI flag (" ++ name ++ ")"

abbrev Provenance := Table Source

end EndpointAtlas
