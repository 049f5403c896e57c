import EndpointAtlas.Glob.Pattern
import EndpointAtlas.Ident
import EndpointAtlas.Tree

/-!
Why an analysis, a configuration or a command fails, and what is said about it.
-/

namespace EndpointAtlas

inductive PluginFault where
  | notOnPath (program : String)
  | couldNotStart (cause : TreeFault)
  | exitStatus (status : Nat)
  | killed
  deriving DecidableEq, Repr

def PluginFault.message : PluginFault → String
  | notOnPath program => "`" ++ program ++ "` was not found on PATH"
  | couldNotStart cause => "could not start: " ++ cause.message
  | exitStatus status => "exited with status " ++ toString status
  | killed => "terminated by a signal"

/-- Whose configuration file is meant. -/
inductive ConfigOwner where
  | user
  | project
  deriving DecidableEq, Repr

def ConfigOwner.name : ConfigOwner → String
  | user => "user"
  | project => "project"

inductive ConfigFault where
  | unreadable (owner : ConfigOwner) (path : Path)
  | invalidFile (owner : ConfigOwner) (path : Path)
  | invalidContextType (text : String)
  | unknownFormat (text : String)
  | noPlugin
  | invalidPath (path : Path)
  deriving DecidableEq, Repr

def unknownFormatMessage (text : String) : String :=
  "unknown output format: " ++ text ++ " (expected json or text)"

def ConfigFault.message : ConfigFault → String
  | unreadable owner path => "Could not read " ++ owner.name ++ " config: " ++ path.text
  | invalidFile owner path => "Invalid " ++ owner.name ++ " config " ++ path.text
  | invalidContextType text => "invalid context type: " ++ Ident.parseFailure text
  | unknownFormat text => unknownFormatMessage text
  | noPlugin => "no generator plugin configured; pass --plugin or set `generate.plugin`"
  | invalidPath path => "Invalid path: " ++ path.text

inductive Failure where
  | noFiles (path : Path)
  | moduleNotFound (path : Path)
  | syntaxError (file : Path)
  | unsupportedType (expr package : String)
  | unknownImport (aliasName package : String)
  | externalType (ident : Ident)
  | typeNotFound (ident : Ident)
  | invalidEmbedding (contract embedded : Ident)
  | malformedResource (func argument : String)
  | orphanResource (func receiver package : String)
  | unknownParam (func name : String)
  | duplicateController (name first second : String)
  | plugin (name : String) (fault : PluginFault)
  | config (fault : ConfigFault)
  | io (fault : TreeFault)
  | walk (path : Path) (fault : TreeFault)
  | glob (pattern : String) (fault : Glob.Fault)
  deriving DecidableEq, Repr

namespace Failure

def message : Failure → String
  | noFiles path => "No Go source files found in " ++ path.text
  | moduleNotFound path =>
      "Could not determine module path: no `module` line in " ++ path.text
  | syntaxError file => "Parse error in " ++ file.text ++ ": syntax error"
  | unsupportedType expr package =>
      "Unsupported type expression `" ++ expr ++ "` in package " ++ package
  | unknownImport aliasName package =>
      "Unknown import alias `" ++ aliasName ++ "` in package " ++ package
  | externalType ident =>
      "Type `" ++ ident.display ++ "` is declared outside the project module"
  | typeNotFound ident => "Type `" ++ ident.display ++ "` not found"
  | invalidEmbedding contract embedded =>
      "Contract `" ++ contract.display ++ "` embeds `" ++ embedded.display ++
        "`, which is not a project interface"
  | malformedResource func argument =>
      "Malformed @Resource annotation on " ++ func ++ ": `" ++ argument ++
        "` (expected `<METHOD> <path>`)"
  | orphanResource func receiver package =>
      "Resource " ++ func ++ " has no matching controller `" ++ receiver ++ "` in package " ++
        package
  | unknownParam func name =>
      "@Param annotation on " ++ func ++ " names unknown parameter `" ++ name ++ "`"
  | duplicateController name first second =>
      "Controller `" ++ name ++ "` declared twice: in " ++ first ++ " and " ++ second
  | plugin name fault => "Generator plugin `" ++ name ++ "` failed: " ++ fault.message
  | config fault => "Configuration error: " ++ fault.message
  | io fault => fault.message
  | walk path fault => "IO error for operation on " ++ path.text ++ ": " ++ fault.message
  | glob pattern fault => "error parsing glob '" ++ pattern ++ "': " ++ fault.message

/-- The stable code of a kind of failure. -/
def code : Failure → String
  | noFiles _ => "restc::no_files"
  | moduleNotFound _ => "restc::module_not_found"
  | syntaxError _ => "restc::parse_error"
  | unsupportedType _ _ => "restc::unsupported_type"
  | unknownImport _ _ => "restc::unknown_import"
  | externalType _ => "restc::external_type"
  | typeNotFound _ => "restc::type_not_found"
  | invalidEmbedding _ _ => "restc::invalid_embedding"
  | malformedResource _ _ => "restc::malformed_resource"
  | orphanResource _ _ _ => "restc::orphan_resource"
  | unknownParam _ _ => "restc::unknown_param"
  | duplicateController _ _ _ => "restc::duplicate_controller"
  | plugin _ _ => "restc::plugin"
  | config _ => "restc::config"
  | io _ => "restc::io"
  | walk _ _ => "restc::walk"
  | glob _ _ => "restc::glob"

def help? : Failure → Option String
  | moduleNotFound _ => some "pass --module or set `analysis.module` in .restc.toml"
  | unsupportedType _ _ =>
      some "only bare names and package-qualified names can be resolved"
  | _ => none

end Failure

end EndpointAtlas
