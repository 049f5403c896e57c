import EndpointAtlas.Archive
import EndpointAtlas.CommandLine.Run

/-!
The program. The files of the project are read from standard input as an archive; what a command
writes goes to standard output, and the files it changes follow there as an archive. Warnings and
failures go to standard error.
-/

namespace EndpointAtlas.Program

open CommandLine

/-- What is shown to who asks for help. -/
def usageText : String :=
  "restc analyze|generate [PATH] [--module M] [--include GLOB] [--exclude GLOB] [--include-tests]\n" ++
    "restc config show|paths [--path DIR]"

def usageMessage : UsageFault → String
  | .help | .missingCommand => usageText
  | .version => "restc"
  | .unknownArgument => "unexpected argument"
  | .unknownCommand => "unrecognized subcommand"
  | .invalidValue => "invalid or missing value"
  | .repeatedOption => "option given more than once"
  | .unneededValue => "option takes no value"

def variableNames : List String :=
  ["HOME", "XDG_CONFIG_HOME", "PATH"] ++ Setting.all.map Setting.variableName

def readEnvironment : IO Environment := do
  let found ← variableNames.filterMapM fun name => do
    return (← IO.getEnv name).map fun value => (name, value)
  return .ofList found

def readInput : IO String := do
  let input ← IO.getStdin
  let mut text := ""
  repeat
    let line ← input.getLine
    if line.isEmpty then break
    text := text ++ line
  return text

def warningText (warning : Warning) : String :=
  String.intercalate " " (warning.message ::
    warning.details.map fun (name, value) => name ++ "=" ++ value)

end EndpointAtlas.Program

open EndpointAtlas EndpointAtlas.CommandLine EndpointAtlas.Program in
def main (arguments : List String) : IO UInt32 := do
  match Command.ofArguments arguments with
  | .error fault =>
      IO.eprintln (usageMessage fault)
      return fault.exitStatus.toUInt32
  | .ok command =>
      let tree := Archive.read (← readInput)
      let host : Host := ⟨⟨tree, []⟩, ← readEnvironment⟩
      let (effects, result) := host.run command
      IO.print (Text.Glyph.text effects.output)
      IO.print (Archive.write (Archive.changes tree effects.tree))
      effects.warnings.forM fun warning => IO.eprintln (warningText warning)
      match result with
      | .ok _ => return 0
      | .error failure =>
          IO.eprintln failure.message
          return 1
