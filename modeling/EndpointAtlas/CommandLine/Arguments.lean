import EndpointAtlas.Document.Report

/-!
Arguments of a command: options with two dashes or with one, their values, and what stands for
itself. After two dashes alone nothing is an option any more.
-/

namespace EndpointAtlas.CommandLine

/-- Why arguments are refused. Asking for help or for the version is one of the reasons. -/
inductive UsageFault where
  | help
  | version
  | missingCommand
  | unknownArgument
  | unknownCommand
  | invalidValue
  | repeatedOption
  | unneededValue
  deriving DecidableEq, Repr

/-- The status with which the program ends. -/
def UsageFault.exitStatus : UsageFault → Nat
  | help | version => 0
  | _ => 2

inductive OptionKind where
  | help
  | version
  | switch
  | text
  | path
  | format
  deriving DecidableEq, Repr

structure OptionSpec where
  name : String
  letter : Option Char
  kind : OptionKind
  /-- Whether the option may be given more than once. -/
  repeated : Bool
  deriving DecidableEq, Repr

namespace OptionKind

def takesValue : OptionKind → Bool
  | help | version | switch => false
  | _ => true

def accepts (kind : OptionKind) (value : String) : Bool :=
  match kind with
  | path => !value.isEmpty
  | format => value == OutputFormat.json.name || value == OutputFormat.text.name
  | _ => true

end OptionKind

structure Pending where
  option : OptionSpec
  value : Option String

structure Reading where
  given : List (String × String)
  pending : Option Pending
  /-- The arguments that may still stand for themselves. -/
  places : List OptionSpec
  onlyPlaces : Bool

abbrev Read := Except UsageFault

namespace Reading

def enter (reading : Reading) (option : OptionSpec) (value : String) : Read Reading :=
  if !option.repeated && (reading.given.lookup option.name).isSome then .error .repeatedOption
  else if option.kind.accepts value then
    .ok { reading with given := reading.given ++ [(option.name, value)] }
  else .error .invalidValue

def settle (reading : Reading) : Read Reading :=
  match reading.pending with
  | none => .ok reading
  | some ⟨_, none⟩ => .error .invalidValue
  | some ⟨option, some value⟩ => { reading with pending := none }.enter option value

def flag (reading : Reading) (option : OptionSpec) : Read Reading := do
  let reading ← reading.settle
  match option.kind with
  | .help => .error .help
  | .version => .error .version
  | _ => reading.enter option ""

def valued (reading : Reading) (option : OptionSpec) (attached : Option String) :
    Read Reading := do
  let reading ← reading.settle
  match attached with
  | some value => reading.enter option value
  | none => return { reading with pending := some ⟨option, none⟩ }

def place (reading : Reading) (argument : String) : Read Reading :=
  match reading.places with
  | [] => .error .unknownArgument
  | option :: others => do
      let reading ← reading.settle
      return { reading with pending := some ⟨option, some argument⟩, places := others }

def long (options : List OptionSpec) (reading : Reading) (text : List Char) : Read Reading :=
  let name := text.takeWhile (· != '=')
  let attached :=
    if name.length < text.length then some (String.ofList (text.drop (name.length + 1))) else none
  match options.find? (·.name.toList == name) with
  | none => .error .unknownArgument
  | some option =>
      if option.kind.takesValue then reading.valued option attached
      else if attached.isSome then .error .unneededValue
      else reading.flag option

/-- Options by their letters. What follows the letter of an option that takes a value is the value,
without an equals sign before it. -/
def letters (options : List OptionSpec) (reading : Reading) : List Char → Read Reading
  | [] => .ok reading
  | letter :: rest =>
      match options.find? (·.letter == some letter) with
      | none => .error .unknownArgument
      | some option =>
          if option.kind.takesValue then
            let attached := match rest with
              | [] => none
              | '=' :: value => some (String.ofList value)
              | value => some (String.ofList value)
            reading.valued option attached
          else do
            let reading ← reading.flag option
            letters options reading rest

/-- An argument that is no option: the value that is waited for, or one that stands for itself. -/
def plain (reading : Reading) (argument : String) : Read Reading :=
  match reading.pending with
  | some ⟨option, none⟩ => .ok { reading with pending := some ⟨option, some argument⟩ }
  | _ => reading.place argument

def argument (options : List OptionSpec) (reading : Reading) (argument : String) :
    Read Reading :=
  if reading.onlyPlaces then reading.place argument
  else
    match argument.toList with
    | ['-', '-'] => .ok { reading with onlyPlaces := true }
    | '-' :: '-' :: text => reading.long options text
    | '-' :: letter :: rest => reading.letters options (letter :: rest)
    | _ => reading.plain argument

end Reading

def readArguments (options places : List OptionSpec) (arguments : List String) :
    Read (List (String × String)) := do
  let reading ← arguments.foldlM (Reading.argument options) ⟨[], none, places, false⟩
  return (← reading.settle).given

end EndpointAtlas.CommandLine
