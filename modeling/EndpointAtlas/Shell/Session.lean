import EndpointAtlas.Shell.Script
import EndpointAtlas.Table
import EndpointAtlas.Text.Blank
import EndpointAtlas.Tree

/-!
What a running script sees and changes: files, variables, what it reads and what it writes.
-/

namespace EndpointAtlas.Shell

open Text

structure Session where
  tree : Tree
  working : Location
  bindings : Table String
  /-- The variables that the programs which are started see. -/
  exported : List String
  name : String
  arguments : List String
  status : Nat
  input : List Glyph
  output : List Glyph
  errors : List Glyph
  /-- Whether the script ends when a command fails. -/
  strict : Bool

inductive Stop where
  | exit (status : Nat)
  | killed
  deriving DecidableEq, Repr

/-- A step of a script, which may end it. Changes made before the end stay. -/
abbrev Step := EStateM Stop Session

/-- Where a channel leads. -/
inductive Sink where
  | toOutput
  | toErrors
  | nowhere
  | toFile (location : Location)
  deriving DecidableEq, Repr

namespace Session

def environment (session : Session) : Table String :=
  .ofList (session.bindings.entries.filter fun entry => session.exported.contains entry.1)

def searchPath (session : Session) : String := (session.bindings.get? "PATH").getD ""

def value? (session : Session) : Param → Option String
  | .variable "PWD" => some (Tree.pathOf session.working).text
  | .variable name => session.bindings.get? name
  | .argument 0 => some session.name
  | .argument (index + 1) => session.arguments[index]?
  | .arguments =>
      if session.arguments.isEmpty then none else some (String.intercalate " " session.arguments)
  | .count => some (toString session.arguments.length)
  | .status => some (toString session.status)
  | .process => some "2"

def deliver (sink : Sink) (written : List Glyph) (session : Session) : Session :=
  match sink with
  | .toOutput => { session with output := session.output ++ written }
  | .toErrors => { session with errors := session.errors ++ written }
  | .nowhere => session
  | .toFile location =>
      match session.tree.node? location with
      | some (.file content executable) =>
          { session with tree := session.tree.put location (.file (content ++ written) executable) }
      | _ => session

end Session

namespace Step

def write (text : String) : Step Unit :=
  modify fun session => { session with output := session.output ++ Glyph.ofString text }

def complain (text : String) : Step Unit :=
  modify fun session => { session with errors := session.errors ++ Glyph.ofString (text ++ "\n") }

def readAll : Step (List Glyph) :=
  modifyGet fun session => (session.input, { session with input := [] })

def outcome (step : Step α) (session : Session) : Session × Except Stop α :=
  match step session with
  | .ok value after => (after, .ok value)
  | .error stop after => (after, .error stop)

def ending : Except Stop α → Step α
  | .ok value => pure value
  | .error stop => throw stop

/-- Runs a step whose channels lead elsewhere. -/
def redirected (output errors : Sink) (input : Option (List Glyph)) (step : Step α) : Step α :=
  fun session =>
    let (after, result) := outcome step
      { session with output := [], errors := [], input := input.getD session.input }
    let restored := { after with
      output := session.output
      errors := session.errors
      input := if input.isSome then session.input else after.input }
    ending result ((restored.deliver output after.output).deliver errors after.errors)

/-- The status with which a script ends. A script that is killed ends the one that started it. -/
def statusOf : Except Stop Nat → Except Stop Nat
  | .error (.exit status) => .ok status
  | result => result

/-- Runs a step apart: of its changes, only those to files and what it reads and writes stay. -/
def apart (step : Step Nat) : Step Nat := fun session =>
  let (after, result) := outcome step session
  ending (statusOf result) { session with
    tree := after.tree
    input := after.input
    output := after.output
    errors := after.errors }

/-- What a step writes, without line ends at the end. -/
def captured (step : Step Nat) : Step (List Char) := fun session =>
  let (after, result) := outcome (apart step) { session with output := [] }
  let written := after.output.filterMap Glyph.char?
  let kept := dropEndWhile (· == '\n') written
  match result with
  | .ok status => .ok kept { after with output := session.output, status }
  | .error stop => .error stop { after with output := session.output }

end Step

end EndpointAtlas.Shell
