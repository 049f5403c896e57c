import EndpointAtlas.Document.Encode
import EndpointAtlas.Failure
import EndpointAtlas.Shell.Run

/-!
Generators: programs and shell scripts that read a document and write what they make of it.
-/

namespace EndpointAtlas

inductive Generator where
  /-- A program on the search path. -/
  | program (name : String)
  /-- A shell script. -/
  | script (text : String)
  deriving DecidableEq, Repr

namespace Generator

def ofName (name : String) (shell : Bool) : Generator :=
  if shell then .script name else .program name

def name : Generator → String
  | program name => name
  | script text => text

def programName (name : String) : String := "restc-" ++ name

def outputVariable : String := "RESTC_OUTPUT"

/-- The state in which a generator is started, before it reads the document. -/
def session (tree : Tree) (root : Location) (environment : Table String) (document : Document)
    (output : Path) : Shell.Session where
  tree := tree
  working := root
  bindings := environment.insert outputVariable output.text
  exported := (environment.insert outputVariable output.text).keys
  name := "sh"
  arguments := []
  status := 0
  input := Text.Glyph.ofString document.payload
  output := []
  errors := []
  strict := false

def command : Generator → String × List String
  | program name => (programName name, [])
  | script text => ("sh", ["-c", text])

/-- What a generator is said to fail for if its program does not start. -/
def startFault (generator : Generator) (fault : TreeFault) : PluginFault :=
  match generator with
  | program name =>
    if fault = .notFound then .notOnPath (programName name) else .couldNotStart fault
  | script _ => .couldNotStart fault

/-- What the program of a generator does, or why it does not start. -/
def step (generator : Generator) (session : Shell.Session) :
    Except PluginFault (Shell.Step Nat) :=
  let (name, arguments) := generator.command
  match Shell.findProgram session.tree session.working session.searchPath name with
  | .ok found =>
      match Shell.startProgram? (Shell.runText Shell.scriptDepth) arguments found with
      | some step => .ok step
      | none => .error (generator.startFault .notRunnable)
  | .error fault => .error (generator.startFault fault)

def verdict (generator : Generator) : Except Shell.Stop Nat → Except Failure Unit
  | .ok 0 => .ok ()
  | .ok status | .error (.exit status) => .error (.plugin generator.name (.exitStatus status))
  | .error .killed => .error (.plugin generator.name .killed)

/-- The tree and what is written when a generator has run, and whether it failed. -/
def run (generator : Generator) (session : Shell.Session) :
    Tree × List Text.Glyph × Except Failure Unit :=
  match generator.step session with
  | .error fault => (session.tree, [], .error (.plugin generator.name fault))
  | .ok step =>
      let (after, result) := Shell.Step.outcome (Shell.Step.apart step) session
      (after.tree, after.output, generator.verdict result)

end Generator

end EndpointAtlas
