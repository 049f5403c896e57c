import EndpointAtlas.Shell.Program
import EndpointAtlas.Shell.Reader

/-!
Running shell scripts. Scripts that start scripts are run down to a fixed depth.
-/

namespace EndpointAtlas.Shell

open Text Step

/-- A part of an expanded word: text that stays together, text that falls apart at white space, or
the arguments of the script, each for itself. -/
inductive Segment where
  | whole (text : List Char)
  | loose (text : List Char)
  | each (texts : List String)

/-- The words that segments make up, and the word that is not ended yet. -/
def joinSegment (state : List (List Char) × Option (List Char)) (segment : Segment) :
    List (List Char) × Option (List Char) :=
  let (ended, current) := state
  match segment with
  | .whole text => (ended, some (current.getD [] ++ text))
  | .loose text =>
      text.foldl (fun (ended, current) c =>
        if isBlank c then (ended ++ current.toList, none)
        else (ended, some (current.getD [] ++ [c]))) (ended, current)
  | .each texts =>
      match texts.map String.toList with
      | [] => (ended, current)
      | first :: rest =>
          match ((current.getD [] ++ first) :: rest).getLast? with
          | some last => (ended ++ ((current.getD [] ++ first) :: rest).dropLast, some last)
          | none => (ended, current)

def fieldsOf (segments : List Segment) : List String :=
  let (ended, current) := segments.foldl joinSegment ([], none)
  (ended ++ current.toList).map String.ofList

/-- How scripts within scripts are run. -/
abbrev Runner := List Char → Step Nat

def expandPiece (run : Runner) : Piece → Step Segment
  | .text value _ => return .whole value
  | .param .arguments [] true => return .each (← get).arguments
  | .param param fallback quoted => do
      let value := ((← get).value? param).getD ""
      let text := if value.isEmpty then fallback else value.toList
      return if quoted then .whole text else .loose text
  | .output script quoted => do
      let text ← captured (run script)
      return if quoted then .whole text else .loose text

def expandWord (run : Runner) (word : Word) : Step (List String) :=
  return fieldsOf (← word.mapM (expandPiece run))

/-- The text of a word that does not fall apart. -/
def expandText (run : Runner) (word : Word) : Step String := do
  let segments ← word.mapM (expandPiece run)
  return String.ofList (segments.flatMap fun
    | .whole text | .loose text => text
    | .each texts => (String.intercalate " " texts).toList)

structure Channels where
  output : Sink
  errors : Sink
  input : Option (List Glyph)

def openFile (keeping : Bool) (path : String) : Step (Option Sink) := do
  if path == "/dev/null" then return some .nowhere
  if path == "/dev/stdout" then return some .toOutput
  if path == "/dev/stderr" then return some .toErrors
  let session ← get
  let content := match session.tree.content session.working ⟨path⟩ with
    | .ok content => content
    | .error _ => []
  match session.tree.write session.working ⟨path⟩ (if keeping then content else []) with
  | .error fault =>
      complain ("cannot create " ++ path ++ ": " ++ fault.message)
      return none
  | .ok tree =>
      set { session with tree }
      match tree.locate session.working ⟨path⟩ with
      | .ok location => return some (.toFile location)
      | .error _ => return none

/-- The channels after one redirection; none if it fails. -/
def redirectTo (run : Runner) (channels : Channels) (redirect : Redirect) :
    Step (Option Channels) := do
  let target ← expandText run redirect.target
  match redirect.kind with
  | .read =>
      let content ← contentAt target
      return content.map fun content => { channels with input := some content }
  | .duplicate =>
      let sink := if target == "1" then channels.output else channels.errors
      return some (if redirect.channel == 1 then { channels with output := sink }
        else if redirect.channel == 2 then { channels with errors := sink } else channels)
  | kind =>
      let sink ← openFile (kind == .extend) target
      return sink.map fun sink =>
        if redirect.channel == 1 then { channels with output := sink }
        else if redirect.channel == 2 then { channels with errors := sink } else channels

def channelsOf (run : Runner) : Channels → List Redirect → Step (Option Channels)
  | channels, [] => return some channels
  | channels, redirect :: rest => do
      match ← redirectTo run channels redirect with
      | some channels => channelsOf run channels rest
      | none => return none

/-- Runs a step with redirections. It does not run if one of them fails. -/
def withRedirects (run : Runner) (redirects : List Redirect) (step : Step Nat) : Step Nat := do
  if redirects.isEmpty then step
  else
    match ← channelsOf run ⟨.toOutput, .toErrors, none⟩ redirects with
    | some channels => redirected channels.output channels.errors channels.input step
    | none => return 2

def runScript (run : Runner) (script : List Char) (name : String) (arguments : List String)
    (strict : Bool) : Step Nat :=
  apart do
    modify fun session => { session with
      bindings := session.environment
      exported := session.environment.keys
      name
      arguments
      status := 0
      strict }
    run script

def runShell (run : Runner) : List String → Step Nat
  | "-c" :: script :: name :: arguments => runScript run script.toList name arguments false
  | ["-c", script] => runScript run script.toList "sh" [] false
  | ["-c"] => return 2
  | "-e" :: "-c" :: script :: arguments => runScript run script.toList "sh" arguments.tail true
  | path :: arguments => do
      match ← contentAt path with
      | some content => runScript run (content.filterMap Glyph.char?) path arguments false
      | none => return 2
  | [] => do
      let script ← readAll
      runScript run (script.filterMap Glyph.char?) "sh" [] false

/-- Runs a file as a program; none if no program can run it. -/
def runFile (run : Runner) (path : String) (content : List Glyph) (arguments : List String) :
    Option (Step Nat) :=
  match interpreter? content with
  | none => none
  | some [] => none
  | some (shell :: options) =>
      if isShellPath shell then
        some (runScript run (content.filterMap Glyph.char?) path arguments (options.contains "-e"))
      else
        match (Path.fileName? ⟨shell⟩).bind fun name => programs.lookup name with
        | some utility => some (utility (options ++ path :: arguments))
        | none => none

/-- Starts a program with arguments; none if it is a file that no program can run. -/
def startProgram? (run : Runner) (arguments : List String) : Program → Option (Step Nat)
  | .utility utility => some (utility arguments)
  | .shell => some (runShell run arguments)
  | .file path content => runFile run path content arguments

/-- Runs a program that a script names. A file without a first line for it is run as a script. -/
def runProgram (run : Runner) (name : String) (arguments : List String) : Step Nat := do
  let session ← get
  match findProgram session.tree session.working session.searchPath name with
  | .ok (.utility utility) => apart (utility arguments)
  | .ok .shell => runShell run arguments
  | .ok (.file path content) =>
      (runFile run path content arguments).getD
        (runScript run (content.filterMap Glyph.char?) path arguments false)
  | .error .accessDenied =>
      complain ("sh: 1: " ++ name ++ ": Permission denied")
      return 126
  | .error _ =>
      complain ("sh: 1: " ++ name ++ ": not found")
      return 127

def runWords (run : Runner) : List String → Step Nat
  | [] => return 0
  | ["eval"] => return 0
  | "eval" :: words => run (String.intercalate " " words).toList
  | "command" :: words | "exec" :: words =>
      match words with
      | [] => return 0
      | name :: arguments => runProgram run name arguments
  | name :: arguments =>
      match builtins.lookup name with
      | some utility => utility arguments
      | none => runProgram run name arguments

def assign (run : Runner) (assignment : String × Word) : Step Unit := do
  setVariable assignment.1 (← expandText run assignment.2)

def withVariables (run : Runner) (assignments : List (String × Word)) (step : Step Nat) :
    Step Nat := do
  if assignments.isEmpty then step
  else
    let before ← get
    assignments.forM (assign run)
    modify fun session => { session with
      exported := assignments.map Prod.fst ++ session.exported }
    let status ← step
    modify fun session => { session with
      bindings := before.bindings
      exported := before.exported }
    return status

def runSimple (run : Runner) (assignments : List (String × Word)) (words : List Word)
    (redirects : List Redirect) : Step Nat := do
  let fields := (← words.mapM (expandWord run)).flatten
  if fields.isEmpty then
    assignments.forM (assign run)
    let last := (← get).status
    let status := if words.isEmpty then 0 else last
    withRedirects run redirects (return status)
  else
    let status ← withRedirects run redirects (withVariables run assignments (runWords run fields))
    if fields.head? == some "exec" && fields.length > 1 then throw (.exit status)
    return status

/-- Keeps the status of a command. A strict script ends when a command fails that is not a
condition. -/
def settle (checked : Bool) (status : Nat) : Step Nat := do
  modify fun session => { session with status }
  if status != 0 && !checked && (← get).strict then throw (.exit status)
  return status

/-- Runs a command and returns its status. Commands whose status is looked at do not end a strict
script. -/
def runCommand (run : Runner) (checked : Bool) : Command → Step Nat
  | .nothing => return 0
  | .simple assignments words redirects => do
      settle checked (← runSimple run assignments words redirects)
  | .group true body redirects => do
      settle checked (← withRedirects run redirects (apart (runCommand run checked body)))
  | .group false body redirects => withRedirects run redirects (runCommand run checked body)
  | .pipe first second => do
      let session ← get
      let (after, result) := outcome (apart (runCommand run checked first))
        { session with output := [] }
      match result with
      | .error stop => throw stop
      | .ok _ =>
          set { session with tree := after.tree, input := after.output, errors := after.errors }
          let status ← apart (runCommand run checked second)
          modify fun last => { last with input := after.input }
          settle checked status
  | .negation body => do
      let status ← runCommand run true body
      settle true (if status == 0 then 1 else 0)
  | .both first second => do
      if (← runCommand run true first) == 0 then runCommand run checked second
      else return (← get).status
  | .either first second => do
      if (← runCommand run true first) == 0 then return 0 else runCommand run checked second
  | .sequence first .nothing => runCommand run checked first
  | .sequence first second => do
      discard (runCommand run checked first)
      runCommand run checked second
  | .conditional test positive negative => do
      if (← runCommand run true test) == 0 then runCommand run checked positive
      else runCommand run checked negative
  | .loop name words body => do
      let fields := (← words.mapM (expandWord run)).flatten
      let statuses ← fields.mapM fun field => do
        setVariable name field
        runCommand run checked body
      return statuses.getLast?.getD 0

/-- Runs the text of a script. A script that is not written well has the status two. -/
def runText : Nat → Runner
  | 0, _ => throw (.exit 126)
  | depth + 1, script =>
      match read? script with
      | some command => runCommand (runText depth) false command
      | none => throw (.exit 2)

def scriptDepth : Nat := 64

end EndpointAtlas.Shell
