import EndpointAtlas.Shell.Session
import EndpointAtlas.Shell.Lexer

/-!
The commands that scripts find ready: those of the shell itself, and the programs that every system
has.
-/

namespace EndpointAtlas.Shell

open Text Step

/-- A command on its arguments. It returns its status. -/
abbrev Utility := List String → Step Nat

/-- Does one thing after the other; the status is zero if all of them have the status zero. -/
def allOf (steps : List (Step Nat)) : Step Nat := do
  let statuses ← steps.mapM id
  return if statuses.all (· == 0) then 0 else 1

def escapedChar? : Char → Option Char
  | 'a' => some '\x07'
  | 'b' => some '\x08'
  | 'f' => some '\x0c'
  | 'n' => some '\n'
  | 'r' => some '\r'
  | 't' => some '\t'
  | 'v' => some '\x0b'
  | '\\' => some '\\'
  | _ => none

def unescape : List Char → List Char
  | '\\' :: c :: rest =>
      match escapedChar? c with
      | some plain => plain :: unescape rest
      | none => '\\' :: c :: unescape rest
  | c :: rest => c :: unescape rest
  | [] => []

def echo : Utility
  | "-n" :: words => do
      write (String.ofList (unescape (String.intercalate " " words).toList))
      return 0
  | words => do
      write (String.ofList (unescape (String.intercalate " " words).toList) ++ "\n")
      return 0

/-- A pattern filled with words, and the words that are left. -/
def fillPattern : List Char → List String → List Char × List String
  | '%' :: '%' :: rest, words =>
      let (filled, left) := fillPattern rest words
      ('%' :: filled, left)
  | '%' :: kind :: rest, words =>
      let word := words.head?.getD (if kind == 'd' then "0" else "")
      let shown := if kind == 'b' then unescape word.toList else word.toList
      let (filled, left) := fillPattern rest words.tail
      (shown ++ filled, left)
  | c :: rest, words =>
      let (filled, left) := fillPattern rest words
      (c :: filled, left)
  | [], words => ([], words)

/-- A pattern filled again and again until no words are left. -/
def fillAll (pattern : List Char) : Nat → List String → List Char
  | 0, _ => []
  | bound + 1, words =>
      let (filled, left) := fillPattern pattern words
      if left.isEmpty || left.length == words.length then filled
      else filled ++ fillAll pattern bound left

def printf : Utility
  | [] => return 2
  | pattern :: words => do
      write (String.ofList (fillAll (unescape pattern.toList) (words.length + 1) words))
      return 0

def contentAt (path : String) : Step (Option (List Glyph)) := do
  let session ← get
  if path == "/dev/stdin" || path == "-" then some <$> readAll
  else if path == "/dev/null" then return some []
  else
    match session.tree.content session.working ⟨path⟩ with
    | .ok content => return some content
    | .error fault =>
        complain (path ++ ": " ++ fault.message)
        return none

def forContents (paths : List String) (show? : String → List Glyph → Step Unit) : Step Nat :=
  allOf ((if paths.isEmpty then ["-"] else paths).map fun path => do
    match ← contentAt path with
    | some content =>
        show? path content
        return 0
    | none => return 1)

def writeGlyphs (glyphs : List Glyph) : Step Unit :=
  modify fun session => { session with output := session.output ++ glyphs }

def isOption (word : String) : Bool := word.startsWith "-" && word != "-"

def cat : Utility := fun words =>
  forContents (words.filter (!isOption ·)) fun _ content => writeGlyphs content

def glyphSize : Glyph → Nat
  | .char c => c.utf8Size
  | .stray _ => 1

def isLineEnd (glyph : Glyph) : Bool := glyph == .char '\n'

def wordCount (content : List Glyph) : Nat :=
  ((content.splitOnP (Glyph.satisfies isBlank)).filter (!·.isEmpty)).length

/-- The counts that the options ask for: lines, words and bytes, if nothing is asked for. -/
def counts (options : List Char) (content : List Glyph) : List Nat :=
  let asked (option : Char) : Bool := options.isEmpty || options.contains option
  (if asked 'l' then [content.countP isLineEnd] else []) ++
    (if asked 'w' then [wordCount content] else []) ++
    (if asked 'c' then [content.foldl (fun total glyph => total + glyphSize glyph) 0] else [])

def wc : Utility := fun words => do
  let options := (words.filter isOption).flatMap fun word => word.toList.drop 1
  forContents (words.filter (!isOption ·)) fun path content => do
    let numbers := (counts options content).map toString
    let padded := if numbers.length == 1 then numbers else
      numbers.map fun number => String.ofList (List.replicate (7 - number.length) ' ') ++ number
    write (String.intercalate " " padded ++ (if path == "-" then "" else " " ++ path) ++ "\n")

def takeLines : Nat → List Glyph → List Glyph
  | _, [] => []
  | 0, _ => []
  | count + 1, glyph :: rest =>
      glyph :: if isLineEnd glyph then takeLines count rest else takeLines (count + 1) rest

def takeBytes : Nat → List Glyph → List Glyph
  | _, [] => []
  | count, glyph :: rest =>
      if glyphSize glyph ≤ count then glyph :: takeBytes (count - glyphSize glyph) rest else []

def wordNumber (word : String) : Nat := naturalOf (word.toList.filter Char.isDigit)

def head : Utility
  | "-c" :: count :: paths =>
      forContents paths fun _ content => writeGlyphs (takeBytes (wordNumber count) content)
  | "-n" :: count :: paths =>
      forContents paths fun _ content => writeGlyphs (takeLines (wordNumber count) content)
  | words =>
      let options := words.filter isOption
      let paths := words.filter (!isOption ·)
      match options with
      | option :: _ =>
          let count := wordNumber option
          if option.startsWith "-c" then
            forContents paths fun _ content => writeGlyphs (takeBytes count content)
          else forContents paths fun _ content => writeGlyphs (takeLines count content)
      | [] => forContents paths fun _ content => writeGlyphs (takeLines 10 content)

def occursIn (part : List Char) : List Char → Bool
  | [] => part.isEmpty
  | c :: rest => part.isPrefixOf (c :: rest) || occursIn part rest

def grep : Utility := fun words => do
  let options := (words.filter isOption).flatMap fun word => word.toList.drop 1
  match words.filter (!isOption ·) with
  | [] => return 2
  | pattern :: paths =>
      let contents ← (if paths.isEmpty then ["-"] else paths).mapM contentAt
      let lines := contents.flatMap fun content =>
        Text.lines ((content.getD []).filterMap Glyph.char?)
      let found := lines.filter fun line => occursIn pattern.toList line != options.contains 'v'
      if options.contains 'c' then write (toString found.length ++ "\n")
      else unless options.contains 'q' do
        found.forM fun line => write (String.ofList line ++ "\n")
      return if found.isEmpty then 1 else 0

def changeTree (name : String) (change : Session → Except TreeFault Tree) : Step Nat := do
  match change (← get) with
  | .ok tree =>
      modify fun session => { session with tree }
      return 0
  | .error fault =>
      complain (name ++ ": " ++ fault.message)
      return 1

/-- A new directory. With parents, those that are missing are made too, and it may be there. -/
def makeDirectory (parents : Bool) (path : String) (session : Session) :
    Except TreeFault Tree := do
  let trimmed := String.ofList (dropEndWhile (· == '/') path.toList)
  if parents then
    let names := Path.normalParts ⟨path⟩
    let location := if Path.isAbsolute ⟨path⟩ then names else session.working ++ names
    let blocked := (List.range (location.length + 1)).any fun count =>
      match session.tree.node? (location.take count) with
      | some (.file _ _) => true
      | _ => false
    if blocked then .error .notDirectory else return session.tree.ensureDirectories location
  else
    let location ← session.tree.locate session.working ⟨if trimmed.isEmpty then path else trimmed⟩
    if (session.tree.node? location).isSome then .error .alreadyExists
    else if session.tree.node? location.dropLast = some .directory then
      return session.tree.ensureDirectory location
    else .error .notFound

def mkdir : Utility := fun words =>
  let parents := (words.filter isOption).any fun word => word.toList.contains 'p'
  allOf ((words.filter (!isOption ·)).map fun path =>
    changeTree "mkdir" (makeDirectory parents path))

def removeAt (options : List Char) (path : String) (session : Session) : Except TreeFault Tree :=
  match session.tree.find session.working ⟨path⟩ with
  | .error fault => if options.contains 'f' then .ok session.tree else .error fault
  | .ok location =>
      if session.tree.node? location = some .directory && !options.contains 'r' then
        .error .isDirectory
      else .ok (session.tree.remove location)

def rm : Utility := fun words =>
  let options := (words.filter isOption).flatMap fun word => word.toList.drop 1
  allOf ((words.filter (!isOption ·)).map fun path => changeTree "rm" (removeAt options path))

def touchAt (path : String) (session : Session) : Except TreeFault Tree := do
  let location ← session.tree.locate session.working ⟨path⟩
  if (session.tree.node? location).isSome then return session.tree
  else session.tree.write session.working ⟨path⟩ []

def touch : Utility := fun words =>
  allOf ((words.filter (!isOption ·)).map fun path => changeTree "touch" (touchAt path))

def copyFile (source target : String) (session : Session) : Except TreeFault Tree := do
  let content ← session.tree.content session.working ⟨source⟩
  let isDirectory : Bool := match session.tree.find session.working ⟨target⟩ with
    | .ok location => session.tree.node? location == some .directory
    | .error _ => false
  let path : Path :=
    if isDirectory then Path.join ⟨target⟩ ⟨(Path.fileName? ⟨source⟩).getD ""⟩ else ⟨target⟩
  session.tree.write session.working path content

def cp : Utility := fun words =>
  match words.filter (!isOption ·) with
  | [source, target] => changeTree "cp" (copyFile source target)
  | _ => return 1

def mv : Utility := fun words =>
  match words.filter (!isOption ·) with
  | [source, target] =>
      changeTree "mv" fun session => do
        let tree ← copyFile source target session
        let location ← tree.find session.working ⟨source⟩
        return tree.remove location
  | _ => return 1

def tee : Utility := fun words => do
  let content ← readAll
  writeGlyphs content
  allOf ((words.filter (!isOption ·)).map fun path =>
    changeTree "tee" fun session => session.tree.write session.working ⟨path⟩ content)

def ls : Utility := fun words => do
  let paths := words.filter (!isOption ·)
  allOf ((if paths.isEmpty then ["."] else paths).map fun path => do
    let session ← get
    match session.tree.find session.working ⟨path⟩ with
    | .ok location =>
        if session.tree.node? location = some .directory then
          ((session.tree.namesIn location).filter (!·.startsWith ".")).forM fun name =>
            write (name ++ "\n")
        else write (path ++ "\n")
        return 0
    | .error fault =>
        complain ("ls: " ++ fault.message)
        return 2)

def dirname : Utility := fun words => do
  let path : Path := ⟨words.head?.getD ""⟩
  let directory := (path.parent?.map (·.text)).getD "."
  write ((if directory.isEmpty then "." else directory) ++ "\n")
  return 0

def basename : Utility
  | [] => return 1
  | path :: endings => do
      let name := ((Path.fileName? ⟨path⟩).getD path).toList
      let kept := match endings with
        | ending :: _ => (beforeEnd? ending.toList name).getD name
        | [] => name
      write (String.ofList kept ++ "\n")
      return 0

def printenv : Utility
  | [] => do
      (← get).environment.entries.forM fun (name, value) => write (name ++ "=" ++ value ++ "\n")
      return 0
  | name :: _ => do
      match (← get).environment.get? name with
      | some value =>
          write (value ++ "\n")
          return 0
      | none => return 1

def succeed : Utility := fun _ => return 0

def fail : Utility := fun _ => return 1

def programs : List (String × Utility) :=
  [("cat", cat), ("wc", wc), ("head", head), ("grep", grep), ("mkdir", mkdir), ("rm", rm),
    ("touch", touch), ("cp", cp), ("mv", mv), ("tee", tee), ("ls", ls), ("dirname", dirname),
    ("basename", basename), ("printenv", printenv), ("sleep", succeed), ("sync", succeed),
    ("chmod", succeed), ("echo", echo), ("printf", printf), ("true", succeed), ("false", fail)]

def pwd : Utility := fun _ => do
  write ((Tree.pathOf (← get).working).text ++ "\n")
  return 0

def cd : Utility := fun words => do
  let session ← get
  let target := words.head?.getD ((session.bindings.get? "HOME").getD "")
  match session.tree.find session.working ⟨target⟩ with
  | .ok location =>
      if session.tree.node? location = some .directory then
        set { session with working := location }
        return 0
      else return 2
  | .error _ => return 2

def wholeNumber? (word : String) : Option Int :=
  match word.toList with
  | '-' :: digits =>
      if !digits.isEmpty && digits.all Char.isDigit then some (-(naturalOf digits : Int)) else none
  | digits =>
      if !digits.isEmpty && digits.all Char.isDigit then some (naturalOf digits) else none

def compareNumbers (first second : String) (holds : Int → Int → Bool) : Option Bool := do
  return holds (← wholeNumber? first) (← wholeNumber? second)

def fileTest (session : Session) (path : String) (holds : Node → Bool) : Bool :=
  match session.tree.find session.working ⟨path⟩ with
  | .ok location => ((session.tree.node? location).map holds).getD false
  | .error _ => false

/-- Whether a condition holds; none if it is not written well. -/
def condition? (session : Session) : List String → Option Bool
  | [] => some false
  | [word] => some !word.isEmpty
  | "!" :: rest => (condition? session rest).map not
  | ["-n", word] => some !word.isEmpty
  | ["-z", word] => some word.isEmpty
  | ["-e", path] => some (fileTest session path fun _ => true)
  | ["-d", path] => some (fileTest session path (· == .directory))
  | ["-f", path] => some (fileTest session path (· != .directory))
  | ["-r", path] | ["-w", path] => some (fileTest session path fun _ => true)
  | ["-x", path] => some (fileTest session path fun
      | .directory => true
      | .file _ executable => executable)
  | ["-s", path] => some (fileTest session path fun
      | .directory => true
      | .file content _ => !content.isEmpty)
  | ["-t", _] => some false
  | [first, "=", second] => some (first == second)
  | [first, "!=", second] => some (first != second)
  | [first, "-eq", second] => compareNumbers first second (· == ·)
  | [first, "-ne", second] => compareNumbers first second (· != ·)
  | [first, "-lt", second] => compareNumbers first second (· < ·)
  | [first, "-le", second] => compareNumbers first second (· ≤ ·)
  | [first, "-gt", second] => compareNumbers first second (· > ·)
  | [first, "-ge", second] => compareNumbers first second (· ≥ ·)
  | _ => none

def test : Utility := fun words => do
  match condition? (← get) words with
  | some true => return 0
  | some false => return 1
  | none => return 2

def bracket : Utility := fun words =>
  if words.getLast? == some "]" then test words.dropLast else return 2

def exit : Utility
  | [] => do throw (.exit (← get).status)
  | word :: _ =>
      if !word.isEmpty && word.toList.all Char.isDigit then
        throw (.exit (naturalOf word.toList % 256))
      else throw (.exit 2)

/-- Signals that are asked about and not sent. -/
def isProbe (word : String) : Bool := word == "-0"

/-- Only the process of the script itself can be reached. -/
def kill : Utility := fun words =>
  if words.getLast? == some "2" then
    if words.any isProbe then return 0 else throw .killed
  else return 1

def setVariable (name value : String) : Step Unit :=
  modify fun session => { session with bindings := session.bindings.insert name value }

def exportVariable (word : String) : Step Unit := do
  let name := word.toList.takeWhile (· != '=')
  if name.length < word.length then
    setVariable (String.ofList name) (String.ofList (word.toList.drop (name.length + 1)))
  modify fun session => { session with exported := String.ofList name :: session.exported }

def exportAll : Utility := fun words => do
  words.forM exportVariable
  return 0

def unset : Utility := fun words => do
  modify fun session => { session with
    bindings := .ofList (session.bindings.entries.filter fun entry =>
      !words.contains entry.1) }
  return 0

def setOptions : Utility := fun words => do
  words.forM fun word =>
    if word.startsWith "-" && word.toList.contains 'e' then
      modify fun session => { session with strict := true }
    else if word.startsWith "+" && word.toList.contains 'e' then
      modify fun session => { session with strict := false }
    else pure ()
  return 0

def shift : Utility := fun _ => do
  modify fun session => { session with arguments := session.arguments.tail }
  return 0

def read : Utility := fun words => do
  let session ← get
  let line := session.input.takeWhile (!isLineEnd ·)
  let chars := trim (line.filterMap Glyph.char?)
  set { session with input := session.input.drop (line.length + 1) }
  match (words.filter (!isOption ·)).head? with
  | some name => setVariable name (String.ofList chars)
  | none => pure ()
  return if line.length < session.input.length then 0 else 1

def builtins : List (String × Utility) :=
  [("echo", echo), ("printf", printf), ("true", succeed), ("false", fail), (":", succeed),
    ("pwd", pwd), ("cd", cd), ("test", test), ("[", bracket), ("exit", exit), ("kill", kill),
    ("export", exportAll), ("unset", unset), ("set", setOptions), ("shift", shift), ("read", read),
    ("wait", succeed), ("umask", succeed)]

end EndpointAtlas.Shell
