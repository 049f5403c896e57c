/-!
Glob patterns as written, and the tokens they are read into. A pattern is read from left to right;
groups in braces may nest.
-/

namespace EndpointAtlas.Glob

inductive Token where
  | literal (char : Char)
  /-- A question mark: one byte. -/
  | one
  /-- A star: any bytes. -/
  | many
  /-- Two stars at the start: nothing, or directories. -/
  | leading
  /-- A slash and two stars at the end: what lies below a directory. -/
  | inside
  /-- Two stars between slashes: a slash, or directories between slashes. -/
  | between
  /-- A set of characters, given by ranges. -/
  | set (negated : Bool) (ranges : List (Char × Char))
  | group (branches : List (List Token))
  deriving Repr, Inhabited

inductive Fault where
  | unclosedSet
  | invalidRange (low high : Char)
  | unopenedGroup
  | unclosedGroup
  | danglingEscape
  deriving DecidableEq, Repr

def Fault.message : Fault → String
  | unclosedSet => "unclosed character class; missing ']'"
  | invalidRange low high =>
      "invalid range; '" ++ String.singleton low ++ "' > '" ++ String.singleton high ++ "'"
  | unopenedGroup =>
      "unopened alternate group; missing '\x7b' (maybe escape '\x7d' with '[\x7d]'?)"
  | unclosedGroup =>
      "unclosed alternate group; missing '\x7d' (maybe escape '\x7b' with '[\x7b]'?)"
  | danglingEscape => "dangling '\\'"

/-- The ranges of a set up to its closing bracket, and the text after it. The ranges so far are given
last first; `first` holds before the first character, `opened` after the hyphen of a range. -/
def readSet (first opened : Bool) (ranges : List (Char × Char)) :
    List Char → Except Fault (List (Char × Char) × List Char)
  | [] => .error .unclosedSet
  | c :: rest =>
      if c = ']' && !first then
        .ok ((if opened then ('-', '-') :: ranges else ranges).reverse, rest)
      else if c = '-' && !first && !opened then readSet false true ranges rest
      else if opened then
        match ranges with
        | (low, _) :: others =>
            if c < low then .error (.invalidRange low c)
            else readSet false false ((low, c) :: others) rest
        | [] => readSet false false [(c, c)] rest
      else readSet false false ((c, c) :: ranges) rest

theorem length_read_set {first opened : Bool} {ranges found : List (Char × Char)}
    {text rest : List Char} (read : readSet first opened ranges text = .ok (found, rest)) :
    rest.length < text.length := by
  induction text generalizing first opened ranges with
  | nil => simp [readSet] at read
  | cons c tail ih =>
      unfold readSet at read
      split at read
      · simp only [Except.ok.injEq, Prod.mk.injEq] at read
        simp [← read.2]
      · split at read
        · exact Nat.lt_succ_of_lt (ih read)
        · split at read
          · split at read
            · split at read
              · simp at read
              · exact Nat.lt_succ_of_lt (ih read)
            · exact Nat.lt_succ_of_lt (ih read)
          · exact Nat.lt_succ_of_lt (ih read)

def readBracket (text : List Char) : Except Fault (Token × List Char) :=
  match text with
  | '!' :: rest | '^' :: rest =>
      (readSet true false [] rest).map fun (ranges, after) => (.set true ranges, after)
  | _ => (readSet true false [] text).map fun (ranges, after) => (.set false ranges, after)

theorem length_read_bracket {text rest : List Char} {token : Token}
    (read : readBracket text = .ok (token, rest)) : rest.length < text.length := by
  have mapped : ∀ {negated : Bool} {source : List Char},
      ((readSet true false [] source).map fun (ranges, after) =>
        (Token.set negated ranges, after)) = .ok (token, rest) → rest.length < source.length := by
    intro negated source equal
    cases result : readSet true false [] source with
    | error fault => simp [result, Except.map] at equal
    | ok value =>
        simp only [result, Except.map, Except.ok.injEq, Prod.mk.injEq] at equal
        have := length_read_set result
        rwa [equal.2] at this
  unfold readBracket at read
  split at read
  · exact Nat.lt_succ_of_lt (mapped read)
  · exact Nat.lt_succ_of_lt (mapped read)
  · exact mapped read

/-- A pattern being read: the tokens of the current branch, the finished branches of its group, and
the same for the groups around it. All are given last first. -/
structure Draft where
  branch : List Token
  finished : List (List Token)
  around : List (List Token × List (List Token))

namespace Draft

def inGroup (draft : Draft) : Bool := !draft.around.isEmpty

def push (draft : Draft) (token : Token) : Draft := { draft with branch := token :: draft.branch }

/-- The draft after two stars, and whether they take the slash after them. The character before
them and the one after them are given. -/
def pushStars (draft : Draft) (before next : Option Char) : Draft × Bool :=
  let plain := (draft.push .many).push .many
  let ends : Bool := next.isNone || (draft.inGroup && (next == some ',' || next == some '\x7d'))
  match draft.branch with
  | [] =>
      if next.isNone then (draft.push .leading, false)
      else if next == some '/' then (draft.push .leading, true)
      else (plain, false)
  | last :: others =>
      let counts := before == some '/' ||
        (draft.inGroup && (before == some ',' || before == some '\x7b'))
      if counts && (ends || next == some '/') then
        let replaced : Token :=
          match last with
          | .leading => .leading
          | .inside => .inside
          | _ => if ends then .inside else .between
        ({ draft with branch := replaced :: others }, !ends)
      else (plain, false)

end Draft

/-- Reads the rest of a pattern after the given character. -/
def readFrom (before : Option Char) (draft : Draft) (text : List Char) :
    Except Fault (List Token) :=
  match text with
  | [] => if draft.inGroup then .error .unclosedGroup else .ok draft.branch.reverse
  | '?' :: rest => readFrom (some '?') (draft.push .one) rest
  | '*' :: '*' :: rest =>
      let (pushed, takesSlash) := draft.pushStars before rest.head?
      if takesSlash then readFrom (some '/') pushed rest.tail else readFrom (some '*') pushed rest
  | '*' :: rest => readFrom (some '*') (draft.push .many) rest
  | '[' :: rest =>
      match _read : readBracket rest with
      | .ok (token, after) => readFrom (some ']') (draft.push token) after
      | .error fault => .error fault
  | '\x7b' :: rest =>
      readFrom (some '\x7b') ⟨[], [], (draft.branch, draft.finished) :: draft.around⟩ rest
  | '\x7d' :: rest =>
      match draft.around with
      | [] => .error .unopenedGroup
      | (branch, finished) :: around =>
          let branches := (draft.branch :: draft.finished).reverse.map List.reverse
          readFrom (some '\x7d') ⟨.group branches :: branch, finished, around⟩ rest
  | ',' :: rest =>
      if draft.inGroup then
        readFrom (some ',') { draft with branch := [], finished := draft.branch :: draft.finished }
          rest
      else readFrom (some ',') (draft.push (.literal ',')) rest
  | ['\\'] => .error .danglingEscape
  | '\\' :: c :: rest => readFrom (some c) (draft.push (.literal c)) rest
  | c :: rest => readFrom (some c) (draft.push (.literal c)) rest
termination_by text.length
decreasing_by
  all_goals
    first
    | (simp only [List.length_cons, List.length_tail]; omega)
    | (have shorter := length_read_bracket _read; simp only [List.length_cons]; omega)

def read (pattern : String) : Except Fault (List Token) :=
  readFrom none ⟨[], [], []⟩ pattern.toList

end EndpointAtlas.Glob
