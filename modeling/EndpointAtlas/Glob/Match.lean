import EndpointAtlas.Glob.Pattern

/-!
Which texts a glob pattern matches. A pattern is matched against the bytes of a whole text. What a
token can take off the front of a text is given by what it can leave.
-/

namespace EndpointAtlas.Glob

def bytesOf (text : List Char) : List UInt8 := (String.ofList text).toByteArray.toList

def slash : UInt8 := 47

/-- The ranges of bytes that a range of characters stands for: the bytes of both ends, of which the
last of the low end and the first of the high end bound a range. -/
def byteRanges (range : Char × Char) : List (UInt8 × UInt8) :=
  let low := bytesOf [range.1]
  let high := bytesOf [range.2]
  let single (byte : UInt8) : UInt8 × UInt8 := (byte, byte)
  if range.1 = range.2 then low.map single
  else
    low.dropLast.map single ++
      (match low.getLast?, high.head? with
        | some first, some last => [(first, last)]
        | _, _ => []) ++
      high.tail.map single

def inSet (ranges : List (Char × Char)) (byte : UInt8) : Bool :=
  (ranges.flatMap byteRanges).any fun (low, high) => low ≤ byte && byte ≤ high

def ends : List UInt8 → List (List UInt8)
  | [] => [[]]
  | byte :: rest => (byte :: rest) :: ends rest

def afterSlashes : List UInt8 → List (List UInt8)
  | [] => []
  | byte :: rest => if byte = slash then rest :: afterSlashes rest else afterSlashes rest

mutual

/-- Whether a token takes nothing wherever it stands and counts as absent in a group. -/
def isVoid : Token → Bool
  | .group branches => areVoid branches
  | _ => false

def allVoid : List Token → Bool
  | [] => true
  | token :: rest => isVoid token && allVoid rest

def areVoid : List (List Token) → Bool
  | [] => true
  | branch :: rest => allVoid branch && areVoid rest

end

mutual

/-- What one token can leave of a text. -/
def leaves : Token → List UInt8 → List (List UInt8)
  | .literal char, text => ((bytesOf [char]).isPrefixOf? text).toList
  | .one, text => text.tail?.toList
  | .many, text => ends text
  | .leading, text => (text :: afterSlashes text)
  | .inside, text =>
      match text with
      | byte :: rest => if byte = slash then ends rest else []
      | [] => []
  | .between, text =>
      match text with
      | byte :: rest => if byte = slash then rest :: afterSlashes rest else []
      | [] => []
  | .set negated ranges, text =>
      match text with
      | byte :: rest => if inSet ranges byte != negated then [rest] else []
      | [] => []
  | .group branches, text =>
      if areVoid branches then [text] else leavesAny branches text

/-- What successive tokens can leave of some texts. -/
def leavesAll : List Token → List (List UInt8) → List (List UInt8)
  | [], texts => texts
  | token :: rest, texts => leavesAll rest (texts.flatMap (leaves token)).eraseDups

/-- What one of some branches can leave of a text. A branch that is void does not count. -/
def leavesAny : List (List Token) → List UInt8 → List (List UInt8)
  | [], _ => []
  | branch :: rest, text =>
      (if allVoid branch then [] else leavesAll branch [text]) ++ leavesAny rest text

end

def isMatch (pattern : List Token) (text : String) : Bool :=
  match pattern with
  | [.leading] => true
  | _ => (leavesAll pattern [bytesOf text.toList]).contains []

end EndpointAtlas.Glob
