import EndpointAtlas.Text.DecimalDigit
import EndpointAtlas.Text.Glyph
import EndpointAtlas.Text.Letter

/-!
Lexemes of Go source text: blanks, line ends, comments, names, literals and marks. They are cut off
the front of the text one by one, and together they are the text.
-/

namespace EndpointAtlas.Go

open Text

inductive LexemeKind where
  | blank
  | lineEnd
  | comment
  | name
  | number
  | rune
  | text
  | rawText
  | mark
  deriving DecidableEq, Repr

namespace Lexeme

def isNameStart (c : Char) : Bool := isLetter c || c == '_'

def isNamePart (c : Char) : Bool := isLetter c || c == '_' || isDecimalDigit c

def IsName (text : String) : Prop :=
  text.toList ≠ [] ∧ ∀ c ∈ text.toList, isNamePart c = true

end Lexeme

/-- A name is not empty and consists of letters, digits and underscores. -/
structure Lexeme where
  kind : LexemeKind
  glyphs : List Glyph
  nonempty : glyphs ≠ []
  named : kind = .name → ∀ glyph ∈ glyphs, glyph.satisfies Lexeme.isNamePart = true
  deriving Repr

namespace Lexeme

def isHexDigit (c : Char) : Bool :=
  c.isDigit || ('a' ≤ c && c ≤ 'f') || ('A' ≤ c && c ≤ 'F')

def isOctalDigit (c : Char) : Bool := '0' ≤ c && c ≤ '7'

def hexValue (c : Char) : Nat :=
  if c.isDigit then c.toNat - '0'.toNat
  else if 'a' ≤ c then c.toNat - 'a'.toNat + 10
  else c.toNat - 'A'.toNat + 10

def numeral (base : Nat) (digits : List Char) : Nat :=
  digits.foldl (fun value digit => value * base + hexValue digit) 0

def charsWhile (p : Char → Bool) : List Glyph → List Char
  | .char c :: rest => if p c then c :: charsWhile p rest else []
  | _ => []

/-- Digits that underscores may separate but neither end nor follow each other; `afterMark` says
whether an underscore may come first. -/
def separatedDigits (afterMark : Bool) : List Char → Bool
  | [] => true
  | ['_'] => false
  | '_' :: '_' :: _ => false
  | '_' :: rest => afterMark && separatedDigits true rest
  | _ :: rest => separatedDigits true rest

/-- The length of an exponent with one of the given letters; zero if there is none. -/
def exponentLength? (letters : List Char) (text : List Glyph) : Option Nat :=
  match text with
  | .char letter :: rest =>
      if letters.contains letter then
        let signed := (charsWhile (fun c => c == '+' || c == '-') (rest.take 1)).length
        let digits := charsWhile (fun c => c.isDigit || c == '_') (rest.drop signed)
        if (digits.filter (· != '_')).isEmpty || !separatedDigits false digits then none
        else some (1 + signed + digits.length)
      else some 0
  | _ => some 0

def fractionDigits (digit : Char → Bool) (text : List Glyph) : Option (List Char) :=
  match text with
  | .char '.' :: rest => some (charsWhile (fun c => digit c || c == '_') rest)
  | _ => none

def realLength? (text : List Glyph) : Option Nat :=
  let based (digit : Char → Bool) (rest : List Glyph) : Option Nat :=
    let digits := charsWhile (fun c => c.isDigit || c == '_') rest
    if digits.all (fun c => digit c || c == '_') && !(digits.filter (· != '_')).isEmpty &&
        separatedDigits true digits then
      some (2 + digits.length)
    else none
  let decimal : Option Nat :=
    let whole := charsWhile (fun c => c.isDigit || c == '_') text
    let rest := text.drop whole.length
    let fraction := fractionDigits Char.isDigit rest
    let fractionLength := (fraction.map (·.length + 1)).getD 0
    match exponentLength? ['e', 'E'] (rest.drop fractionLength) with
    | none => none
    | some exponent =>
        let isFloat := fraction.isSome || exponent != 0
        let octal := whole.head? == some '0' && !isFloat &&
          (rest.head? != some (.char 'i'))
        if separatedDigits false whole && separatedDigits false (fraction.getD []) &&
            (!octal || whole.all (fun c => isOctalDigit c || c == '_')) then
          some (whole.length + fractionLength + exponent)
        else none
  match text with
  | .char '0' :: .char letter :: rest =>
      if letter == 'b' || letter == 'B' then based (fun c => c == '0' || c == '1') rest
      else if letter == 'o' || letter == 'O' then based isOctalDigit rest
      else if letter == 'x' || letter == 'X' then
        let whole := charsWhile (fun c => isHexDigit c || c == '_') rest
        let after := rest.drop whole.length
        let fraction := fractionDigits isHexDigit after
        let fractionLength := (fraction.map (·.length + 1)).getD 0
        match exponentLength? ['p', 'P'] (after.drop fractionLength) with
        | none => none
        | some exponent =>
            let digits := whole ++ fraction.getD []
            if (digits.filter (· != '_')).isEmpty || (fraction.isSome && exponent == 0) ||
                !separatedDigits true whole || !separatedDigits false (fraction.getD []) then
              none
            else some (2 + whole.length + fractionLength + exponent)
      else decimal
  | _ => decimal

def numberLength? (text : List Glyph) : Option Nat :=
  (realLength? text).map fun length =>
    if (text.drop length).head? == some (.char 'i') then length + 1 else length

/-- The length of an escape after its backslash, in a literal with the given quote. -/
def escapeLength? (quote : Char) : List Glyph → Option Nat
  | .char c :: rest =>
      let coded (length base : Nat) (digit : Char → Bool) (limit : Nat) : Option Nat :=
        let digits := charsWhile digit (rest.take length)
        let value := numeral base digits
        if digits.length = length && value < limit &&
            !(0xD800 ≤ value && value < 0xE000) then some (length + 1)
        else none
      if c == quote || "abfnrtv\\".toList.contains c then some 1
      else if c == 'x' then coded 2 16 isHexDigit 0x100
      else if c == 'u' then coded 4 16 isHexDigit 0x110000
      else if c == 'U' then coded 8 16 isHexDigit 0x110000
      else if isOctalDigit c then
        let digits := charsWhile isOctalDigit (rest.take 2)
        if digits.length = 2 && numeral 8 (c :: digits) < 0x100 then some 3 else none
      else none
  | _ => none

/-- The length of the rest of an interpreted text, its closing quote included. -/
def textRestLength? : List Glyph → Option Nat
  | [] => none
  | glyph :: rest =>
      if glyph = .char '"' then some 1
      else if glyph = .char '\n' then none
      else if glyph = .char '\\' then
        match escapeLength? '"' rest with
        | some length => (textRestLength? (rest.drop length)).map (· + length + 1)
        | none => none
      else (textRestLength? rest).map (· + 1)
termination_by text => text.length

/-- The length of the rest of a rune literal, its closing quote included. -/
def runeRestLength? : List Glyph → Option Nat
  | [] => none
  | glyph :: rest =>
      let closed (length : Nat) : Option Nat :=
        if (rest.drop length).head? = some (.char '\'') then some (length + 2) else none
      if glyph = .char '\'' || glyph = .char '\n' then none
      else if glyph = .char '\\' then (escapeLength? '\'' rest).bind closed
      else closed 0

def lengthThrough? (stop : Glyph) : List Glyph → Option Nat
  | [] => none
  | glyph :: rest => if glyph = stop then some 1 else (lengthThrough? stop rest).map (· + 1)

def blockRestLength? : List Glyph → Option Nat
  | [] => none
  | [_] => none
  | star :: slash :: rest =>
      if star = .char '*' && slash = .char '/' then some 2
      else (blockRestLength? (slash :: rest)).map (· + 1)

/-- Operators and punctuation, longer ones before those they start with. -/
def marks : List (List Char) :=
  ["<<=", ">>=", "&^=", "...", "&&", "||", "<-", "++", "--", "==", "!=", "<=", ">=", ":=", "+=",
    "-=", "*=", "/=", "%=", "&=", "|=", "^=", "<<", ">>", "&^", "+", "-", "*", "/", "%", "&", "|",
    "^", "<", ">", "=", "!", "~", "(", ")", "[", "]", "\x7b", "\x7d", ",", ";", ".", ":"].map
    String.toList

def startsWith (chars : List Char) (text : List Glyph) : Bool :=
  (chars.map Glyph.char).isPrefixOf text

/-- The kind and the length of the lexeme at the start of a text. -/
def measure? (text : List Glyph) : Option (LexemeKind × Nat) :=
  match text with
  | .char c :: rest =>
      let isSpace (c : Char) : Bool := c == ' ' || c == '\t' || c == '\r'
      if c == '\n' then some (.lineEnd, 1)
      else if isSpace c then some (.blank, (charsWhile isSpace text).length)
      else if startsWith ['/', '/'] text then
        some (.comment, (text.takeWhile (· != .char '\n')).length)
      else if startsWith ['/', '*'] text then
        (blockRestLength? (text.drop 2)).map fun length => (.comment, length + 2)
      else if isNameStart c then some (.name, (charsWhile isNamePart text).length)
      else if c.isDigit || (c == '.' && (charsWhile Char.isDigit (rest.take 1)).length == 1) then
        (numberLength? text).map fun length => (.number, length)
      else if c == '"' then (textRestLength? rest).map fun length => (.text, length + 1)
      else if c == '\x60' then
        (lengthThrough? (.char '\x60') rest).map fun length => (.rawText, length + 1)
      else if c == '\'' then (runeRestLength? rest).map fun length => (.rune, length + 1)
      else (marks.find? (startsWith · text)).map fun mark => (.mark, mark.length)
  | _ => none

theorem chars_while_satisfies {p : Char → Bool} (text : List Glyph) :
    ∀ glyph ∈ text.take (charsWhile p text).length, glyph.satisfies p = true := by
  fun_induction charsWhile p text with
  | case1 c rest holds ih =>
      intro glyph member
      rcases List.mem_cons.1 member with rfl | later
      · exact holds
      · exact ih glyph later
  | case2 => simp
  | case3 => simp

/-- A lexeme that starts like a name is measured as far as its characters may stand in one. -/
theorem measure_name {text : List Glyph} {length : Nat}
    (measured : measure? text = some (.name, length)) :
    (∃ c rest, text = .char c :: rest ∧ isNameStart c = true) ∧
      length = (charsWhile isNamePart text).length := by
  unfold measure? at measured
  split at measured
  · rename_i c rest
    dsimp only at measured
    repeat' split at measured
    all_goals simp only [Option.map_eq_some_iff, Option.some.injEq, Prod.mk.injEq, reduceCtorEq,
      false_and, and_false, exists_false, true_and] at measured
    exact ⟨⟨c, rest, rfl, by assumption⟩, measured.symm⟩
  · simp at measured

theorem name_of_measure {glyph : Glyph} {rest : List Glyph} {length : Nat}
    (measured : measure? (glyph :: rest) = some (.name, length)) :
    ∀ part ∈ glyph :: rest.take (length - 1), part.satisfies isNamePart = true := by
  obtain ⟨⟨c, others, equal, start⟩, counted⟩ := measure_name measured
  obtain ⟨rfl, rfl⟩ := List.cons.inj equal
  have part : isNamePart c = true := by
    simp only [isNameStart] at start
    simp [isNamePart, start]
  have whole := chars_while_satisfies (p := isNamePart) (.char c :: rest)
  rw [← counted] at whole
  rw [charsWhile, if_pos part, List.length_cons] at counted
  rw [counted] at whole ⊢
  exact whole

def scan? : List Glyph → Option (List Lexeme)
  | [] => some []
  | glyph :: rest =>
      match _measured : measure? (glyph :: rest) with
      | none => none
      | some (kind, length) =>
          (scan? (rest.drop (length - 1))).map
            (⟨kind, glyph :: rest.take (length - 1), by simp,
              fun named => name_of_measure (named ▸ _measured)⟩ :: ·)
termination_by text => text.length

/-- The lexemes of a text are the text. -/
theorem flat_map_glyphs_of_scan {text : List Glyph} {lexemes : List Lexeme}
    (scanned : scan? text = some lexemes) : lexemes.flatMap (·.glyphs) = text := by
  fun_induction scan? text generalizing lexemes with
  | case1 => simp_all
  | case2 => simp at scanned
  | case3 glyph rest kind length _ ih =>
      obtain ⟨tail, found, rfl⟩ := Option.map_eq_some_iff.1 scanned
      simp [ih found]

/-- What a name is written with is a name. -/
theorem is_name_text (lexeme : Lexeme) (named : lexeme.kind = .name) :
    IsName (Glyph.text lexeme.glyphs) := by
  have chars : ∀ glyphs : List Glyph, (∀ glyph ∈ glyphs, glyph.satisfies isNamePart = true) →
      ∃ text, glyphs.mapM Glyph.char? = some text ∧ text.length = glyphs.length ∧
        ∀ c ∈ text, isNamePart c = true := by
    intro glyphs parts
    induction glyphs with
    | nil => exact ⟨[], rfl, rfl, by simp⟩
    | cons glyph rest ih =>
        obtain ⟨text, read, size, holds⟩ :=
          ih fun part member => parts part (List.mem_cons_of_mem _ member)
        have head := parts glyph List.mem_cons_self
        cases glyph with
        | stray byte => simp [Glyph.satisfies] at head
        | char c =>
            refine ⟨c :: text, by simp [Glyph.char?, read], by simp [size], fun part member => ?_⟩
            rcases List.mem_cons.1 member with rfl | later
            · exact head
            · exact holds part later
  obtain ⟨text, read, size, holds⟩ := chars lexeme.glyphs (lexeme.named named)
  have shown : (Glyph.text lexeme.glyphs).toList = text := by
    simp [Glyph.text, Glyph.text?, read]
  constructor
  · rw [shown]
    rintro rfl
    exact lexeme.nonempty (List.length_eq_zero_iff.1 size.symm)
  · rw [shown]
    exact holds

end Lexeme

end EndpointAtlas.Go
