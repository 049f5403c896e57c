import EndpointAtlas.Go.Lexeme

/-!
Tokens of Go source. A line end ends a statement after a name, a literal, a closing bracket and a
few keywords and operators; there a terminator stands in the token list. Every other token keeps the
text between it and the token before it, and the comments since the last token that is no
terminator.
-/

namespace EndpointAtlas.Go

open Text

/-- A comment with its text and the rows of its first and last character. -/
structure Comment where
  text : String
  row : Nat
  endRow : Nat
  deriving DecidableEq, Repr, Inhabited

inductive TokenKind where
  | name
  | keyword
  | number
  | rune
  | text
  | mark
  | terminator
  deriving DecidableEq, Repr, Inhabited

structure Token where
  kind : TokenKind
  text : String
  /-- The token itself, and what stands between it and the token before it. -/
  glyphs : List Glyph
  gap : List Glyph
  row : Nat
  endRow : Nat
  comments : List Comment
  named : kind = .name → Lexeme.IsName text
  deriving Repr

namespace Token

def keywords : List String := [
  "break", "case", "chan", "const", "continue", "default", "defer", "else", "fallthrough", "for",
  "func", "go", "goto", "if", "import", "interface", "map", "package", "range", "return", "select",
  "struct", "switch", "type", "var"]

/-- The kind of a token that is made of a lexeme, for the lexemes that make one. -/
def kindOf? (kind : LexemeKind) (text : String) : Option TokenKind :=
  match kind with
  | .name => some (if keywords.contains text then .keyword else .name)
  | .number => some .number
  | .rune => some .rune
  | .text | .rawText => some .text
  | .mark => some (if text == ";" then .terminator else .mark)
  | .blank | .lineEnd | .comment => none

/-- Whether a line end after the token ends a statement. -/
def endsStatement (kind : TokenKind) (text : String) : Bool :=
  match kind with
  | .name | .number | .rune | .text => true
  | .keyword => ["break", "continue", "fallthrough", "return"].contains text
  | .mark => ["++", "--", ")", "]", "\x7d"].contains text
  | .terminator => false

def lineEnds (glyphs : List Glyph) : Nat := glyphs.count (.char '\n')

/-- What the next token depends on: the row, the text and the comments since the last token, and
whether a line end would end a statement here. -/
structure Scan where
  row : Nat
  gap : List Glyph
  comments : List Comment
  pending : Bool

def lineTerminator (row : Nat) : Token := ⟨.terminator, "\n", [], [], row, row, [], nofun⟩

instance : Inhabited Token := ⟨lineTerminator 0⟩

theorem is_name_of_kind_of {lexeme : Lexeme}
    (kind : kindOf? lexeme.kind (Glyph.text lexeme.glyphs) = some .name) :
    Lexeme.IsName (Glyph.text lexeme.glyphs) := by
  apply lexeme.is_name_text
  cases same : lexeme.kind <;> simp_all [kindOf?]
  split at kind <;> simp at kind

def ofLexemesFrom (scan : Scan) : List Lexeme → List Token
  | [] => if scan.pending then [lineTerminator scan.row] else []
  | lexeme :: rest =>
      let lineCount := lineEnds lexeme.glyphs
      let endRow := scan.row + lineCount
      let gap := scan.gap ++ lexeme.glyphs
      let text := Glyph.text lexeme.glyphs
      match _made : kindOf? lexeme.kind text with
      | none =>
          let comments :=
            if lexeme.kind = .comment then scan.comments ++ [⟨text, scan.row, endRow⟩]
            else scan.comments
          if scan.pending && lineCount != 0 then
            lineTerminator scan.row :: ofLexemesFrom ⟨endRow, gap, comments, false⟩ rest
          else ofLexemesFrom ⟨endRow, gap, comments, scan.pending⟩ rest
      | some .terminator =>
          ⟨.terminator, text, lexeme.glyphs, scan.gap, scan.row, endRow, [], nofun⟩ ::
            ofLexemesFrom ⟨endRow, [], scan.comments, false⟩ rest
      | some kind =>
          ⟨kind, text, lexeme.glyphs, scan.gap, scan.row, endRow, scan.comments,
            fun named => is_name_of_kind_of (named ▸ _made)⟩ ::
            ofLexemesFrom ⟨endRow, [], [], endsStatement kind text⟩ rest

/-- A byte order mark may stand at the very start of a source text. -/
def withoutByteOrderMark : List Glyph → List Glyph
  | .char '\uFEFF' :: rest => rest
  | source => source

/-- The tokens of a source text. A null character is refused wherever it stands. -/
def ofSource? (source : List Glyph) : Option (List Token) :=
  if source.contains (.char '\x00') then none
  else (Lexeme.scan? (withoutByteOrderMark source)).map (ofLexemesFrom ⟨0, [], [], false⟩)

/-- The source text from the first of some successive tokens to the last. -/
def spanText : List Token → String
  | [] => ""
  | first :: rest =>
      Glyph.text (first.glyphs ++ rest.flatMap fun token => token.gap ++ token.glyphs)

end Token

end EndpointAtlas.Go
