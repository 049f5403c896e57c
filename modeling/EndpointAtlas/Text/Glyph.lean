/-!
Text whose bytes need not all be characters. Decoding loses nothing: a byte that belongs to no
well-formed UTF-8 sequence is kept as a stray.
-/

namespace EndpointAtlas.Text

/-- A character, or a byte that is part of none. -/
inductive Glyph where
  | char (value : Char)
  | stray (byte : UInt8)
  deriving DecidableEq, Repr, Inhabited

namespace Glyph

def satisfies (p : Char → Bool) : Glyph → Bool
  | char value => p value
  | stray _ => false

def char? : Glyph → Option Char
  | char value => some value
  | stray _ => none

def isContinuation (byte : UInt8) : Bool := 0x80 ≤ byte && byte ≤ 0xBF

/-- The character of more than one byte at the start of the bytes after `lead`, with the number of
bytes that follow `lead`. Overlong forms, surrogates and values above the last code point are not
well formed. -/
def sequence? (lead : UInt8) (rest : List UInt8) : Option (Char × Nat) :=
  let bits (byte : UInt8) : Nat := (byte &&& 0x3F).toNat
  if 0xC2 ≤ lead && lead ≤ 0xDF then
    match rest with
    | b :: _ =>
        if isContinuation b then some (Char.ofNat ((lead &&& 0x1F).toNat * 64 + bits b), 1)
        else none
    | _ => none
  else if 0xE0 ≤ lead && lead ≤ 0xEF then
    match rest with
    | b :: c :: _ =>
        if isContinuation b && isContinuation c && (lead != 0xE0 || 0xA0 ≤ b) &&
            (lead != 0xED || b ≤ 0x9F) then
          some (Char.ofNat ((lead &&& 0x0F).toNat * 4096 + bits b * 64 + bits c), 2)
        else none
    | _ => none
  else if 0xF0 ≤ lead && lead ≤ 0xF4 then
    match rest with
    | b :: c :: d :: _ =>
        if isContinuation b && isContinuation c && isContinuation d &&
            (lead != 0xF0 || 0x90 ≤ b) && (lead != 0xF4 || b ≤ 0x8F) then
          some (Char.ofNat
            ((lead &&& 0x07).toNat * 262144 + bits b * 4096 + bits c * 64 + bits d), 3)
        else none
    | _ => none
  else none

def decode : List UInt8 → List Glyph
  | [] => []
  | lead :: rest =>
      if lead < 0x80 then char (Char.ofNat lead.toNat) :: decode rest
      else
        match sequence? lead rest with
        | some (value, following) => char value :: decode (rest.drop following)
        | none => stray lead :: decode rest
termination_by bytes => bytes.length

def ofString (text : String) : List Glyph := text.toList.map char

def text? (glyphs : List Glyph) : Option String := (glyphs.mapM char?).map String.ofList

/-- The text, read as empty if a stray byte is in it. -/
def text (glyphs : List Glyph) : String := (text? glyphs).getD ""

theorem text_of_string (text : String) : text? (ofString text) = some text := by
  have chars : ∀ cs : List Char, (cs.map char).mapM char? = some cs := by
    intro cs
    induction cs with
    | nil => rfl
    | cons c rest ih => simp [char?, ih]
  simp [text?, ofString, chars]

end Glyph

end EndpointAtlas.Text
