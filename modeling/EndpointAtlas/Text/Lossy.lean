import EndpointAtlas.Text.Glyph

/-!
Text made of bytes that need not be well formed. As many stray bytes as could have started a
character together become one replacement character.
-/

namespace EndpointAtlas.Text.Glyph

def replacement : Char := '\uFFFD'

/-- Whether a byte may be the second one of a character of three or four bytes. -/
def isSecond (lead byte : UInt8) : Bool :=
  isContinuation byte && (lead != 0xE0 || 0xA0 ≤ byte) && (lead != 0xED || byte ≤ 0x9F) &&
    (lead != 0xF0 || 0x90 ≤ byte) && (lead != 0xF4 || byte ≤ 0x8F)

/-- The tests of the bytes that may still follow a first byte when the character is not whole. -/
def followers (lead : UInt8) : List (UInt8 → Bool) :=
  if 0xE0 ≤ lead && lead ≤ 0xEF then [isSecond lead]
  else if 0xF0 ≤ lead && lead ≤ 0xF4 then [isSecond lead, isContinuation]
  else []

/-- The characters of glyphs, where stray bytes that pass the tests belong to what was replaced
before them. -/
def lossyAfter : List (UInt8 → Bool) → List Glyph → List Char
  | _, [] => []
  | _, .char value :: rest => value :: lossyAfter [] rest
  | [], .stray byte :: rest => replacement :: lossyAfter (followers byte) rest
  | test :: tests, .stray byte :: rest =>
      if test byte then lossyAfter tests rest
      else replacement :: lossyAfter (followers byte) rest

/-- The text of glyphs, with replacement characters for stray bytes. -/
def lossy (glyphs : List Glyph) : String := String.ofList (lossyAfter [] glyphs)

theorem lossy_after_chars (chars : List Char) (tests : List (UInt8 → Bool)) :
    lossyAfter tests (chars.map char) = chars := by
  induction chars generalizing tests with
  | nil => cases tests <;> rfl
  | cons c rest ih =>
      rw [List.map_cons]
      cases tests <;> exact congrArg (c :: ·) (ih [])

@[simp] theorem lossy_of_string (text : String) : lossy (ofString text) = text := by
  rw [lossy, ofString, lossy_after_chars, String.ofList_toList]

/-- Bytes of one character that is not whole are replaced together. -/
example : lossy (decode [0x61, 0xE2, 0x82, 0xFF, 0xFF, 0xE0, 0x80]) =
    String.ofList ('a' :: List.replicate 5 replacement) := by decide +kernel

end EndpointAtlas.Text.Glyph
