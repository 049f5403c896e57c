import EndpointAtlas.Path
import EndpointAtlas.Text.Glyph

/-!
Paths as they are written in bytes, which need not all belong to characters. They fall into the same
parts as paths that are texts.
-/

namespace EndpointAtlas

open Text

structure RawPath where
  glyphs : List Glyph
  deriving DecidableEq, Repr, Inhabited

namespace RawPath

def slash : Glyph := .char '/'

def ofPath (path : Path) : RawPath := ⟨Glyph.ofString path.text⟩

def isAbsolute (path : RawPath) : Bool := path.glyphs.head? == some slash

def join (base inner : RawPath) : RawPath :=
  if inner.isAbsolute then inner
  else
    let separated := base.glyphs.isEmpty || base.glyphs.getLast? == some slash
    ⟨base.glyphs ++ (if separated then [] else [slash]) ++ inner.glyphs⟩

def parts (path : RawPath) : List (List Glyph) := path.glyphs.splitOn slash

def isNormalPart (part : List Glyph) : Bool :=
  !part.isEmpty && part != Glyph.ofString "." && part != Glyph.ofString ".."

def normalParts (path : RawPath) : List (List Glyph) := path.parts.filter isNormalPart

end RawPath

end EndpointAtlas
