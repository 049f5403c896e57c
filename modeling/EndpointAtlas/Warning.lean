import EndpointAtlas.Ident

/-!
What an analysis passes over, and what is said about it.
-/

namespace EndpointAtlas

inductive Warning where
  /-- No source file was found under the root. -/
  | noSources (root : String)
  | multipleResources (func : String)
  | extraTokens (func extra : String)
  | unnamedParam (func type : String)
  | incorrectParam (func value : String)
  | unknownSource (func value : String)
  | unnamedResponseParam (responder response : String)
  /-- A field has a type outside the module, whose schema is not known. -/
  | opaqueField (ident : Ident)
  deriving DecidableEq, Repr

namespace Warning

def message : Warning → String
  | noSources _ => "no Go source files matched"
  | multipleResources _ => "multiple @Resource annotations, using the first"
  | extraTokens _ _ => "ignoring extra @Resource tokens"
  | unnamedParam _ _ => "skipping unnamed parameter"
  | incorrectParam _ _ => "incorrect @Param annotation"
  | unknownSource _ _ => "unknown @Param source"
  | unnamedResponseParam _ _ => "skipping unnamed response parameter"
  | opaqueField _ => "field type outside module root left opaque"

def details : Warning → List (String × String)
  | noSources root => [("root", root)]
  | multipleResources func => [("func", func)]
  | extraTokens func extra => [("func", func), ("extra", extra)]
  | unnamedParam func type => [("func", func), ("ty", type)]
  | incorrectParam func value => [("func", func), ("value", value)]
  | unknownSource func value => [("func", func), ("value", value)]
  | unnamedResponseParam responder response =>
      [("responder", responder), ("response", response)]
  | opaqueField ident => [("identifier", ident.display)]

end Warning

end EndpointAtlas
