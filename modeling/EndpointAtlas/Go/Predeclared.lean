/-!
The predeclared types of Go.
-/

namespace EndpointAtlas.Go

def predeclaredTypes : List String := [
  "bool", "string", "int", "int8", "int16", "int32", "int64", "uint", "uint8", "uint16", "uint32",
  "uint64", "uintptr", "rune", "byte", "float32", "float64", "complex64", "complex128", "error",
  "any"]

/-- Whether a bare type name is predeclared. Such a name is never looked up in a package. -/
def isPredeclaredType (name : String) : Bool := predeclaredTypes.contains name

end EndpointAtlas.Go
