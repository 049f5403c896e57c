/-!
Texts set in columns. A column is counted in characters and filled up with spaces on the right.
-/

namespace EndpointAtlas.Text

def padRight (width : Nat) (text : String) : String :=
  text ++ String.ofList (List.replicate (width - text.length) ' ')

end EndpointAtlas.Text
