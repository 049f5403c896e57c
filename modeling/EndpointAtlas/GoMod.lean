import EndpointAtlas.Failure
import EndpointAtlas.Go.ModuleFile

/-!
The module path of a project, as the `go.mod` file at its root states it.
-/

namespace EndpointAtlas

def moduleOf (tree : Tree) (root : Path) : Except Failure String :=
  let path := root.join ⟨"go.mod"⟩
  match (tree.text? path).bind Go.modulePath? with
  | some module => .ok module
  | none => .error (.moduleNotFound path)

end EndpointAtlas
