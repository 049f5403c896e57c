import EndpointAtlas.Package

/-!
A project under analysis: a file tree, the root of the project in it, its module path, and whether
its test files belong to it.
-/

namespace EndpointAtlas

structure Project where
  tree : Tree
  root : Path
  module : String
  includeTests : Bool
  deriving Inhabited

end EndpointAtlas
