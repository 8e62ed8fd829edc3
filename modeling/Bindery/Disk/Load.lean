import Bindery.Error
import Bindery.Json.Load

/-!
# Loading values from files
-/

namespace Bindery

/-- The value at the start of the text that a path was read for. -/
def loadRead {α : Type} (loader : Json.Reading → Json.Load α) (path : String) :
    Except FileFault String → Except Error α
  | .error fault => throw (.unreadableFile path fault)
  | .ok text => (loader (.ofText text)).mapError (.badJson (some path))

end Bindery
