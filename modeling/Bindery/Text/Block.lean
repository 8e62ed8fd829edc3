import Bindery.Text.Pieces

/-!
# Indented blocks

`indent` puts the lines of several texts under each other, each non-empty line moved to the right.
-/

namespace Bindery.Text

def indentLine (width : Nat) (line : String) : String :=
  if line.isEmpty then "" else "".pushn ' ' width ++ line

/-- The lines of all the texts, the non-empty ones after `width` spaces. -/
def indent (width : Nat) (texts : List String) : String :=
  join "\n" ((texts.flatMap lines).map (indentLine width))

end Bindery.Text
