/-!
# Texts as octets

The UTF-8 form of a text, and the text at the beginning of some octets.
-/

namespace Bindery.Text

def octets (l : List Char) : List UInt8 := l.flatMap String.utf8EncodeChar

/-- The characters up to the first octet that belongs to none. -/
def ofOctets : List UInt8 → List Char
  | [] => []
  | b :: rest =>
    match (ByteArray.mk (b :: rest.take 3).toArray).utf8DecodeChar? 0 with
    | some c => c :: ofOctets (rest.drop (c.utf8Size - 1))
    | none => []
termination_by l => l.length
decreasing_by
  simp only [List.length_drop, List.length_cons]
  omega

def isVisible (b : UInt8) : Bool := 32 ≤ b && b < 127

end Bindery.Text
