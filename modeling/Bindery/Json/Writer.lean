import Bindery.Json.Numeral
import Bindery.Text.Pieces

/-!
# Writing JSON

The compact form has no blanks at all. The pretty form puts every item and member on a line of its
own, two spaces deeper than the container; empty containers stay closed up.
-/

namespace Bindery.Json

def hexDigit (n : Nat) : Char := Nat.digitChar (n % 16)

/-- A character inside a string: quotes, backslashes and control characters are escaped. -/
def escapeChar (c : Char) : List Char :=
  if c = '"' then ['\\', '"']
  else if c = '\\' then ['\\', '\\']
  else if c = '\x08' then ['\\', 'b']
  else if c = '\x0c' then ['\\', 'f']
  else if c = '\n' then ['\\', 'n']
  else if c = '\r' then ['\\', 'r']
  else if c = '\t' then ['\\', 't']
  else if c.toNat < 0x20 then ['\\', 'u', '0', '0', hexDigit (c.toNat / 16), hexDigit c.toNat]
  else [c]

def stringText (s : String) : String :=
  String.ofList (['"'] ++ s.toList.flatMap escapeChar ++ ['"'])

mutual

def compact : Json → String
  | .null => "null"
  | .bool b => if b then "true" else "false"
  | .number n => n.text
  | .string s => stringText s
  | .array items => "[" ++ Text.join "," (compactItems items) ++ "]"
  | .object members => "\x7b" ++ Text.join "," (compactMembers members) ++ "\x7d"

def compactItems : List Json → List String
  | [] => []
  | v :: rest => compact v :: compactItems rest

def compactMembers : List (String × Json) → List String
  | [] => []
  | (key, v) :: rest => (stringText key ++ ":" ++ compact v) :: compactMembers rest

end

/-- Lines between brackets, `depth` levels deep. -/
def bracketed (depth : Nat) (opening closing : String) (entries : List String) : String :=
  if entries.isEmpty then opening ++ closing
  else
    let line := "\n".pushn ' ' (2 * depth)
    opening ++ line ++ "  " ++ Text.join ("," ++ line ++ "  ") entries ++ line ++ closing

mutual

def prettyAt : Nat → Json → String
  | depth, .array items => bracketed depth "[" "]" (prettyItems (depth + 1) items)
  | depth, .object members => bracketed depth "\x7b" "\x7d" (prettyMembers (depth + 1) members)
  | _, .null => "null"
  | _, .bool b => if b then "true" else "false"
  | _, .number n => n.text
  | _, .string s => stringText s

def prettyItems : Nat → List Json → List String
  | _, [] => []
  | depth, v :: rest => prettyAt depth v :: prettyItems depth rest

def prettyMembers : Nat → List (String × Json) → List String
  | _, [] => []
  | depth, (key, v) :: rest =>
    (stringText key ++ ": " ++ prettyAt depth v) :: prettyMembers depth rest

end

def pretty (v : Json) : String := prettyAt 0 v

end Bindery.Json
