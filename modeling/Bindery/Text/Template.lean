import Bindery.SortedMap

/-!
# Templates

A template holds placeholders: a word of lower-case letters and underscores between braces.
`fill` reads the template once, from left to right, and never looks inside a value it has put in.
-/

namespace Bindery.Text

/-- Values by placeholder word. -/
abbrev Vars := SortedMap String compare String

def isWordChar (c : Char) : Bool := ('a' ≤ c && c ≤ 'z') || c == '_'

/-- What stands for the placeholder with this word: its value, or the placeholder itself. -/
def placeholderText (vars : Vars) (word : List Char) : List Char :=
  match vars.get? (String.ofList word) with
  | some value => value.toList
  | none => '{' :: word ++ ['}']

/-- Reads on after the word characters `pending`, last first, that an opening brace was followed
by; outside of braces there are none. -/
def fillFrom (vars : Vars) : Option (List Char) → List Char → List Char
  | none, [] => []
  | some pending, [] => '{' :: pending.reverse
  | none, c :: rest => if c = '{' then fillFrom vars (some []) rest else c :: fillFrom vars none rest
  | some pending, c :: rest =>
    if isWordChar c then fillFrom vars (some (c :: pending)) rest
    else if c = '}' && !pending.isEmpty then
      placeholderText vars pending.reverse ++ fillFrom vars none rest
    else if c = '{' then '{' :: pending.reverse ++ fillFrom vars (some []) rest
    else '{' :: pending.reverse ++ c :: fillFrom vars none rest

/-- The template with the value of each known placeholder in its place. -/
def fill (template : String) (vars : Vars) : String :=
  String.ofList (fillFrom vars none template.toList)

end Bindery.Text
