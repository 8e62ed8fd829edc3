import Bindery.Text.Pieces

/-!
# Path texts

A path names a place by the folders on the way to it, with slashes between them. It is kept as it
was written; `Disk` says where it leads.
-/

namespace Bindery.Path

def isAbsolute (path : String) : Bool := path.toList.head? == some '/'

/-- Such a path can only lead to a folder. -/
def endsInSlash (path : String) : Bool := path.toList.getLast? == some '/'

/-- The texts between slashes, empty ones included. -/
def segments (path : String) : List String :=
  (Text.pieces (· == '/') path.toList).map String.ofList

/-- The names on the way, dots included. -/
def names (path : String) : List String := (segments path).filter (!·.isEmpty)

def isDots (name : String) : Bool := name == "." || name == ".."

/-- What `name` leads to from a folder; an absolute path leads to the same place from anywhere. -/
def join (folder name : String) : String :=
  if isAbsolute name then name
  else if folder.isEmpty || endsInSlash folder then folder ++ name
  else folder ++ "/" ++ name

/-- Without the segments at the end that lead nowhere. -/
def trimSegments (l : List String) : List String :=
  (l.reverse.dropWhile fun s => s.isEmpty || s == ".").reverse

/-- What precedes the last segment of a path that starts with `start`. -/
def parentAfter (start : String) (rest : List Char) (without : Option String) : Option String :=
  match trimSegments ((Text.pieces (· == '/') rest).map String.ofList) with
  | [] => without
  | l => some (start ++ Text.join "/" (trimSegments l.dropLast))

/-- The path of the folder that a place is in. A place in the working folder has the empty path
for it, the root has none. -/
def parent? (path : String) : Option String :=
  match path.toList with
  | '/' :: rest => parentAfter "/" rest none
  | ['.'] => some ""
  | '.' :: '/' :: rest => parentAfter "." ('/' :: rest) (some "")
  | l => parentAfter "" l none

end Bindery.Path
