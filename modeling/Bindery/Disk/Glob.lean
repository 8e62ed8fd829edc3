import Bindery.Disk.Basic

/-!
# Glob patterns

A pattern is a path some of whose names are given by wildcards: `?` is any character, `*` any run of
characters, `[a-z]` and `[!a-z]` a character in or outside of some ranges, and the name `**` any
number of folders. Braces have no meaning. Matches come in the order of their names, and a name that
starts with a dot is like any other.
-/

namespace Bindery

namespace Glob

inductive CharTest where
  | exactly (c : Char)
  | any
  | within (ranges : List (Char × Char))
  | outside (ranges : List (Char × Char))
deriving DecidableEq

inductive Wildcard where
  | one (t : CharTest)
  /-- A run of characters of any length. -/
  | run
deriving DecidableEq

/-- What a pattern says about one name. -/
inductive Piece where
  | literal (name : String)
  | wild (l : List Wildcard)
  /-- Any number of folders. -/
  | deep
deriving DecidableEq

/-! ### Matching names -/

def inRange (c : Char) (r : Char × Char) : Bool := r.1 ≤ c && c ≤ r.2

def CharTest.holds : CharTest → Char → Bool
  | .exactly d, c => c == d
  | .any, _ => true
  | .within ranges, c => ranges.any (inRange c)
  | .outside ranges, c => !ranges.any (inRange c)

/-- For each suffix of a text, the text itself first, whether the wildcards match it. Every wildcard
reads the text once, however many runs there are. -/
def suffixMatches : List Wildcard → List Char → List Bool
  | [], l => l.map (fun _ => false) ++ [true]
  | .one t :: ws, l =>
    l.zipWith (fun c below => t.holds c && below) (suffixMatches ws l).tail ++ [false]
  | .run :: ws, l =>
    (suffixMatches ws l).foldr (fun here later => (here || later.headD false) :: later) []

def matchesChars (ws : List Wildcard) (l : List Char) : Bool := (suffixMatches ws l).headD false

def Piece.matches : Piece → String → Bool
  | .literal expected, name => name == expected
  | .wild ws, name => matchesChars ws name.toList
  | .deep, _ => false

/-! ### Reading patterns -/

/-- Two characters with a dash between them are the ends of a range. -/
def ranges : List Char → List (Char × Char)
  | [] => []
  | a :: '-' :: b :: rest => (a, b) :: ranges rest
  | a :: rest => (a, a) :: ranges rest

/-- A bracket that is still open, its characters last first. -/
structure OpenBracket where
  negated : Bool
  content : List Char

def OpenBracket.close (b : OpenBracket) : CharTest :=
  if b.negated then .outside (ranges b.content.reverse) else .within (ranges b.content.reverse)

/-- The wildcards of a name. The first character in a bracket never closes it. -/
def wildcards? : Option OpenBracket → List Char → Option (List Wildcard)
  | none, [] => some []
  | some _, [] => none
  | some b, c :: rest =>
    if c = ']' then (wildcards? none rest).map (.one b.close :: ·)
    else wildcards? (some { b with content := c :: b.content }) rest
  | none, '*' :: '*' :: _ => none
  | none, '*' :: rest => (wildcards? none rest).map (.run :: ·)
  | none, '?' :: rest => (wildcards? none rest).map (.one .any :: ·)
  | none, '[' :: '!' :: c :: rest => wildcards? (some ⟨true, [c]⟩) rest
  | none, '[' :: c :: rest => wildcards? (some ⟨false, [c]⟩) rest
  | none, '[' :: [] => none
  | none, c :: rest => (wildcards? none rest).map (.one (.exactly c) :: ·)

def Wildcard.literal? : Wildcard → Option Char
  | .one (.exactly c) => some c
  | _ => none

def Piece.ofName? (name : String) : Option Piece :=
  if name = "**" then some .deep
  else do
    let ws ← wildcards? none name.toList
    match ws.mapM Wildcard.literal? with
    | some l => some (.literal (String.ofList l))
    | none => some (.wild ws)

/-- A pattern: where it starts, and what it says name by name. -/
structure Pattern where
  start : String
  pieces : List Piece
  /-- Only folders match. -/
  foldersOnly : Bool

def Pattern.ofText? (text : String) : Option Pattern := do
  let segments := Path.segments
    (if Path.isAbsolute text then String.ofList (text.toList.drop 1) else text)
  let segments := if segments.getLast? == some "" then segments.dropLast else segments
  some {
    start := if Path.isAbsolute text then "/" else "."
    pieces := ← segments.mapM Piece.ofName?
    foldersOnly := Path.endsInSlash text }

/-- Whether a text is meant as a pattern. -/
def isPattern (text : String) : Bool := text.toList.any fun c => c ∈ ['*', '?', '[', '\x7b']

/-! ### Finding matches -/

/-- Whether a path leads nowhere from the working folder. -/
def isHere (path : String) : Bool :=
  !path.isEmpty && !Path.isAbsolute path && (Path.names path).all (· == ".")

/-- The path of a name in a folder; the working folder is left out. -/
def nameIn (folder name : String) : String :=
  if isHere folder then name else Path.join folder name

/-- Whether wildcards are open to the names of a folder itself and of the one around it. -/
def admitsDots : List Wildcard → Bool
  | .one (.exactly '.') :: _ => true
  | _ => false

/-- The paths and names of what is in a folder, where `list` says which places are asked for. -/
def placesIn (d : Disk) (folder : String) (list : Location → List (List String)) :
    List (String × String) :=
  match d.locate folder with
  | .ok l =>
    if d.occupant? l = some .folder then
      (list l).map fun names => (names.foldl nameIn folder, names.getLast?.getD "")
    else []
  | .error _ => []

mutual

/-- The paths that the pieces lead to from a path on. -/
def find (d : Disk) (foldersOnly : Bool) : List Piece → String → List String
  | [], path => if foldersOnly && !d.isFolder path then [] else [path]
  | .literal name :: rest, path =>
    let next := nameIn path name
    if if Path.isDots name then d.isFolder path else d.has next then
      find d foldersOnly rest next
    else []
  | .wild ws :: rest, path =>
    let dots := ["..", "."].filter fun name =>
      admitsDots ws && d.isFolder path && matchesChars ws name.toList
    let found := (placesIn d path fun l => (d.namesIn l).map ([·])).filter fun p =>
      matchesChars ws p.2.toList
    dots.flatMap (fun name => find d foldersOnly rest (Path.join path name)) ++
      found.flatMap fun p => find d foldersOnly rest p.1
  | .deep :: rest, path => (placesIn d path d.below).flatMap (findAt d foldersOnly rest)

/-- The paths that the pieces lead to when the first of them is about the place itself. -/
def findAt (d : Disk) (foldersOnly : Bool) : List Piece → String × String → List String
  | [], place => if d.isFolder place.1 then [place.1] else []
  | .deep :: rest, place => findAt d foldersOnly rest place
  | piece :: rest, place =>
    if piece.matches place.2 then find d foldersOnly rest place.1 else []

end

/-- The folder that all matches are in, as far as literal names lead. -/
def baseFrom (path : String) : List Piece → String
  | .literal name :: rest => baseFrom (nameIn path name) rest
  | _ => path

def Pattern.base (p : Pattern) : String := baseFrom p.start p.pieces

def Pattern.find (p : Pattern) (d : Disk) : List String := Glob.find d p.foldersOnly p.pieces p.start

end Glob

end Bindery
