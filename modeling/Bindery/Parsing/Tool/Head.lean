import Bindery.Parsing.Amount
import Bindery.Parsing.Tool.Basic

/-!
# Beginnings of files

`head` prints so many lines or octets of each file, or all but so many.
-/

namespace Bindery.Tool.Head

inductive Meaning where
  | octets
  | lines
  | pipe
  | untitled
  | titled
  | byNul
  | usage
  /-- A digit that is not in the first word. -/
  | digit (c : Char)
deriving DecidableEq

def switches : List (Switch Meaning) := [
  ⟨.octets, some 'c', some "bytes", true⟩,
  ⟨.lines, some 'n', some "lines", true⟩,
  ⟨.pipe, none, some "-presume-input-pipe", false⟩,
  ⟨.untitled, some 'q', some "quiet", false⟩,
  ⟨.untitled, none, some "silent", false⟩,
  ⟨.titled, some 'v', some "verbose", false⟩,
  ⟨.byNul, some 'z', some "zero-terminated", false⟩,
  ⟨.usage, none, some "help", false⟩,
  ⟨.usage, none, some "version", false⟩] ++
  "0123456789".toList.map fun c => ⟨.digit c, some c, none, false⟩

/-- How much of a file is wanted, and how it is shown. -/
structure Style where
  count : Nat := 10
  /-- The count is of what is left out at the end. -/
  fromEnd : Bool := false
  inOctets : Bool := false
  terminator : Char := '\n'
  /-- Whether there are titles; if it is not said, several files have them. -/
  titled? : Option Bool := none

/-! ### Counts -/

def countFault (inOctets : Bool) (word : List Char) (fault : Amount.Fault) : String :=
  "invalid number of " ++ (if inOctets then "bytes" else "lines") ++ ": " ++
    Text.quotedWord (String.ofList word) ++
    match fault with
    | .malformed => ""
    | .tooLarge => ": Value too large for defined data type"

def readCount (self : String) (inOctets : Bool) (word : List Char) : Except ToolResult Nat :=
  (Amount.read word).mapError fun fault => .failure self (countFault inOctets word fault) 1

/-- Asks for a count; with a minus sign it counts from the end. -/
def Style.withCount (s : Style) (self : String) (inOctets : Bool) (word : String) :
    Except ToolResult Style := do
  match word.toList with
  | '-' :: rest =>
    pure { s with count := ← readCount self inOctets rest, fromEnd := true, inOctets := inOctets }
  | l => pure { s with count := ← readCount self inOctets l, fromEnd := false, inOctets := inOctets }

/-- The largest count of octets that can be left out at the end. -/
def maxLeftOut : Nat := Nat.pow 2 63 - 1

/-- Refuses a style that leaves out too much. -/
def Style.check (s : Style) (self : String) : Except ToolResult Unit :=
  if s.inOctets && s.fromEnd && maxLeftOut < s.count then
    throw (.failure self (countFault true (Nat.toDigits 10 s.count) .tooLarge) 1)
  else pure ()

/-! ### Command lines -/

def strayOption (c : Char) : String :=
  "invalid trailing option -- " ++ (Switch.shownLetter c).toString

/-- The letters after the number in a first word, with the unit that is in force. -/
def readLetters (self : String) (s : Style) (unit : List Char) :
    List Char → Except ToolResult (Style × List Char)
  | [] => pure (s, unit)
  | c :: rest =>
    match c with
    | 'c' => readLetters self { s with inOctets := true } [] rest
    | 'b' | 'k' | 'm' => readLetters self { s with inOctets := true } [c] rest
    | 'l' => readLetters self { s with inOctets := false } unit rest
    | 'q' => readLetters self { s with titled? := some false } unit rest
    | 'v' => readLetters self { s with titled? := some true } unit rest
    | 'z' => readLetters self { s with terminator := '\x00' } unit rest
    | _ => throw (.misuse self (strayOption c))

/-- The style that a first word asks for if it is a dash and a number. -/
def readNumberWord? (self word : String) : Option (Except ToolResult Style) :=
  match word.toList with
  | '-' :: l =>
    let digits := l.takeWhile Char.isDigit
    if digits.isEmpty then none
    else some do
      let (s, unit) ← readLetters self {} [] (l.drop digits.length)
      pure { s with count := ← readCount self s.inOctets (digits ++ unit) }
  | _ => none

/-- The style and the files that are asked for, or an answer without any. -/
def readItems (self : String) (s : Style) :
    List (SwitchItem Meaning) → Except ToolResult (Style × List String)
  | [] => pure (s, [])
  | .wrong complaint :: _ => throw (.misuse self complaint)
  | .operand path :: rest => do
    let (s, paths) ← readItems self s rest
    pure (s, path :: paths)
  | .switch m value :: rest => do
    match m with
    | .octets => readItems self (← s.withCount self true value) rest
    | .lines => readItems self (← s.withCount self false value) rest
    | .pipe => readItems self s rest
    | .untitled => readItems self { s with titled? := some false } rest
    | .titled => readItems self { s with titled? := some true } rest
    | .byNul => readItems self { s with terminator := '\x00' } rest
    | .usage => throw (.usage self)
    | .digit c => throw (.misuse self (strayOption c))

def readArgs (self : String) (args : List String) : Except ToolResult (Style × List String) := do
  let (s, paths) ←
    match args.head?.bind (readNumberWord? self) with
    | some s? => readItems self (← s?) (Switch.read switches (args.drop 1))
    | none => readItems self {} (Switch.read switches args)
  s.check self
  pure (s, paths)

/-! ### Files -/

/-- The characters that lie wholly within the first `n` octets. -/
def takeOctets : Nat → List Char → List Char
  | _, [] => []
  | n, c :: rest => if c.utf8Size ≤ n then c :: takeOctets (n - c.utf8Size) rest else []

def Style.portion (s : Style) (text : String) : String :=
  if s.inOctets then
    let n := if s.fromEnd then text.utf8ByteSize - s.count else s.count
    String.ofList (takeOctets n text.toList)
  else
    let lines := linesBy s.terminator text.toList
    let n := if s.fromEnd then lines.length - s.count else s.count
    String.ofList (lines.take n).flatten

/-- What is printed of a file, or why it is not. A folder is not noticed as long as nothing has to
be read. -/
def Style.read (s : Style) (d : Disk) (path : String) : Except String String :=
  if path = "-" then pure ""
  else
    match d.read path with
    | .ok text => pure (s.portion text)
    | .error .isAFolder =>
      if s.count = 0 ∧ !s.fromEnd then pure ""
      else
        throw ("error reading " ++ Text.shellQuoted path ++ ": " ++ FileFault.isAFolder.reason)
    | .error e =>
      throw ("cannot open " ++ Text.shellQuoted path ++ " for reading: " ++ e.reason)

def title (path : String) : String :=
  "==> " ++ (if path = "-" then "standard input" else path) ++ " <==\n"

/-- The portions of the files; titles have blank lines before them, except the first. -/
def readAll (s : Style) (d : Disk) (self : String) (titled first : Bool) :
    List String → ToolResult
  | [] => .success ""
  | path :: rest =>
    match s.read d path with
    | .ok text =>
      let r := readAll s d self titled false rest
      let heading := if titled then (if first then "" else "\n") ++ title path else ""
      { r with output := heading ++ text ++ r.output }
    | .error complaint =>
      let r := readAll s d self titled first rest
      let failed := ToolResult.failure self complaint 1
      { failed with output := r.output, complaint := failed.complaint ++ r.complaint }

def run (d : Disk) (self : String) (args : List String) : ToolResult :=
  match readArgs self args with
  | .error r => r
  | .ok (s, paths) =>
    let paths := if paths.isEmpty then ["-"] else paths
    readAll s d self (s.titled?.getD (paths.length != 1)) true paths

end Bindery.Tool.Head
