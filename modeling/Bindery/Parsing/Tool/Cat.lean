import Bindery.Parsing.Tool.Basic

/-!
# Handing files through

`cat` prints files one after another. It may number lines, squeeze blank ones, and show where lines
end and which characters have no glyph.
-/

namespace Bindery.Tool.Cat

inductive Meaning where
  | numberFilled
  | number
  | squeeze
  | showRest
  | showEnds
  | showTabs
  | showAll
  | showRestAndEnds
  | showRestAndTabs
  | nothing
  | usage
deriving DecidableEq

def switches : List (Switch Meaning) := [
  ⟨.numberFilled, some 'b', some "number-nonblank", false⟩,
  ⟨.number, some 'n', some "number", false⟩,
  ⟨.squeeze, some 's', some "squeeze-blank", false⟩,
  ⟨.showRest, some 'v', some "show-nonprinting", false⟩,
  ⟨.showEnds, some 'E', some "show-ends", false⟩,
  ⟨.showTabs, some 'T', some "show-tabs", false⟩,
  ⟨.showAll, some 'A', some "show-all", false⟩,
  ⟨.usage, none, some "help", false⟩,
  ⟨.usage, none, some "version", false⟩,
  ⟨.showRestAndEnds, some 'e', none, false⟩,
  ⟨.showRestAndTabs, some 't', none, false⟩,
  ⟨.nothing, some 'u', none, false⟩]

structure Style where
  numbers : Bool := false
  /-- Only lines with something in them are numbered. -/
  onlyFilled : Bool := false
  squeezes : Bool := false
  ends : Bool := false
  tabs : Bool := false
  /-- All other characters without a glyph are shown. -/
  rest : Bool := false

def Style.add (s : Style) : Meaning → Style
  | .numberFilled => { s with numbers := true, onlyFilled := true }
  | .number => { s with numbers := true }
  | .squeeze => { s with squeezes := true }
  | .showRest => { s with rest := true }
  | .showEnds => { s with ends := true }
  | .showTabs => { s with tabs := true }
  | .showAll => { s with rest := true, ends := true, tabs := true }
  | .showRestAndEnds => { s with rest := true, ends := true }
  | .showRestAndTabs => { s with rest := true, tabs := true }
  | .nothing | .usage => s

/-! ### Lines -/

/-- An octet in caret notation, unless it is a tab that stays. -/
def caret (tabs : Bool) (b : UInt8) : List Char :=
  if b = 127 then ['^', '?']
  else if 32 ≤ b then [Text.visibleChar b]
  else if b = 9 && !tabs then ['\t']
  else ['^', Text.visibleChar (b + 64)]

/-- An octet outside of ASCII is shown by the one that has the same lower bits. -/
def shownOctet (tabs : Bool) (b : UInt8) : List Char :=
  if b < 128 then caret tabs b else ['M', '-'] ++ caret true (b - 128)

/-- The characters of a line before its end, which is there or not. -/
def Style.content (s : Style) (ended : Bool) (l : List Char) : List Char :=
  if s.rest then (Text.octets l).flatMap (shownOctet s.tabs)
  else
    let shown := l.flatMap fun c => if c = '\t' && s.tabs then ['^', 'I'] else [c]
    if s.ends && ended && shown.getLast? == some '\r' then shown.dropLast ++ ['^', 'M'] else shown

def Style.line (s : Style) (l : List Char) : List Char :=
  if l.getLast? = some '\n' then
    s.content true l.dropLast ++ if s.ends then ['$', '\n'] else ['\n']
  else s.content false l

def numberText (n : Nat) : List Char :=
  let digits := Nat.toDigits 10 n
  List.replicate (6 - digits.length) ' ' ++ digits ++ ['\t']

/-- The lines from number `n` on, after a blank line or not. -/
def Style.lines (s : Style) (n : Nat) (afterBlank : Bool) : List (List Char) → List Char
  | [] => []
  | l :: ls =>
    let blank := l == ['\n']
    if blank && afterBlank && s.squeezes then s.lines n true ls
    else if s.numbers && !(s.onlyFilled && blank) then
      numberText n ++ s.line l ++ s.lines (n + 1) blank ls
    else s.line l ++ s.lines n blank ls

def Style.apply (s : Style) (text : String) : String :=
  String.ofList (s.lines 1 false (linesBy '\n' text.toList))

/-! ### Files -/

/-- One after another; files that cannot be read are passed over with a complaint. -/
def readAll (d : Disk) (self : String) : List String → ToolResult
  | [] => .success ""
  | path :: rest =>
    let r := readAll d self rest
    if path = "-" then r
    else
      match d.read path with
      | .ok text => { r with output := text ++ r.output }
      | .error e =>
        let failed := ToolResult.failure self (Text.shellName path ++ ": " ++ e.reason) 1
        { failed with output := r.output, complaint := failed.complaint ++ r.complaint }

/-- The style and the files that are asked for, or an answer without any. -/
def readItems (self : String) (s : Style) :
    List (SwitchItem Meaning) → Except ToolResult (Style × List String)
  | [] => pure (s, [])
  | .wrong complaint :: _ => throw (.misuse self complaint)
  | .switch .usage _ :: _ => throw (.usage self)
  | .switch m _ :: rest => readItems self (s.add m) rest
  | .operand path :: rest => do
    let (s, paths) ← readItems self s rest
    pure (s, path :: paths)

def run (d : Disk) (self : String) (args : List String) : ToolResult :=
  match readItems self {} (Switch.read switches args) with
  | .error r => r
  | .ok (s, paths) =>
    let r := readAll d self (if paths.isEmpty then ["-"] else paths)
    { r with output := s.apply r.output }

end Bindery.Tool.Cat
