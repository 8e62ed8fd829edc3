import Bindery.SortedMap

/-!
# Options

The words of a command line, sorted into options with their values. An option is written in full
after two dashes, or as one letter after a single dash, where letters of flags may stand together.
Its value follows as the next word, or in the same word. `scan` refuses a line with a word that
belongs to no option.
-/

namespace Bindery.CommandLine

/-- How many values an option takes. -/
inductive Arity where
  | flag
  | single
  /-- All words up to the next option, at least one. -/
  | many
deriving DecidableEq

structure OptionSpec where
  name : String
  letter? : Option Char
  arity : Arity
  /-- The values are paths, and so not empty. -/
  isPath : Bool
deriving DecidableEq

/-- One use of an option. -/
structure Use where
  spec : OptionSpec
  values : List String
deriving DecidableEq

/-- What a word may be. -/
inductive Word where
  | value
  /-- The end of the options. -/
  | finish
  | full (name : String) (attached? : Option String)
  | letters (l : List Char)
deriving DecidableEq

/-- A lone dash is a value. -/
def Word.ofText (word : String) : Word :=
  match word.toList with
  | ['-', '-'] => .finish
  | '-' :: '-' :: rest =>
    let name := String.ofList (rest.takeWhile (· != '='))
    match rest.dropWhile (· != '=') with
    | [] => .full name none
    | _ :: attached => .full name (some (String.ofList attached))
  | '-' :: c :: rest => .letters (c :: rest)
  | _ => .value

/-- The uses of a word's options. The last one may still be open: it takes its values from the words
that follow. -/
structure Opened where
  uses : List Use
  open? : Option OptionSpec

def openFull (specs : List OptionSpec) (name : String) (attached? : Option String) :
    Option Opened := do
  let spec ← specs.find? (·.name == name)
  match spec.arity, attached? with
  | .flag, none => some ⟨[⟨spec, []⟩], none⟩
  | .flag, some _ => none
  | _, none => some ⟨[], some spec⟩
  | _, some value => some ⟨[⟨spec, [value]⟩], none⟩

/-- After the letter of an option that takes values, the rest of the word is a value; an equals sign
before it does not belong to it. -/
def openLetters (specs : List OptionSpec) : List Char → Option Opened
  | [] => some ⟨[], none⟩
  | c :: rest => do
    let spec ← specs.find? (·.letter? == some c)
    match spec.arity, rest with
    | .flag, _ => do
      let o ← openLetters specs rest
      some { o with uses := ⟨spec, []⟩ :: o.uses }
    | _, [] => some ⟨[], some spec⟩
    | _, '=' :: value => some ⟨[⟨spec, [String.ofList value]⟩], none⟩
    | _, value => some ⟨[⟨spec, [String.ofList value]⟩], none⟩

/-- A use whose values end here. It needs at least one. -/
def close : Option Use → Option (List Use)
  | none => some []
  | some u => if u.values.isEmpty then none else some [u]

def takesMore (u : Use) : Bool := u.values.isEmpty || u.spec.arity == .many

/-- The uses of options in the words, `open?` being the one that is still taking values. -/
def scanFrom (specs : List OptionSpec) (open? : Option Use) : List String → Option (List Use)
  | [] => close open?
  | word :: rest =>
    match Word.ofText word with
    | .value =>
      match open? with
      | some u =>
        if takesMore u then scanFrom specs (some { u with values := u.values ++ [word] }) rest
        else none
      | none => none
    | .finish => if rest.isEmpty then close open? else none
    | .full name attached? => do
      let closed ← close open?
      let o ← openFull specs name attached?
      let uses ← scanFrom specs (o.open?.map (⟨·, []⟩)) rest
      some (closed ++ o.uses ++ uses)
    | .letters l => do
      let closed ← close open?
      let o ← openLetters specs l
      let uses ← scanFrom specs (o.open?.map (⟨·, []⟩)) rest
      some (closed ++ o.uses ++ uses)

/-- Only options with many values may be used again. -/
def isRepeatable (s : OptionSpec) : Bool := s.arity == .many

def noneRepeated : List Use → Bool
  | [] => true
  | u :: rest =>
    (isRepeatable u.spec || !rest.any fun v => v.spec.name == u.spec.name) && noneRepeated rest

def noEmptyPath (uses : List Use) : Bool :=
  uses.all fun u => !(u.spec.isPath && u.values.contains "")

/-- The uses of options in the words, if every word belongs to one. -/
def scan (specs : List OptionSpec) (words : List String) : Option (List Use) := do
  let uses ← scanFrom specs none words
  if noneRepeated uses && noEmptyPath uses then some uses else none

namespace Uses

def isGiven (uses : List Use) (s : OptionSpec) : Bool := uses.any (·.spec.name == s.name)

/-- All values of an option, in order. -/
def values (uses : List Use) (s : OptionSpec) : List String :=
  (uses.filter (·.spec.name == s.name)).flatMap (·.values)

def value? (uses : List Use) (s : OptionSpec) : Option String := (values uses s).head?

end Uses

end Bindery.CommandLine
