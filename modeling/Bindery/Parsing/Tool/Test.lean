import Bindery.Parsing.Tool.Basic

/-!
# Tests

`test` answers with its status alone: 0 if its words are a test that holds, 1 if they are one that
does not, 2 if they are none. Up to four words are read by their number, so that an operator may
also stand as an operand; more words are an expression, in which `-a` binds closer than `-o`.
-/

namespace Bindery.Tool.Test

def quote (word : String) : String := Text.quotedWord word

/-! ### Single tests -/

/-- The number in a word; blanks around it do not count. -/
def integer? (word : String) : Option Int :=
  let isBlank (c : Char) : Bool := c == ' ' || ('\t' ≤ c && c ≤ '\r')
  let natural? (l : List Char) : Option Nat :=
    let rest := l.dropWhile Char.isDigit
    if l.head?.any Char.isDigit && rest.all isBlank then
      some (Nat.ofDigitChars 10 (l.takeWhile Char.isDigit) 0)
    else none
  match word.toList.dropWhile isBlank with
  | '-' :: l => (natural? l).map fun n => -(n : Int)
  | '+' :: l => (natural? l).map Int.ofNat
  | l => (natural? l).map Int.ofNat

def integer (word : String) : Except String Int :=
  match integer? word with
  | some i => pure i
  | none => throw ("invalid integer " ++ quote word)

def hasContent (d : Disk) (path : String) : Bool :=
  match d.look path with
  | .ok (.file text) => text != ""
  | .ok .folder => true
  | .error _ => false

/-- A test of one word. All files belong to the one who asks and none may be run. -/
def unary? (d : Disk) : String → Option (String → Except String Bool)
  | "-n" => some fun word => pure (word != "")
  | "-z" => some fun word => pure (word == "")
  | "-e" | "-r" | "-w" | "-O" | "-G" => some fun path => pure (d.has path)
  | "-d" | "-x" => some fun path => pure (d.isFolder path)
  | "-f" => some fun path => pure (d.has path && !d.isFolder path)
  | "-s" => some fun path => pure (hasContent d path)
  | "-t" => some fun word => do
    let _ ← integer word
    pure false
  | "-N" | "-b" | "-c" | "-p" | "-S" | "-h" | "-L" | "-u" | "-g" | "-k" => some fun _ => pure false
  | _ => none

/-- An operand of a test of two words, or its length in octets. -/
structure Operand where
  word : String
  byLength : Bool

def Operand.number (o : Operand) : Except String Int :=
  if o.byLength then pure o.word.utf8ByteSize else integer o.word

def compareNumbers (holds : Int → Int → Bool) (a b : Operand) : Except String Bool := do
  pure (holds (← a.number) (← b.number))

def compareFiles (op : String) (holds : String → String → Bool) (a b : Operand) :
    Except String Bool :=
  if a.byLength || b.byLength then throw (op ++ " does not accept -l")
  else pure (holds a.word b.word)

/-- Whether two paths lead to one place. -/
def samePlace (d : Disk) (a b : String) : Bool :=
  d.has a && d.has b && (d.locate a).toOption == (d.locate b).toOption

/-- A test of two words. A text with a length to its right gives way to the operator. -/
def binary? (d : Disk) (op : String) : Option (Operand → Operand → Except String Bool) :=
  let text (a b : Operand) : String := if b.byLength then op else a.word
  match op with
  | "=" | "==" => some fun a b => pure (text a b == b.word)
  | "!=" => some fun a b => pure (text a b != b.word)
  | "-eq" => some (compareNumbers fun a b => a == b)
  | "-ne" => some (compareNumbers fun a b => a != b)
  | "-lt" => some (compareNumbers fun a b => a < b)
  | "-le" => some (compareNumbers fun a b => a ≤ b)
  | "-gt" => some (compareNumbers fun a b => a > b)
  | "-ge" => some (compareNumbers fun a b => a ≥ b)
  | "-nt" => some (compareFiles op fun a b => d.has a && !d.has b)
  | "-ot" => some (compareFiles op fun a b => d.has b && !d.has a)
  | "-ef" => some (compareFiles op (samePlace d))
  | _ => none

/-! ### Expressions -/

/-- What a test is read against: the disk, and the last word of all, which is named when words are
lacking. -/
structure Scene where
  disk : Disk
  last : String

namespace Scene
variable (s : Scene)

def lacking {α : Type} : Except String α := throw ("missing argument after " ++ quote s.last)

/-- Whether a word has the form of a test of one word. -/
def isLetter (word : String) : Bool := word.utf8ByteSize == 2 && word.toList.head? == some '-'

def isBinary (word : String) : Bool := (binary? s.disk word).isSome

/-- What a test of one or two words comes to, and the words after it. -/
abbrev Verdict := Except String (Bool × List String)

def one : List String → Verdict
  | [] => s.lacking
  | word :: rest => pure (word != "", rest)

def unary (op : String) (rest : List String) : Verdict :=
  match unary? s.disk op, rest with
  | none, _ => throw (quote op ++ ": unary operator expected")
  | some _, [] => s.lacking
  | some holds, word :: rest => do pure (← holds word, rest)

def binary (op : String) (a b : Operand) (rest : List String) : Verdict :=
  match binary? s.disk op with
  | none => throw (quote op ++ ": unknown binary operator")
  | some holds => do pure (← holds a b, rest)

def two : List String → Verdict
  | "!" :: rest => do
    let (b, rest) ← s.one rest
    pure (!b, rest)
  | word :: rest => if isLetter word then s.unary word rest else s.lacking
  | [] => s.lacking

/-- A test of two words, with the operator in second place. -/
def infixed (byLength : Bool) : List String → Verdict
  | left :: op :: "-l" :: right :: rest => s.binary op ⟨left, byLength⟩ ⟨right, true⟩ rest
  | left :: op :: right :: rest => s.binary op ⟨left, byLength⟩ ⟨right, false⟩ rest
  | _ => s.lacking

/-- How many words a group has that goes up to a closing parenthesis; a long one goes to the end. -/
def groupSize (l : List String) : Nat :=
  let size := 1 + ((l.drop 1).takeWhile (· != ")")).length
  if size ≤ 4 then size else l.length

/-- The words after a closing parenthesis. -/
def afterGroup : Bool × List String → Verdict
  | (b, ")" :: rest) => pure (b, rest)
  | (_, []) => throw (quote ")" ++ " expected")
  | (_, word :: _) => throw (quote ")" ++ " expected, found " ++ quote word)

/-- A term that is neither negated nor in parentheses, nor starts with a length. -/
def simple (word : String) (rest : List String) : Verdict :=
  if rest.head?.any s.isBinary && 2 ≤ rest.length then s.infixed false (word :: rest)
  else if isLetter word then s.unary word rest
  else pure (word != "", rest)

/-- Three words, of which the second is looked at first; they may also be an expression. -/
def three (expression : List String → Verdict) (l : List String) : Verdict :=
  match l with
  | a :: op :: b :: rest =>
    if s.isBinary op then s.infixed false l
    else if a = "!" then do
      let (holds, rest) ← s.two (op :: b :: rest)
      pure (!holds, rest)
    else if a = "(" ∧ b = ")" then pure (op != "", rest)
    else if op = "-a" ∨ op = "-o" then expression l
    else throw (quote op ++ ": binary operator expected")
  | _ => s.lacking

mutual

/-- Conjunctions with `-o` between them. -/
def disjunction : Nat → List String → Verdict
  | 0, _ => s.lacking
  | fuel + 1, l => do
    let (a, rest) ← conjunction fuel l
    match rest with
    | "-o" :: rest =>
      let (b, rest) ← disjunction fuel rest
      pure (a || b, rest)
    | _ => pure (a, rest)

/-- Terms with `-a` between them. -/
def conjunction : Nat → List String → Verdict
  | 0, _ => s.lacking
  | fuel + 1, l => do
    let (a, rest) ← term fuel l
    match rest with
    | "-a" :: rest =>
      let (b, rest) ← conjunction fuel rest
      pure (a && b, rest)
    | _ => pure (a, rest)

def term : Nat → List String → Verdict
  | 0, _ | _, [] => s.lacking
  | fuel + 1, "!" :: rest => do
    let (b, rest) ← term fuel rest
    pure (!b, rest)
  | fuel + 1, "(" :: rest => do
    if rest.isEmpty then s.lacking else afterGroup (← sized fuel (groupSize rest) rest)
  | _, word :: rest =>
    match rest with
    | _ :: op :: _ :: _ =>
      if word = "-l" ∧ s.isBinary op then s.infixed true rest else s.simple word rest
    | _ => s.simple word rest

/-- A test of so many words. -/
def sized : Nat → Nat → List String → Verdict
  | 0, _, _ => s.lacking
  | fuel + 1, size, l =>
    match size, l with
    | 1, l => s.one l
    | 2, l => s.two l
    | 3, l => s.three (disjunction fuel) l
    | 4, "!" :: rest => do
      let (b, rest) ← s.three (disjunction fuel) rest
      pure (!b, rest)
    | 4, "(" :: a :: b :: ")" :: rest => do
      let (holds, _) ← s.two [a, b]
      pure (holds, rest)
    | _, l => disjunction fuel l

end

end Scene

/-- Whether the words are a test that holds. A word takes at most four steps. -/
def verdict (d : Disk) (words : List String) : Except String Bool := do
  match words with
  | [] => pure false
  | _ =>
    let s : Scene := ⟨d, words.getLastD ""⟩
    match ← s.sized (4 * words.length + 8) words.length words with
    | (b, []) => pure b
    | (_, extra :: _) => throw ("extra argument " ++ quote extra)

def run (d : Disk) (self : String) (args : List String) : ToolResult :=
  match verdict d args with
  | .ok b => ⟨"", "", if b then 0 else 1⟩
  | .error complaint => .failure self complaint 2

end Bindery.Tool.Test
