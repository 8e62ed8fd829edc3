import Bindery.Parsing.Tool.Basic

/-!
# Printing words

`echo` prints its words with blanks between them. With escapes switched on, a backslash and what
follows stand for another octet, or end the output.
-/

namespace Bindery.Tool.Echo

/-- Whether a word is a cluster of switches; any other word starts what is printed. -/
def isSwitches (word : String) : Bool :=
  match word.toList with
  | '-' :: c :: rest => (c :: rest).all fun c => c == 'n' || c == 'e' || c == 'E'
  | _ => false

/-- Whether escapes are switched on: the last word on it counts. -/
def hasEscapes (letters : List Char) : Bool :=
  (letters.reverse.find? fun c => c == 'e' || c == 'E') == some 'e'

def hexDigit? (c : Char) : Option Nat :=
  if c.isDigit then some (c.toNat - 48)
  else if 'a' ≤ c && c ≤ 'f' then some (c.toNat - 87)
  else if 'A' ≤ c && c ≤ 'F' then some (c.toNat - 55)
  else none

def octalDigit? (c : Char) : Option Nat := if '0' ≤ c && c ≤ '7' then some (c.toNat - 48) else none

/-- The value of up to `n` digits on top of `value`, and what follows them. -/
def readDigits (base : Nat) (digit? : Char → Option Nat) :
    (n value : Nat) → List Char → Nat × List Char
  | n + 1, value, c :: rest =>
    match digit? c with
    | some k => readDigits base digit? n (value * base + k) rest
    | none => (value, c :: rest)
  | _, value, l => (value, l)

/-- The octet of an escape that is a single letter. -/
def letterOctet? : Char → Option UInt8
  | 'a' => some 7
  | 'b' => some 8
  | 'e' => some 27
  | 'f' => some 12
  | 'n' => some 10
  | 'r' => some 13
  | 't' => some 9
  | 'v' => some 11
  | '\\' => some 92
  | _ => none

/-- The octets that the characters after a backslash stand for, and the rest; nothing if the output
ends here. A backslash that starts no escape is one. -/
def readEscape : List Char → Option (List UInt8 × List Char)
  | [] => some ([92], [])
  | 'c' :: _ => none
  | 'x' :: rest =>
    match readDigits 16 hexDigit? 2 0 rest with
    | (value, after) =>
      if after.length = rest.length then some ([92, 120], rest) else some ([value.toUInt8], after)
  | '0' :: rest =>
    match readDigits 8 octalDigit? 3 0 rest with
    | (value, after) => some ([value.toUInt8], after)
  | c :: rest =>
    match octalDigit? c, letterOctet? c with
    | some _, _ =>
      match readDigits 8 octalDigit? 3 0 (c :: rest) with
      | (value, after) => some ([value.toUInt8], after)
    | none, some b => some ([b], rest)
    | none, none => some (92 :: String.utf8EncodeChar c, rest)

theorem length_readDigits_le (base : Nat) (digit? : Char → Option Nat) (n value : Nat)
    (l : List Char) : (readDigits base digit? n value l).2.length ≤ l.length := by
  fun_induction readDigits base digit? n value l with
  | case1 => simp only [List.length_cons]; omega
  | case2 => exact Nat.le_refl _
  | case3 => exact Nat.le_refl _

theorem length_readEscape_le {l after : List Char} {b : List UInt8}
    (h : readEscape l = some (b, after)) : after.length ≤ l.length := by
  have hd := length_readDigits_le
  unfold readEscape at h
  grind

/-- The octets of a word with its escapes, and whether the output goes on after it. -/
def unescape : List Char → List UInt8 × Bool
  | [] => ([], true)
  | '\\' :: rest =>
    match h : readEscape rest with
    | none => ([], false)
    | some (b, after) =>
      have := length_readEscape_le h
      let (more, goesOn) := unescape after
      (b ++ more, goesOn)
  | c :: rest =>
    let (more, goesOn) := unescape rest
    (String.utf8EncodeChar c ++ more, goesOn)
termination_by l => l.length

def run (self : String) (args : List String) : ToolResult :=
  match args with
  | ["--help"] | ["--version"] => .usage self
  | _ =>
    let letters := (args.takeWhile isSwitches).flatMap String.toList
    let text := Text.join " " (args.dropWhile isSwitches)
    let lineEnd := if letters.contains 'n' then "" else "\n"
    if hasEscapes letters then
      let (l, goesOn) := unescape text.toList
      let ending := if goesOn then Text.octets lineEnd.toList else []
      .success (String.ofList (Text.ofOctets (l ++ ending)))
    else .success (text ++ lineEnd)

end Bindery.Tool.Echo
