import Bindery.Text.Octets

/-!
# Words for a shell

How a tool spells a word in what it says. A name is spelled so that a shell would read it back, a
word of another kind between quotes with escapes. Outside of ASCII everything is escaped, octet by
octet.
-/

namespace Bindery.Text

/-- The letter that stands for a control character after a backslash. -/
def escapeLetter? (b : UInt8) : Option Char :=
  match b with
  | 7 => some 'a'
  | 8 => some 'b'
  | 9 => some 't'
  | 10 => some 'n'
  | 11 => some 'v'
  | 12 => some 'f'
  | 13 => some 'r'
  | _ => none

def octalDigits (b : UInt8) : List Char :=
  [b / 64, b / 8 % 8, b % 8].map fun digit => Nat.digitChar digit.toNat

def escapeOctet (b : UInt8) : List Char :=
  '\\' ::
    match escapeLetter? b with
    | some c => [c]
    | none => octalDigits b

def visibleChar (b : UInt8) : Char := Char.ofNat b.toNat

/-! ### Words between quotes -/

def quoteOctet (b : UInt8) : List Char :=
  if !isVisible b then escapeOctet b
  else
    let c := visibleChar b
    if c = '\'' ∨ c = '\\' then ['\\', c] else [c]

/-- A word between single quotes. -/
def quotedWord (s : String) : String :=
  String.ofList (['\''] ++ (octets s.toList).flatMap quoteOctet ++ ['\''])

/-! ### Names -/

/-- The characters that mean something to a shell wherever they stand. -/
def shellSpecial : List Char :=
  ['!', '"', '$', '&', '(', ')', '*', ';', '<', '=', '>', '?', '[', '\\', '^', '`', '|']

/-- Whether a name means something else to a shell when it stands there bare. -/
def needsQuotes (l : List Char) : Bool :=
  match l with
  | [] | ['\x7b'] | ['\x7d'] => true
  | c :: _ =>
    c == '#' || c == '~' || l.any fun c =>
      c == ' ' || c == '\'' || c == ':' || shellSpecial.contains c ||
        (String.utf8EncodeChar c).any fun b => !isVisible b

/-- Whether a character stands for itself between double quotes. A comment sign and a tilde count
only at the start of a name. -/
def isPlain (atStart : Bool) (c : Char) : Bool :=
  (String.utf8EncodeChar c).all isVisible && !shellSpecial.contains c && c != '\x7b' &&
    c != '\x7d' && (atStart || (c != '#' && c != '~'))

/-- Whether a name has an apostrophe and nothing else that would need single quotes. -/
def hasOnlyApostrophes (l : List Char) : Bool :=
  l.contains '\'' &&
    match l with
    | [] => true
    | c :: rest => isPlain true c && rest.all (isPlain false)

/-- The inside of single quotes, an escape sequence being open or not. -/
def shellOctets : Bool → List UInt8 → List Char
  | _, [] => []
  | escaping, b :: rest =>
    if b = 39 then ['\'', '\\', '\'', '\''] ++ shellOctets false rest
    else if isVisible b then
      (if escaping then ['\'', '\''] else []) ++ visibleChar b :: shellOctets false rest
    else (if escaping then [] else ['\'', '$', '\'']) ++ escapeOctet b ++ shellOctets true rest

/-- Whether a name with an apostrophe ends in an escape sequence. Such a name is begun as if it were
in one. -/
def opensEscaped (l : List UInt8) : Bool := l.contains 39 && !(l.getLast?.all isVisible)

/-- A name between quotes. -/
def shellQuoted (s : String) : String :=
  if hasOnlyApostrophes s.toList then "\"" ++ s ++ "\""
  else
    let l := octets s.toList
    String.ofList (['\''] ++ shellOctets (opensEscaped l) l ++ ['\''])

/-- A name, between quotes if it needs them. -/
def shellName (s : String) : String := if needsQuotes s.toList then shellQuoted s else s

end Bindery.Text
