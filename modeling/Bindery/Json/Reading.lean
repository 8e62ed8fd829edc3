import Bindery.Json.Numeral

/-!
# Reading JSON text

`Reading.ofText` reads one value from the start of a text and pays no heed to what follows it. It
never fails: a fault stays in the reading at the place where it was met. So whoever walks the
reading from left to right meets faults of the text and wrong values in the order of the text.

Some faults matter only to a reader who looks at the value: a number that is out of range, half of
a surrogate pair, containers nested too deep. Those are `skippable`.
-/

namespace Bindery.Json

inductive Reading where
  | null
  | bool (b : Bool)
  | number (n : Number)
  | string (s : String)
  /-- The items up to the closing bracket or, if it is not `closed`, up to a fault. -/
  | array (items : List Reading) (closed : Bool)
  /-- The members likewise; a key with a skippable fault is `none`. -/
  | object (members : List (Option String × Reading)) (closed : Bool)
  | flawed (skippable : Bool)

namespace Reading

mutual

/-- Whether nothing in the reading stops those who pass over it. -/
def skippable : Reading → Bool
  | .array items closed => closed && skippableItems items
  | .object members closed => closed && skippableMembers members
  | .flawed s => s
  | _ => true

def skippableItems : List Reading → Bool
  | [] => true
  | r :: rest => skippable r && skippableItems rest

def skippableMembers : List (Option String × Reading) → Bool
  | [] => true
  | (_, r) :: rest => skippable r && skippableMembers rest

end

mutual

/-- The value, if the reading has no fault at all. -/
def toJson? : Reading → Option Json
  | .null => some .null
  | .bool b => some (.bool b)
  | .number n => some (.number n)
  | .string s => some (.string s)
  | .array items closed => if closed then (toJsonItems? items).map .array else none
  | .object members closed => if closed then (toJsonMembers? members).map .object else none
  | .flawed _ => none

def toJsonItems? : List Reading → Option (List Json)
  | [] => some []
  | r :: rest =>
    match toJson? r, toJsonItems? rest with
    | some v, some vs => some (v :: vs)
    | _, _ => none

def toJsonMembers? : List (Option String × Reading) → Option (List (String × Json))
  | [] => some []
  | (key, r) :: rest =>
    match key, toJson? r, toJsonMembers? rest with
    | some k, some v, some vs => some ((k, v) :: vs)
    | _, _, _ => none

end

mutual

/-- The faultless reading of a value. -/
def ofJson : Json → Reading
  | .null => .null
  | .bool b => .bool b
  | .number n => .number n
  | .string s => .string s
  | .array items => .array (ofItems items) true
  | .object members => .object (ofMembers members) true

def ofItems : List Json → List Reading
  | [] => []
  | v :: rest => ofJson v :: ofItems rest

def ofMembers : List (String × Json) → List (Option String × Reading)
  | [] => []
  | (key, v) :: rest => (some key, ofJson v) :: ofMembers rest

end

mutual

theorem toJson?_ofJson (v : Json) : (ofJson v).toJson? = some v := by
  cases v with
  | array items => simp [ofJson, toJson?, toJsonItems?_ofItems items]
  | object members => simp [ofJson, toJson?, toJsonMembers?_ofMembers members]
  | _ => rfl

theorem toJsonItems?_ofItems (l : List Json) : toJsonItems? (ofItems l) = some l := by
  cases l with
  | nil => rfl
  | cons v rest => simp [ofItems, toJsonItems?, toJson?_ofJson v, toJsonItems?_ofItems rest]

theorem toJsonMembers?_ofMembers (l : List (String × Json)) :
    toJsonMembers? (ofMembers l) = some l := by
  cases l with
  | nil => rfl
  | cons m rest =>
    obtain ⟨k, v⟩ := m
    simp [ofMembers, toJsonMembers?, toJson?_ofJson v, toJsonMembers?_ofMembers rest]

end

/-! ### Strings -/

/-- A character of a string, or sixteen bits given as `\u` and four hexadecimal digits. -/
inductive Piece where
  | char (c : Char)
  | unit (n : Nat)

def hexValue? (c : Char) : Option Nat :=
  if c.isDigit then some (c.toNat - '0'.toNat)
  else if 'a' ≤ c && c ≤ 'f' then some (c.toNat - 'a'.toNat + 10)
  else if 'A' ≤ c && c ≤ 'F' then some (c.toNat - 'A'.toNat + 10)
  else none

def unit? (a b c d : Char) : Option Nat := do
  some ((((← hexValue? a) * 16 + (← hexValue? b)) * 16 + (← hexValue? c)) * 16 + (← hexValue? d))

/-- The character that a backslash and this one stand for. -/
def escape? : Char → Option Char
  | '"' => some '"'
  | '\\' => some '\\'
  | '/' => some '/'
  | 'b' => some '\x08'
  | 'f' => some '\x0c'
  | 'n' => some '\n'
  | 'r' => some '\r'
  | 't' => some '\t'
  | _ => none

/-- The pieces up to the closing quote, and what follows it. -/
def pieces? : List Char → Option (List Piece × List Char)
  | [] => none
  | '"' :: rest => some ([], rest)
  | '\\' :: 'u' :: a :: b :: c :: d :: rest =>
    match unit? a b c d, pieces? rest with
    | some n, some (ps, rest) => some (.unit n :: ps, rest)
    | _, _ => none
  | ['\\'] => none
  | '\\' :: e :: rest =>
    match escape? e, pieces? rest with
    | some c, some (ps, rest) => some (.char c :: ps, rest)
    | _, _ => none
  | c :: rest =>
    if c.toNat < 0x20 then none else (pieces? rest).map fun (ps, rest) => (.char c :: ps, rest)

def isHighSurrogate (n : Nat) : Bool := 0xD800 ≤ n && n < 0xDC00

def isLowSurrogate (n : Nat) : Bool := 0xDC00 ≤ n && n < 0xE000

/-- The characters of the pieces, if surrogates come in pairs only. -/
def chars? : List Piece → Option (List Char)
  | [] => some []
  | .char c :: rest => (chars? rest).map (c :: ·)
  | .unit h :: .unit l :: rest =>
    if isHighSurrogate h && isLowSurrogate l then
      (chars? rest).map (Char.ofNat (0x10000 + (h - 0xD800) * 0x400 + (l - 0xDC00)) :: ·)
    else if isHighSurrogate h || isLowSurrogate h then none
    else (chars? (.unit l :: rest)).map (Char.ofNat h :: ·)
  | .unit h :: rest =>
    if isHighSurrogate h || isLowSurrogate h then none else (chars? rest).map (Char.ofNat h :: ·)

/-- The string that an opening quote was read of, `none` for one with a skippable fault, and the
text after it. -/
def string? (text : List Char) : Option (Option String × List Char) :=
  (pieces? text).map fun (ps, rest) => ((chars? ps).map String.ofList, rest)

/-! ### Numerals -/

def exponent? : List Char → Option (Option (Bool × List Char) × List Char)
  | c :: rest =>
    if c = 'e' || c = 'E' then
      let (down, rest) :=
        match rest with
        | '+' :: rest => (false, rest)
        | '-' :: rest => (true, rest)
        | rest => (false, rest)
      let digits := rest.takeWhile Char.isDigit
      if digits.isEmpty then none else some (some (down, digits), rest.dropWhile Char.isDigit)
    else some (none, c :: rest)
  | [] => some (none, [])

def fraction? : List Char → Option (Option (List Char) × List Char)
  | '.' :: rest =>
    let digits := rest.takeWhile Char.isDigit
    if digits.isEmpty then none else some (some digits, rest.dropWhile Char.isDigit)
  | rest => some (none, rest)

/-- The numeral at the start of a text. A leading zero stands alone. -/
def numeral? (text : List Char) : Option (Numeral × List Char) := do
  let (negative, text) :=
    match text with
    | '-' :: rest => (true, rest)
    | rest => (false, rest)
  let whole := text.takeWhile Char.isDigit
  if whole.isEmpty || (whole.head? == some '0' && whole.length > 1) then none
  else
    let (fraction, text) ← fraction? (text.dropWhile Char.isDigit)
    let (exponent, text) ← exponent? text
    some ({ negative, whole, fraction, exponent }, text)

/-! ### Values -/

def skipSpace (text : List Char) : List Char :=
  text.dropWhile fun c => c = ' ' || c = '\n' || c = '\t' || c = '\r'

/-- A container for which `room` levels were left: with none it can only be passed over. -/
def within (room : Nat) (r : Reading) : Reading := if room = 0 then .flawed r.skippable else r

mutual

/-- One value and the text after it; `fuel` bounds the steps, `room` the open containers. -/
def readValue : Nat → Nat → List Char → Reading × List Char
  | 0, _, _ => (.flawed false, [])
  | fuel + 1, room, text =>
    match skipSpace text with
    | 'n' :: 'u' :: 'l' :: 'l' :: rest => (.null, rest)
    | 't' :: 'r' :: 'u' :: 'e' :: rest => (.bool true, rest)
    | 'f' :: 'a' :: 'l' :: 's' :: 'e' :: rest => (.bool false, rest)
    | '"' :: rest =>
      match string? rest with
      | some (some s, rest) => (.string s, rest)
      | some (none, rest) => (.flawed true, rest)
      | none => (.flawed false, [])
    | '[' :: rest =>
      match skipSpace rest with
      | ']' :: rest => (within room (.array [] true), rest)
      | rest =>
        let (items, closed, rest) := readItems fuel (room - 1) rest
        (within room (.array items closed), rest)
    | '{' :: rest =>
      match skipSpace rest with
      | '}' :: rest => (within room (.object [] true), rest)
      | rest =>
        let (members, closed, rest) := readMembers fuel (room - 1) rest
        (within room (.object members closed), rest)
    | text =>
      match numeral? text with
      | some (n, rest) => (n.value?.elim (.flawed true) .number, rest)
      | none => (.flawed false, [])

/-- The items from the start of one on, whether the list is closed, and the text after it. -/
def readItems : Nat → Nat → List Char → List Reading × Bool × List Char
  | 0, _, _ => ([], false, [])
  | fuel + 1, room, text =>
    let (r, rest) := readValue fuel room text
    match skipSpace rest with
    | ']' :: rest => ([r], true, rest)
    | ',' :: rest =>
      let (items, closed, rest) :=
        match skipSpace rest with
        | ']' :: _ => ([], false, [])
        | rest => readItems fuel room rest
      (r :: items, closed, rest)
    | _ => ([r], false, [])

def readMembers : Nat → Nat → List Char → List (Option String × Reading) × Bool × List Char
  | 0, _, _ => ([], false, [])
  | fuel + 1, room, text =>
    match text with
    | '"' :: rest =>
      match string? rest with
      | none => ([], false, [])
      | some (key, rest) =>
        match skipSpace rest with
        | ':' :: rest =>
          let (r, rest) := readValue fuel room rest
          match skipSpace rest with
          | '}' :: rest => ([(key, r)], true, rest)
          | ',' :: rest =>
            let (members, closed, rest) := readMembers fuel room (skipSpace rest)
            ((key, r) :: members, closed, rest)
          | _ => ([(key, r)], false, [])
        | _ => ([(key, .flawed false)], false, [])
    | _ => ([], false, [])

end

/-- How deep containers may be nested. -/
def maxDepth : Nat := 127

/-- The value at the start of a text. -/
def ofText (text : String) : Reading :=
  let chars := text.toList
  (readValue (2 * chars.length + 2) maxDepth chars).1

end Reading

end Bindery.Json
