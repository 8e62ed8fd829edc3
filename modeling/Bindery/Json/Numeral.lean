import Bindery.Json.Basic
import Bindery.Decimal.Shortest

/-!
# Numerals

How a JSON numeral gets its value and how a number is written. A numeral without fraction and
exponent that fits 64 bits is an integer. Any other is a double: its first digits, as many as fit
64 bits, are taken as an integer and scaled by one power of ten.
-/

namespace Bindery.Json

/-- The parts of a numeral, digits only. -/
structure Numeral where
  negative : Bool
  whole : List Char
  fraction : Option (List Char)
  /-- Whether the exponent is negative, and its digits. -/
  exponent : Option (Bool × List Char)

namespace Numeral

def digitValue (c : Char) : Nat := c.toNat - '0'.toNat

def natOfDigits (l : List Char) : Nat := l.foldl (fun n c => n * 10 + digitValue c) 0

/-- Takes digits in after `significand` as long as the result fits 64 bits, and tells how many. -/
def takeDigits (significand : Nat) : List Char → Nat × Nat
  | [] => (significand, 0)
  | c :: rest =>
    let next := significand * 10 + digitValue c
    if next < Nat.pow 2 64 then
      let (s, n) := takeDigits next rest
      (s, n + 1)
    else (significand, 0)

/-- A power of ten with an exponent up to 308. -/
def powerOfTen (n : Nat) : Float := Float.ofScientific 1 false n

/-- `f * 10 ^ exponent`; nothing when that is out of range. -/
def scale (f : Float) (exponent : Int) : Option Float :=
  if exponent.natAbs ≤ 308 then
    if exponent ≥ 0 then
      let g := f * powerOfTen exponent.toNat
      if g.isInf then none else some g
    else some (f / powerOfTen exponent.natAbs)
  else if f == 0 then some f
  else if h : exponent ≥ 0 then none
  else scale (f / powerOfTen 308) (exponent + 308)
termination_by exponent.natAbs
decreasing_by omega

/-- The size of the numeral as a double; nothing when it is out of range. -/
def magnitude? (n : Numeral) : Option Float :=
  let (s, taken) := takeDigits 0 n.whole
  let dropped := n.whole.length - taken
  let (s, places) := takeDigits s (n.fraction.getD [])
  let start := (dropped : Int) - places
  match n.exponent with
  | none => scale s.toUInt64.toFloat start
  | some (down, digits) =>
    let e := natOfDigits digits
    if e < Nat.pow 2 31 then scale s.toUInt64.toFloat (if down then start - e else start + e)
    else if s ≠ 0 && !down then none
    else some 0

/-- The value of the numeral; nothing when no finite double is meant. -/
def value? (n : Numeral) : Option Number :=
  let whole := natOfDigits n.whole
  let isInteger := n.fraction.isNone && n.exponent.isNone
  if isInteger && !n.negative && whole < Nat.pow 2 64 then some (.integer whole)
  else if isInteger && n.negative && 0 < whole && whole ≤ Nat.pow 2 63 then
    some (.integer (-whole))
  else n.magnitude?.map fun f => .double (if n.negative then -f else f).toBits

end Numeral

namespace Number

/-- First digits at these places are written positionally, all others with an exponent. -/
structure Layout where
  lowestPlace : Int
  highestPlace : Int

/-- From hundred-thousandths up to 10 ^ 15 the point is written where it belongs, with at least one
digit after it; an exponent always has its sign. -/
def layout : Layout := ⟨-5, 15⟩

def zeros (n : Nat) : List Char := List.replicate n '0'

def Layout.write (l : Layout) (d : Decimal.Digits) : List Char :=
  if l.lowestPlace ≤ d.place && d.place ≤ l.highestPlace then
    if d.place < 0 then ['0', '.'] ++ zeros (d.place.natAbs - 1) ++ d.digits
    else
      let wholeLength := d.place.toNat + 1
      if d.digits.length ≤ wholeLength then
        d.digits ++ zeros (wholeLength - d.digits.length) ++ ['.', '0']
      else d.digits.take wholeLength ++ ['.'] ++ d.digits.drop wholeLength
  else
    let mantissa :=
      match d.digits with
      | c :: (c' :: rest) => c :: '.' :: c' :: rest
      | l => l
    mantissa ++ ['e', if d.place < 0 then '-' else '+'] ++ Nat.toDigits 10 d.place.natAbs

/-- The text of a number. -/
def text : Number → String
  | .integer i => toString i
  | .double bits =>
    let negative := bits.toNat ≥ Nat.pow 2 63
    let size := UInt64.ofNat (bits.toNat % Nat.pow 2 63)
    let body := if size = 0 then ['0', '.', '0'] else layout.write (Decimal.shortest size)
    String.ofList (if negative then '-' :: body else body)

end Number

end Bindery.Json
