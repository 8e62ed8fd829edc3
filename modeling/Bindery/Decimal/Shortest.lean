/-!
# Shortest decimal digits of a double

A double stands for every real number that rounds to it. Among the decimal numbers in that range
`shortest` takes one with the fewest digits, and of those the nearest. All arithmetic is exact.
-/

namespace Bindery.Decimal

/-- A positive double and the reals that round to it, in units of `2 ^ scale`. The ends belong to
the range when the significand is even. -/
structure Span where
  low : Nat
  value : Nat
  high : Nat
  closed : Bool
  scale : Int

def Span.ofBits (bits : UInt64) : Span :=
  let fraction : Nat := bits.toNat % Nat.pow 2 52
  let exponent : Nat := bits.toNat / Nat.pow 2 52 % Nat.pow 2 11
  let m := if exponent = 0 then fraction else fraction + Nat.pow 2 52
  { low := if fraction = 0 && exponent > 1 then 4 * m - 1 else 4 * m - 2
    value := 4 * m
    high := 4 * m + 2
    closed := m % 2 == 0
    scale := (max exponent 1 : Nat) - 1077 }

/-- The value as a quotient of natural numbers. -/
def Span.quotient (s : Span) : Nat × Nat :=
  (s.value * Nat.pow 2 s.scale.toNat, Nat.pow 2 (-s.scale).toNat)

/-- The multiple of `10 ^ unit` next to the value that rounds to it, if one does. -/
def Span.onGrid? (s : Span) (unit : Int) : Option Nat :=
  let binary := Nat.pow 2 s.scale.toNat * Nat.pow 10 (-unit).toNat
  let decimal := Nat.pow 2 (-s.scale).toNat * Nat.pow 10 unit.toNat
  let below := s.value * binary / decimal
  let inside (c : Nat) : Bool :=
    if s.closed then s.low * binary ≤ c * decimal && c * decimal ≤ s.high * binary
    else s.low * binary < c * decimal && c * decimal < s.high * binary
  match inside below, inside (below + 1) with
  | false, false => none
  | true, false => some below
  | false, true => some (below + 1)
  | true, true =>
    let down := s.value * binary - below * decimal
    let up := (below + 1) * decimal - s.value * binary
    if down < up || (down == up && below % 2 == 0) then some below else some (below + 1)

/-- The least `k ≤ fuel` for which `num * 10 ^ k` reaches `den`. -/
def leadingZeros (num den : Nat) : Nat → Nat
  | 0 => 0
  | fuel + 1 => if den ≤ num then 0 else leadingZeros (num * 10) den fuel + 1

/-- The place of the first digit: 0 for units, 1 for tens, −1 for tenths. -/
def Span.firstPlace (s : Span) : Int :=
  let (num, den) := s.quotient
  if den ≤ num then (Nat.toDigits 10 (num / den)).length - 1
  else -leadingZeros num den 400

structure Digits where
  /-- The digits, the first of them and the last different from zero. -/
  digits : List Char
  /-- The place of the first digit. -/
  place : Int

def dropTrailingZeros (l : List Char) : List Char := (l.reverse.dropWhile (· == '0')).reverse

/-- The shortest digits of a positive double, tried with one digit, two, and so on. -/
def shortest (bits : UInt64) : Digits :=
  let s := Span.ofBits bits
  let first := s.firstPlace
  let found := (List.range 17).findSome? fun (n : Nat) =>
    (s.onGrid? (first - n)).map fun c => (c, first - n)
  match found with
  | some (c, unit) =>
    let digits := Nat.toDigits 10 c
    { digits := dropTrailingZeros digits, place := unit + digits.length - 1 }
  | none => { digits := ['0'], place := 0 }

end Bindery.Decimal
