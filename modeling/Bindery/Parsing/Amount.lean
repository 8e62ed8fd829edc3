/-!
# Amounts

A number with a unit: `b` is 512, `k` and `K` are 1024, and `M`, `G` and so on are powers of it; with
a `B` after them they are powers of 1000. A unit alone is one of it.
-/

namespace Bindery.Amount

inductive Fault where
  | malformed
  | tooLarge
deriving DecidableEq

/-- Amounts are smaller than this. -/
def limit : Nat := Nat.pow 2 64

/-- The power of a thousand that a letter stands for, by its place. -/
def scales : List Char := ['k', 'M', 'G', 'T', 'P', 'E', 'Z', 'Y', 'R', 'Q']

def scale? (c : Char) : Option Nat :=
  (scales.findIdx? (· == if c = 'K' then 'k' else if c = 'm' then 'M' else c)).map (· + 1)

def unit? : List Char → Option Nat
  | [] => some 1
  | ['b'] => some 512
  | [c] | [c, 'i', 'B'] => (scale? c).map (Nat.pow 1024)
  | [c, 'B'] | [c, 'D'] => (scale? c).map (Nat.pow 1000)
  | _ => none

def isBlank (c : Char) : Bool := c == ' ' || ('\t' ≤ c && c ≤ '\r')

def read (l : List Char) : Except Fault Nat :=
  let unsigned :=
    match l.dropWhile isBlank with
    | '+' :: rest => rest
    | rest => rest
  let digits := unsigned.takeWhile Char.isDigit
  let (number, unit) :=
    if digits.isEmpty && !l.isEmpty then (1, l)
    else (Nat.ofDigitChars 10 digits 0, unsigned.drop digits.length)
  match l, unit? unit with
  | [], _ | _, none => throw .malformed
  | _, some n => if number < limit ∧ number * n < limit then pure (number * n) else throw .tooLarge

end Bindery.Amount
