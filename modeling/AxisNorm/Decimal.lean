import AxisNorm.Float.Single

/-!
# Decimal numerals

The numerals that stand for floating-point numbers: an optional sign, then digits with at most one
point and at least one digit in all, then an optional exponent; or a word for infinity or for no
value, in any case.

* `Numeral.parse?`: the reader.
* `Decimal.value`: the exact value of a numeral in digits.
* `Numeral.toSingle`: that value rounded once.
-/

namespace AxisNorm

/-- The number `coefficient · 10 ^ exponent` with a sign. -/
structure Decimal where
  negative : Bool
  coefficient : Nat
  exponent : Int
  deriving DecidableEq, Repr

/-- A numeral that has been read. -/
inductive Numeral where
  | finite (d : Decimal)
  | infinite (negative : Bool)
  | nan
  deriving DecidableEq, Repr

namespace Decimal

/-- The magnitude of a numeral, exactly. -/
def value (d : Decimal) : Rat := (d.coefficient : Rat) * 10 ^ d.exponent

/-- The nearest single-precision number. An exponent that puts the value far outside the format
decides the result by itself, so that no huge power is formed. -/
def toSingle (d : Decimal) : Single :=
  if d.coefficient = 0 then .ofMagnitude d.negative 0
  else if 40 ≤ d.exponent then .ofMagnitude d.negative Format.binary32.infinity
  else if d.exponent + d.coefficient.log2 < -60 then .ofMagnitude d.negative 0
  else .ofMagnitude d.negative (Format.binary32.nearest d.value)

end Decimal

namespace Numeral

/-- The number that a run of digits stands for, after `start`. -/
def natOf (start : Nat) (cs : List Char) : Nat :=
  cs.foldl (fun n c => 10 * n + (c.toNat - '0'.toNat)) start

/-- The leading digits, and the rest. -/
def spanDigits (cs : List Char) : List Char × List Char := cs.span Char.isDigit

/-- A sign if there is one: whether it is a minus, and the rest. -/
def spanSign : List Char → Bool × List Char
  | '-' :: cs => (true, cs)
  | '+' :: cs => (false, cs)
  | cs => (false, cs)

/-- What follows the digits: nothing, or an exponent with at least one digit. -/
def exponent? : List Char → Option Int
  | [] => some 0
  | c :: cs =>
    if c = 'e' ∨ c = 'E' then
      let (negative, cs) := spanSign cs
      let (ds, rest) := spanDigits cs
      if ds = [] ∨ rest ≠ [] then none
      else some (if negative then -(natOf 0 ds : Int) else natOf 0 ds)
    else none

/-- Digits before and after the point, if there is one, and the rest. -/
def spanFraction (cs : List Char) : List Char × List Char × List Char :=
  let (whole, rest) := spanDigits cs
  match rest with
  | '.' :: rest =>
    let (fraction, rest) := spanDigits rest
    (whole, fraction, rest)
  | _ => (whole, [], rest)

/-- Digits with an optional point and exponent. -/
def digits? (negative : Bool) (cs : List Char) : Option Decimal :=
  let (whole, fraction, rest) := spanFraction cs
  if whole = [] ∧ fraction = [] then none
  else (exponent? rest).map fun e =>
    { negative, coefficient := natOf (natOf 0 whole) fraction, exponent := e - fraction.length }

/-- The words for infinity and for no value. -/
def word? (negative : Bool) (cs : List Char) : Option Numeral :=
  let word := cs.map Char.toLower
  if word = "inf".toList ∨ word = "infinity".toList then some (.infinite negative)
  else if word = "nan".toList then some .nan
  else none

/-- Reads the whole text as a numeral. -/
def parse? (cs : List Char) : Option Numeral :=
  let (negative, cs) := spanSign cs
  match digits? negative cs with
  | some d => some (.finite d)
  | none => word? negative cs

def toSingle : Numeral → Single
  | .finite d => d.toSingle
  | .infinite s => .ofMagnitude s Format.binary32.infinity
  | .nan => .nan

end Numeral

end AxisNorm
