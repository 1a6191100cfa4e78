/-!
# Binary floating-point formats

A format without its sign: the encodings of the non-negative values are the natural numbers from
zero up, in the order of the values, and `infinity` follows the largest finite one.

* `Format.value`: the value of an encoding. It goes on past `infinity` as if the exponent had more
  bits, so that it is strictly increasing on all natural numbers.
* `Format.below`: the last encoding whose value does not exceed a given one.
* `Format.nearest`: rounding to the nearest encoding, ties to the even one.
-/

namespace AxisNorm

/-- A binary format: `precision` bits of significand, the hidden one included, and `exponentBits`. -/
structure Format where
  precision : Nat
  exponentBits : Nat
  deriving DecidableEq, Repr

/-- The exponent of the largest power of two that does not exceed a positive rational. -/
def leadingExponent (q : Rat) : Int :=
  let l : Int := (q.num.toNat.log2 : Int) - (q.den.log2 : Int)
  if (2 : Rat) ^ l ≤ q then l else l - 1

/-- Of `n` and its successor the one on the side of `x` seen from the middle between them; in the
middle the even one. -/
def nearerOf (n : Nat) (x middle : Rat) : Nat :=
  if x < middle then n else if middle < x then n + 1 else n + n % 2

namespace Format

def binary32 : Format := ⟨24, 8⟩

def binary64 : Format := ⟨53, 11⟩

/-- The upper half of `binary32`. -/
def bfloat16 : Format := ⟨8, 8⟩

variable (f : Format)

/-- The number of bits below the hidden one. -/
def fractionBits : Nat := f.precision - 1

/-- The exponent of the smallest positive value, which is a power of two. -/
def minExponent : Int := 3 - (1 <<< (f.exponentBits - 1) : Nat) - f.precision

/-- The encoding of infinity: all exponent bits set, no fraction. -/
def infinity : Nat := (1 <<< f.exponentBits - 1) <<< f.fractionBits

/-- The value of an encoding: the lowest binade has no hidden bit. -/
def value (n : Nat) : Rat :=
  let e := n >>> f.fractionBits
  let m := n % (1 <<< f.fractionBits)
  if e = 0 then (m : Rat) * 2 ^ f.minExponent
  else ((m + 1 <<< f.fractionBits : Nat) : Rat) * 2 ^ (f.minExponent + (e - 1 : Nat))

/-- The encoding of `significand · 2 ^ exponent`, where the significand has `precision` bits, or
fewer at the smallest exponent. -/
def encode (exponent : Int) (significand : Nat) : Nat :=
  (exponent - f.minExponent).toNat <<< f.fractionBits + significand

/-- The exponent of the last significand bit of a value whose leading bit has exponent `l`. -/
def lastExponent (l : Int) : Int := max f.minExponent (l - f.fractionBits)

/-- The last encoding whose value does not exceed `q`, for positive `q`. -/
def below (q : Rat) : Nat :=
  let k := f.lastExponent (leadingExponent q)
  f.encode k (q / 2 ^ k).floor.toNat

/-- The encoding nearest to `q`, ties to the even one; infinity if that is past the finite ones. -/
def nearest (q : Rat) : Nat :=
  if q = 0 then 0
  else
    let n := f.below q
    min (nearerOf n (2 * q) (f.value n + f.value (n + 1))) f.infinity

/-- The last encoding whose value does not exceed the square root of `q`, for positive `q`. -/
def belowRoot (q : Rat) : Nat :=
  let k := f.lastExponent ((leadingExponent q).fdiv 2)
  f.encode k (q / 2 ^ (2 * k)).floor.toNat.sqrt

/-- The encoding nearest to the square root of `q`, ties to the even one: the square of twice the
root is compared with the square of twice the middle. -/
def nearestRoot (q : Rat) : Nat :=
  if q = 0 then 0
  else
    let n := f.belowRoot q
    let middle := f.value n + f.value (n + 1)
    min (nearerOf n (4 * q) (middle * middle)) f.infinity

end Format

end AxisNorm
