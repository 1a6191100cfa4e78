import AxisNorm.Float.Extended
import AxisNorm.Float.Format

/-!
# Single precision

`Single` is a 32-bit pattern read as a `binary32` number. Arithmetic is exact arithmetic on the
values, rounded once to the nearest pattern, ties to even; a result without a value is `Single.nan`.
An operand without a value is the result itself, made quiet, so that its other bits are kept.
-/

namespace AxisNorm

/-- A single-precision number, as its bits. -/
structure Single where
  bits : UInt32
  deriving DecidableEq, Repr, Inhabited

namespace Single

/-- The bytes of a number. -/
def bytes : Nat := 4

/-- The result of an operation that has no value on numbers, such as an infinity less itself. Floating point leaves
its bits open: these are a choice of the model, and x86-64 has `0xffc00000`. -/
def nan : Single := ⟨0x7fc00000⟩

def zero : Single := ⟨0⟩

def one : Single := ⟨0x3f800000⟩

/-- The bits below the sign. -/
def magnitude (x : Single) : Nat := x.bits.toNat % 0x80000000

def isNegative (x : Single) : Bool := decide (0x80000000 ≤ x.bits.toNat)

def isNaN (x : Single) : Bool := decide (Format.binary32.infinity < x.magnitude)

def isFinite (x : Single) : Bool := decide (x.magnitude < Format.binary32.infinity)

/-- The number that the bits stand for. -/
def toExtended (x : Single) : Extended :=
  if x.isNaN then .nan
  else if x.isFinite then .finite x.isNegative (Format.binary32.value x.magnitude)
  else .infinite x.isNegative

/-- The bits of a sign and an encoding. -/
def ofMagnitude (negative : Bool) (n : Nat) : Single :=
  ⟨UInt32.ofNat (if negative then 0x80000000 + n else n)⟩

/-- The nearest single-precision number. -/
def round : Extended → Single
  | .nan => nan
  | .infinite s => ofMagnitude s Format.binary32.infinity
  | .finite s m => ofMagnitude s (Format.binary32.nearest m)

/-- The same bits with the first bit of the fraction set. -/
def quiet (x : Single) : Single := ⟨x.bits ||| 0x400000⟩

/-- An operation on the values, rounded once. Of the operands without a value the first one is handed
on. -/
def rounded (op : Extended → Extended → Extended) (x y : Single) : Single :=
  if x.isNaN then x.quiet
  else if y.isNaN then y.quiet
  else round (op x.toExtended y.toExtended)

def add (x y : Single) : Single := rounded .add x y

def sub (x y : Single) : Single := rounded .sub x y

def mul (x y : Single) : Single := rounded .mul x y

def div (x y : Single) : Single := rounded .div x y

/-- The root of a negative number has no value; negative zero is its own root. -/
def sqrt (x : Single) : Single :=
  match x.toExtended with
  | .nan => x.quiet
  | .infinite s => if s then nan else x
  | .finite s m =>
    if m = 0 then x else if s then nan else ofMagnitude false (Format.binary32.nearestRoot m)

instance : Add Single := ⟨add⟩
instance : Sub Single := ⟨sub⟩
instance : Mul Single := ⟨mul⟩
instance : Div Single := ⟨div⟩

/-- The reciprocal of a size: the size rounded to double precision, the quotient rounded to double
precision, and the result rounded to single precision. -/
def reciprocal (n : Nat) : Single :=
  let d := Format.binary64.value (Format.binary64.nearest n)
  let q := Format.binary64.value (Format.binary64.nearest (1 / d))
  ofMagnitude false (Format.binary32.nearest q)

end Single

end AxisNorm
