import AxisNorm.Float.Single

/-!
# Narrowing to half the bits

`Single.narrow` rounds a single-precision number to the format that has its upper 16 bits, by integer
arithmetic on the bits: the encodings of one sign are in the order of the values, so that rounding
the encoding rounds the value.
-/

namespace AxisNorm

/-- The upper half after half of the lower half's range has been added, one less if the upper half is
even, so that ties go to the even upper half. -/
def Single.narrow (x : Single) : UInt16 :=
  ((x.bits + (((x.bits >>> 16) &&& 1) + 0x7fff)) >>> 16).toUInt16

end AxisNorm
