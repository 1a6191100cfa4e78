import AxisNorm.Code.Routine
import AxisNorm.Operator
import AxisNorm.Split

/-!
# What the code of a kernel depends on

* `Parameters`: the split, the element types, whether the kernel is affine, and where its constant
  buffers lie.
* `Status`: what the code answers.
* `storageType?`: how an element lies in memory.
-/

namespace AxisNorm

/-- The three buffers of constants, each with one single-precision number per group. -/
inductive ConstantBuffer where
  /-- One divided by the group size. -/
  | reciprocal
  | epsilon
  | one
  deriving DecidableEq, Repr, Hashable

/-- The addresses of the constant buffers. -/
structure ConstantAddresses where
  reciprocal : Nat
  epsilon : Nat
  one : Nat
  deriving DecidableEq, Repr

def ConstantAddresses.of (a : ConstantAddresses) : ConstantBuffer → Nat
  | .reciprocal => a.reciprocal
  | .epsilon => a.epsilon
  | .one => a.one

/-- Everything that a kernel's code is made from. -/
structure Parameters where
  split : Split
  srcType : ElementType
  dstType : ElementType
  affine : Bool
  constants : ConstantAddresses
  deriving DecidableEq, Repr

/-- How many pointers the code reads from the runtime data. -/
def Parameters.slotCount (p : Parameters) : Nat := Role.count p.affine

/-- What a call of the code answers. -/
inductive Status where
  | ok
  /-- A pointer that the code needs is null. -/
  | nullPointer
  /-- The slice ends past the batch. -/
  | sliceOutOfBounds
  deriving DecidableEq, Repr, Hashable

namespace Status

def all : List Status := [ok, nullPointer, sliceOutOfBounds]

def code : Status → Nat
  | ok => 0
  | nullPointer => 1
  | sliceOutOfBounds => 2

def name : Status → String
  | ok => "Ok"
  | nullPointer => "NullPointer"
  | sliceOutOfBounds => "SliceOutOfBounds"

def ofCode? (n : Int) : Option Status := all.find? fun s => (s.code : Int) == n

end Status

/-- The type with which an element is loaded and stored: a `bf16` number travels as its bits. -/
def storageType? : ElementType → Option Code.ValueType
  | .float32 => some .f32
  | .bfloat16 => some .i16
  | _ => none

end AxisNorm
