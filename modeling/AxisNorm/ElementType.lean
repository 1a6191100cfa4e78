/-!
# Element types

The scalar types a tensor may have, in their order of declaration, with their short names.

* `ElementType.ofName?`: reads exactly the names that `ElementType.name` writes.
-/

namespace AxisNorm

/-- The scalar type of a tensor's elements. -/
inductive ElementType where
  | int8
  | uint8
  | int32
  | float16
  | bfloat16
  | float32
  | float64
  deriving DecidableEq, Repr

namespace ElementType

/-- All types, in order. -/
def all : List ElementType := [int8, uint8, int32, float16, bfloat16, float32, float64]

/-- The short name, as descriptions write it. -/
def name : ElementType → String
  | int8 => "s8"
  | uint8 => "u8"
  | int32 => "s32"
  | float16 => "fp16"
  | bfloat16 => "bf16"
  | float32 => "fp32"
  | float64 => "fp64"

/-- The type of a short name; case counts. -/
def ofName? (text : String) : Option ElementType := all.find? (·.name == text)

/-- The size of one element. -/
def bytes : ElementType → Nat
  | int8 | uint8 => 1
  | float16 | bfloat16 => 2
  | int32 | float32 => 4
  | float64 => 8

def isFloat : ElementType → Bool
  | float16 | bfloat16 | float32 | float64 => true
  | int8 | uint8 | int32 => false

def isInteger (t : ElementType) : Bool := !t.isFloat

/-- The position in the order of declaration. -/
def rank (t : ElementType) : Nat := all.idxOf t

instance : Ord ElementType where
  compare a b := compare a.rank b.rank

theorem mem_all (t : ElementType) : t ∈ all := by cases t <;> decide

theorem ofName?_name (t : ElementType) : ofName? t.name = some t := by cases t <;> rfl

end ElementType

end AxisNorm
