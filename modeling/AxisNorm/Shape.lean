import AxisNorm.Arithmetic

/-!
# Shapes

A shape is the list of a row-major tensor's extents.

* `Shape.count?`: the element count, if no step of its product overflows.
* `Shape.flatIndex`: the position of a multi-index in row-major order.
* `ShapeError`: what is wrong with a shape, with its wording.
-/

namespace AxisNorm

/-- Row-major extents. -/
abbrev Shape := List Nat

namespace Shape

/-- The number of elements, multiplied up from the left; nothing if a step overflows. -/
def count? (shape : Shape) : Option Nat := (Checked.product shape).toOption

/-- The position of `index` in row-major order; the last coordinate moves fastest. -/
def flatIndex : (shape : Shape) → (index : List Nat) → Nat
  | _ :: shape, j :: index => j * shape.foldr (· * ·) 1 + flatIndex shape index
  | _, _ => 0

/-- A list of sizes in brackets: `[8, 4]`. -/
def text (sizes : List Nat) : String := "[" ++ ", ".intercalate (sizes.map toString) ++ "]"

end Shape

/-- Why a shape does not serve. -/
inductive ShapeError where
  /-- No axis is left beside the batch axis. -/
  | rankTooSmall (rank : Nat)
  | batchAxisOutOfRange (axis rank : Nat)
  | zeroExtent (axis : Nat) (shape : Shape)
  | overflow (shape : Shape)
  /-- Two tensors that have to agree do not. -/
  | mismatch (expected actual : Shape)
  deriving DecidableEq, Repr

def ShapeError.message : ShapeError → String
  | .rankTooSmall rank =>
    "rank " ++ toString rank ++ " is too small: need a batch axis and at least one normalized axis"
  | .batchAxisOutOfRange axis rank =>
    "batch axis " ++ toString axis ++ " is out of range for rank " ++ toString rank
  | .zeroExtent axis shape =>
    "axis " ++ toString axis ++ " of shape " ++ Shape.text shape ++ " has zero extent"
  | .overflow shape => "element count of shape " ++ Shape.text shape ++ " overflows"
  | .mismatch expected actual =>
    "shape mismatch: expected " ++ Shape.text expected ++ ", got " ++ Shape.text actual

end AxisNorm
