import AxisNorm.Shape

/-!
# A shape around its batch axis

`Split` sees a row-major shape as `outer × batch × inner`. Each batch position is one group; the
elements of a group are counted by `k`, row by row.

* `Split.ofShape`: the split of a shape, or the first thing that is wrong with it.
* `Split.offset`: where element `k` of group `b` lies in the tensor.
-/

namespace AxisNorm

/-- The extents before, at and after the batch axis. -/
structure Split where
  outer : Nat
  batch : Nat
  inner : Nat
  deriving DecidableEq, Repr

namespace Split

/-- The split of `shape` at `axis`. The shape needs two axes, `axis` among them, no zero extent and
an element count that is a size. -/
def ofShape (shape : Shape) (axis : Nat) : Except (Failure ShapeError) Split :=
  if shape.length < 2 then .error (.error (.rankTooSmall shape.length))
  else match shape[axis]? with
    | none => .error (.error (.batchAxisOutOfRange axis shape.length))
    | some batch =>
      match shape.findIdx? (· == 0) with
      | some i => .error (.error (.zeroExtent i shape))
      | none =>
        match shape.count? with
        | none => .error (.error (.overflow shape))
        | some _ => do
          let outer ← checked (Checked.product (shape.take axis))
          let inner ← checked (Checked.product (shape.drop (axis + 1)))
          pure { outer, batch, inner }

/-- One group per batch position. -/
def groupCount (s : Split) : Nat := s.batch

/-- The number of elements in a group. -/
def groupSize (s : Split) : Except ArithmeticError Nat := Checked.multiply s.outer s.inner

/-- The number of elements in the tensor. -/
def count (s : Split) : Except ArithmeticError Nat := do
  Checked.multiply (← Checked.multiply s.outer s.batch) s.inner

/-- The position in the tensor of element `k` of group `b`; neither is checked against the split. -/
def offset (s : Split) (b k : Nat) : Except ArithmeticError Nat := do
  let o ← Checked.divide k s.inner
  let row ← Checked.add (← Checked.multiply o s.batch) b
  Checked.add (← Checked.multiply row s.inner) (k % s.inner)

/-- How messages write a split. -/
def text (s : Split) : String :=
  "AxisSplit \x7b outer: " ++ toString s.outer ++ ", batch: " ++ toString s.batch ++ ", inner: " ++
    toString s.inner ++ " \x7d"

end Split

end AxisNorm
