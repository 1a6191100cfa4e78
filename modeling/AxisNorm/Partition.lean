import AxisNorm.Arithmetic

/-!
# Sharing a batch among threads

* `effectiveThreads`: how many threads a batch can use.
* `partition`: contiguous slices whose lengths differ by at most one, the longer ones first.
-/

namespace AxisNorm

/-- The batch positions that one thread owns. -/
structure Slice where
  thread : Nat
  start : Nat
  length : Nat
  deriving DecidableEq, Repr

/-- The position after the last one. -/
def Slice.stop (s : Slice) : Except ArithmeticError Nat := Checked.add s.start s.length

/-- At least one thread, and no more than there are positions. -/
def effectiveThreads (requested batch : Nat) : Nat := min (max requested 1) (max batch 1)

/-- The slice of `thread` when each thread gets `share` positions and the first `extra` one more. -/
def sliceOf (share extra thread : Nat) : Except ArithmeticError Slice := do
  let start ← Checked.add (← Checked.multiply thread share) (min thread extra)
  let length ← Checked.add share (if thread < extra then 1 else 0)
  pure { thread, start, length }

/-- The bytes of a slice: three sizes. -/
def Slice.bytes : Nat := 24

/-- The positions below `batch` cut into `threads` slices, one if `threads` is zero. There has to be
room for the list of slices. -/
def partition (batch threads : Nat) : Except ArithmeticError (List Slice) := do
  let n := max threads 1
  Checked.reserve n Slice.bytes
  (List.range n).mapM (sliceOf (batch / n) (batch % n))

end AxisNorm
