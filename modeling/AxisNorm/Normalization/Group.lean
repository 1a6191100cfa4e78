import AxisNorm.Float.Narrow
import AxisNorm.Normalization.Parameters

/-!
# Normalization of a group

What a kernel computes, said on lists of numbers and without code: the mean and the variance of a
group, each as a sum from the left, and the normalized elements.

* `GroupConstants.normalized`: one element of a group, normalized.
* `Inputs.result`: the result at element `k` of group `b`.
* `ElementType.stored`: the bits of a result in the destination.
-/

namespace AxisNorm

/-- The sum of numbers, from positive zero on and in their order. -/
def Single.sum (xs : List Single) : Single := xs.foldl (· + ·) .zero

/-- The constants of one group. -/
structure GroupConstants where
  /-- One divided by the number of elements. -/
  reciprocal : Single
  epsilon : Single
  one : Single
  deriving DecidableEq, Repr

namespace GroupConstants

variable (c : GroupConstants) (xs : List Single)

def mean : Single := .sum xs * c.reciprocal

/-- The mean square of the deviations from the mean. -/
def variance : Single :=
  .sum (xs.map fun x => (x - c.mean xs) * (x - c.mean xs)) * c.reciprocal

/-- The reciprocal of the standard deviation. -/
def inverse : Single := c.one / (c.variance xs + c.epsilon).sqrt

/-- An element of the group with mean and spread taken out. -/
def normalized (x : Single) : Single := (x - c.mean xs) * c.inverse xs

end GroupConstants

/-- Where element `k` of group `b` lies in the tensor, without a bound on sizes. -/
def Split.position (s : Split) (b k : Nat) : Nat :=
  (k / s.inner * s.batch + b) * s.inner + k % s.inner

theorem Split.eq_position_of_offset {s : Split} {b k n : Nat} (h : s.offset b k = .ok n) :
    n = s.position b k := by
  simp only [offset, Checked.divide, Checked.multiply, Checked.add, bind, Except.bind] at h
  unfold position
  grind

/-- What a kernel reads: the source by position, scale and shift by number in the group, and the
constants by group. -/
structure Inputs where
  source : Nat → Single
  factors : Option (Nat → Single × Single)
  constants : Nat → GroupConstants

namespace Inputs

variable (i : Inputs) (s : Split)

/-- The elements of a group in their order. -/
def group (b : Nat) : List Single :=
  (List.range (s.outer * s.inner)).map fun k => i.source (s.position b k)

/-- The result for element `k` of group `b`; scaling and shifting round separately. -/
def result (b k : Nat) : Single :=
  let y := (i.constants b).normalized (i.group s b) (i.source (s.position b k))
  match i.factors with
  | none => y
  | some f => y * (f k).1 + (f k).2

end Inputs

/-- The bits of a result in a destination of a type that kernels store. -/
def ElementType.stored : ElementType → Single → Nat
  | .bfloat16, y => y.narrow.toNat
  | _, y => y.bits.toNat

end AxisNorm
