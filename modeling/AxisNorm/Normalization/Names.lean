import AxisNorm.Normalization.Parameters

/-!
# Names in the code of a kernel

The code goes three times over each group: for the mean, for the variance, and to normalize. The
blocks and values of the three passes have the same names, with the pass added.
-/

namespace AxisNorm.Normalization

/-- The three walks over a group. -/
inductive Pass where
  | mean
  | variance
  | normalize
  deriving DecidableEq, Repr, Hashable

/-- The blocks of a walk: a loop over rows around a loop over the elements of a row. -/
inductive WalkLabel where
  | outerHeader
  | outerBody
  | innerHeader
  | innerBody
  | outerLatch
  deriving DecidableEq, Repr, Hashable

/-- The blocks of the code. -/
inductive Label where
  | entry
  | outOfBounds
  | pointers
  | nullPointer
  | setup
  | groupHeader
  | groupBody
  | walk (pass : Pass) (label : WalkLabel)
  /-- Between the first two walks: the mean. -/
  | centre
  /-- Between the last two walks: the reciprocal of the standard deviation. -/
  | spread
  | groupLatch
  | done
  deriving DecidableEq, Repr, Hashable

/-- The elements that the code loads. -/
inductive Access where
  | constant (buffer : ConstantBuffer)
  | source (pass : Pass)
  | alpha
  | beta
  deriving DecidableEq, Repr, Hashable

/-- Where the running sum of a walk is: at the head of a loop, or after one more term. -/
inductive SumPlace where
  | outer
  | inner
  | next
  deriving DecidableEq, Repr, Hashable

/-- The values of a walk. -/
inductive WalkValue where
  | first
  | outerStop
  | outer
  | moreOuter
  | outerGroups
  | outerRow
  | row
  | positionRow
  | innerStop
  | inner
  | moreInner
  /-- The element's index in the tensor. -/
  | element
  /-- The element's index in its group. -/
  | position
  | nextInner
  | nextOuter
  | deviation
  | sum (place : SumPlace)
  deriving DecidableEq, Repr, Hashable

/-- The values of the code. -/
inductive Value where
  | data
  | start
  | length
  | stop
  | noWrap
  | inRange
  | sliceOk
  | status (status : Status)
  | pointer (role : Role)
  | isNull (role : Role)
  /-- Whether the pointer of this role or one before it is null. -/
  | anyNull (role : Role)
  | base (buffer : ConstantBuffer)
  | group
  | moreGroups
  | nextGroup
  | bytes (access : Access)
  | address (access : Access)
  | loaded (access : Access)
  | zero
  | walk (pass : Pass) (value : WalkValue)
  | mean
  | square
  | variance
  | stabilized
  | standardDeviation
  | inverse
  | normal
  | scaled
  | shifted
  | roundBits
  | roundUpper
  | roundOdd
  | roundBias
  | roundSum
  | roundSumUpper
  | rounded
  | dstBytes
  | dstAddress
  deriving DecidableEq, Repr, Hashable

end AxisNorm.Normalization
