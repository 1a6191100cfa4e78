import AxisNorm.Epsilon
import AxisNorm.Normalization.Parameters

/-!
# Descriptors

A descriptor is a description that has been found executable, with the constants that kernels read.

* `Descriptor.ofOperator`: checks a description; of several faults the first in a fixed order is
  reported.
* `Descriptor.parameters`: what the code of its kernels depends on.
-/

namespace AxisNorm

/-- What the kernels cannot do. -/
inductive Unsupported where
  | kind (given : Kind)
  | mode (propagation : Propagation) (engine : Engine)
  | tensorCount (given : Nat)
  | tensorType (role : Role) (type : ElementType)
  | epsilon (cause : EpsilonError)
  deriving DecidableEq, Repr

def Unsupported.message : Unsupported → String
  | .kind given => "kernel kind " ++ given.name ++ " is not layernorm_ba"
  | .mode propagation engine =>
    propagation.name ++ "/" ++ engine.name ++ " is not supported, only forward_inference/cpu"
  | .tensorCount given => "expected 2 or 4 tensor descriptors, got " ++ toString given
  | .tensorType role type => role.name ++ " dtype " ++ type.name ++ " is not supported"
  | .epsilon cause => cause.message

/-- Why a description has no descriptor. -/
inductive DescriptorError where
  | invalidShape (cause : ShapeError)
  | unsupported (cause : Unsupported)
  deriving DecidableEq, Repr

def DescriptorError.message : DescriptorError → String
  | .invalidShape cause => "invalid shape: " ++ cause.message
  | .unsupported cause => "unsupported configuration: " ++ cause.message

/-- A description that can be executed, and one constant of each sort per group. -/
structure Descriptor where
  operator : Operator
  split : Split
  dstType : ElementType
  affine : Bool
  policy : EpsilonPolicy
  reciprocals : List Single
  epsilons : List Single
  ones : List Single
  deriving DecidableEq

namespace Descriptor

/-- Stops with an error unless a condition holds. -/
def require (condition : Bool) (e : DescriptorError) : Except (Failure DescriptorError) Unit :=
  if condition then .ok () else .error (.error e)

/-- A scale or shift needs one single-precision number per element of a group. -/
def checkFactor (groupSize : Nat) (role : Role) (t : Tensor) :
    Except (Failure DescriptorError) Unit := do
  require (t.count? == some groupSize) (.invalidShape (.mismatch [groupSize] t.shape))
  require (t.type == .float32) (.unsupported (.tensorType role t.type))

/-- Checks source and destination. -/
def checkTensors (src dst : Tensor) (axis : Nat) : Except (Failure DescriptorError) Split := do
  let split ← (Split.ofShape src.shape axis).mapError (·.map DescriptorError.invalidShape)
  require (dst.shape == src.shape) (.invalidShape (.mismatch src.shape dst.shape))
  require (src.type == .float32) (.unsupported (.tensorType .src src.type))
  require (dst.type == .float32 || dst.type == .bfloat16) (.unsupported (.tensorType .dst dst.type))
  pure split

/-- The constants, once the tensors have been checked. -/
def complete (op : Operator) (split : Split) (dstType : ElementType) (affine : Bool) :
    Except (Failure DescriptorError) Descriptor := do
  let epsilon ← (Epsilon.ofAttribute split.groupCount (op.attribute? Operator.epsilonAttribute)).mapError
    (·.map fun e => .unsupported (.epsilon e))
  let groupSize ← checked split.groupSize
  checked (Checked.reserve split.groupCount Single.bytes)
  pure {
    operator := op, split, dstType, affine
    policy := epsilon.policy
    reciprocals := List.replicate split.groupCount (Single.reciprocal groupSize)
    epsilons := epsilon.values
    ones := List.replicate split.groupCount .one }

/-- The descriptor of a description. Checked are, in this order, the kind, the mode, the number of
tensors, source and destination, scale and shift, and the stabilizing constant. -/
def ofOperator (op : Operator) : Except (Failure DescriptorError) Descriptor := do
  require (op.kind == .layernormBa) (.unsupported (.kind op.kind))
  require (op.propagation == .forwardInference && op.engine == .cpu)
    (.unsupported (.mode op.propagation op.engine))
  match op.tensors with
  | [src, dst] =>
    let split ← checkTensors src dst op.batchAxis
    complete op split dst.type false
  | [src, dst, alpha, beta] =>
    let split ← checkTensors src dst op.batchAxis
    let groupSize ← checked split.groupSize
    checkFactor groupSize .alpha alpha
    checkFactor groupSize .beta beta
    complete op split dst.type true
  | tensors => .error (.error (.unsupported (.tensorCount tensors.length)))

/-- What the code of a kernel depends on, when the constants lie at the given addresses. -/
def parameters (d : Descriptor) (home : ConstantAddresses) : Parameters where
  split := d.split
  srcType := .float32
  dstType := d.dstType
  affine := d.affine
  constants := home

end Descriptor

end AxisNorm
