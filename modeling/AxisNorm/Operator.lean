import Std.Data.ExtTreeMap
import AxisNorm.ElementType
import AxisNorm.Shape

/-!
# Operator descriptions

What a caller asks for: the kind of operator, its tensors, the batch axis and free-form attributes.

* `Kind`, `Propagation`, `Engine`: the tags of a description, read by their exact names.
* `Role`: what a tensor is for; it is also its place in the description and in the runtime data.
* `Attributes`: texts by name, held in the order of the names' characters, so that equal contents
  are equal values.
-/

namespace AxisNorm

/-- The family of operators. -/
inductive Kind where
  | sparseMatmul
  | eltwiseop
  /-- Normalization along a batch axis. -/
  | layernormBa
  | softmax
  | transpose
  deriving DecidableEq, Repr

namespace Kind

def all : List Kind := [sparseMatmul, eltwiseop, layernormBa, softmax, transpose]

def name : Kind → String
  | sparseMatmul => "sparse_matmul"
  | eltwiseop => "eltwiseop"
  | layernormBa => "layernorm_ba"
  | softmax => "softmax"
  | transpose => "transpose"

def ofName? (text : String) : Option Kind := all.find? (·.name == text)

end Kind

/-- The direction of propagation; inference unless told otherwise. -/
inductive Propagation where
  | forwardInference
  | forwardTraining
  deriving DecidableEq, Repr, Inhabited

namespace Propagation

def all : List Propagation := [forwardInference, forwardTraining]

def name : Propagation → String
  | forwardInference => "forward_inference"
  | forwardTraining => "forward_training"

def ofName? (text : String) : Option Propagation := all.find? (·.name == text)

end Propagation

/-- The engine that runs a kernel. -/
inductive Engine where
  | cpu
  deriving DecidableEq, Repr, Inhabited

namespace Engine

def all : List Engine := [cpu]

def name : Engine → String
  | cpu => "cpu"

def ofName? (text : String) : Option Engine := all.find? (·.name == text)

end Engine

/-- What a tensor is for. -/
inductive Role where
  | src
  | dst
  /-- The scale of each element after normalization. -/
  | alpha
  /-- The shift of each element after scaling. -/
  | beta
  deriving DecidableEq, Repr, Hashable

namespace Role

def all : List Role := [src, dst, alpha, beta]

def name : Role → String
  | src => "src"
  | dst => "dst"
  | alpha => "alpha"
  | beta => "beta"

/-- The place of a tensor in a description and of its pointer in the runtime data. -/
def index : Role → Nat
  | src => 0
  | dst => 1
  | alpha => 2
  | beta => 3

/-- The roles that a kernel reads or writes; scale and shift only if it is affine. -/
def used (affine : Bool) : List Role := if affine then [src, dst, alpha, beta] else [src, dst]

/-- How many pointers a kernel needs. -/
def count (affine : Bool) : Nat := if affine then 4 else 2

theorem length_used (affine : Bool) : (used affine).length = count affine := by
  cases affine <;> rfl

end Role

/-- Shape and element type of one tensor. -/
structure Tensor where
  shape : Shape
  type : ElementType
  deriving DecidableEq, Repr

namespace Tensor

def rank (t : Tensor) : Nat := t.shape.length

/-- The number of elements; nothing if it is no size. -/
def count? (t : Tensor) : Option Nat := t.shape.count?

end Tensor

/-- Texts by name, in the order of the names' code points, which is the order of their bytes. -/
abbrev Attributes := Std.ExtTreeMap String String

/-- The description of one operator. -/
structure Operator where
  kind : Kind
  propagation : Propagation
  engine : Engine
  tensors : List Tensor
  batchAxis : Nat
  attributes : Attributes
  deriving DecidableEq

namespace Operator

/-- The tensor with a role, if the description has one at its place. -/
def tensor? (op : Operator) (role : Role) : Option Tensor := op.tensors[role.index]?

/-- The same description with one attribute set. -/
def withAttribute (op : Operator) (name value : String) : Operator :=
  { op with attributes := op.attributes.insert name value }

def attribute? (op : Operator) (name : String) : Option String := op.attributes[name]?

/-- The attribute that holds the stabilizing constant. -/
def epsilonAttribute : String := "epsilon"

end Operator

end AxisNorm
