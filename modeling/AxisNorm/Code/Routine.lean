import AxisNorm.Float.Single

/-!
# Code for a register machine

A `Routine` is a control-flow graph: blocks with parameters, straight-line instructions and one
terminator each. Blocks are named by labels of a type `L` and values by names of a type `V`, which
whoever emits the code chooses.

* `Operation`: computes one value from others, without memory.
* `Instruction`: an operation, a load or a store.
* `Block.terminator`: a jump that passes arguments, a branch, or a return.
-/

namespace AxisNorm.Code

/-- The types of values. The machine itself has no words of `i128` and `f64`. -/
inductive ValueType where
  | i8
  | i16
  | i32
  | i64
  | i128
  | f32
  | f64
  deriving DecidableEq, Repr

namespace ValueType

def all : List ValueType := [i8, i16, i32, i64, i128, f32, f64]

def name : ValueType → String
  | i8 => "i8"
  | i16 => "i16"
  | i32 => "i32"
  | i64 => "i64"
  | i128 => "i128"
  | f32 => "f32"
  | f64 => "f64"

def ofName? (text : String) : Option ValueType := all.find? (·.name == text)

/-- The number of bytes of a value. -/
def bytes : ValueType → Nat
  | i8 => 1
  | i16 => 2
  | i32 | f32 => 4
  | i64 | f64 => 8
  | i128 => 16

/-- The number of bits of a value. -/
def bits (t : ValueType) : Nat := 8 * t.bytes

end ValueType

/-- Comparisons of integers, unsigned. -/
inductive Condition where
  | eq
  | ult
  | ule
  deriving DecidableEq, Repr

/-- Operations on two integers of one width. -/
inductive IntegerOp where
  | add
  | mul
  | shl
  | ushr
  | and
  | or
  deriving DecidableEq, Repr

/-- Operations on two single-precision numbers. -/
inductive FloatOp where
  | add
  | sub
  | mul
  | div
  deriving DecidableEq, Repr

/-- How one value is computed from others. An immediate is a signed number cut to the type's width. -/
inductive Operation (V : Type) where
  | integerConst (type : ValueType) (value : Int)
  | floatConst (value : Single)
  | integer (op : IntegerOp) (type : ValueType) (a b : V)
  | integerImm (op : IntegerOp) (type : ValueType) (a : V) (imm : Int)
  /-- The truth of a comparison, as a byte that is one or zero. -/
  | compare (cond : Condition) (type : ValueType) (a b : V)
  | compareImm (cond : Condition) (type : ValueType) (a : V) (imm : Int)
  | float (op : FloatOp) (a b : V)
  | sqrt (a : V)
  /-- The bits of a number as an integer. -/
  | bitcast (a : V)
  /-- The low half of a 32-bit integer. -/
  | reduce (a : V)
  deriving DecidableEq, Repr

/-- One step of a block. -/
inductive Instruction (V : Type) where
  | set (result : V) (operation : Operation V)
  | load (result : V) (type : ValueType) (address : V) (offset : Nat)
  | store (type : ValueType) (value address : V) (offset : Nat)
  deriving DecidableEq, Repr

/-- How a block ends. -/
inductive Terminator (L V : Type) where
  | jump (target : L) (arguments : List V)
  | branch (condition : V) (ifTrue ifFalse : L)
  | ret (value : V)
  deriving DecidableEq, Repr

/-- Straight-line code between a label and a terminator. -/
structure Block (L V : Type) where
  parameters : List (V × ValueType)
  body : List (Instruction V)
  terminator : Terminator L V
  deriving DecidableEq, Repr

/-- A function: its blocks by label, and the order in which they are laid out. Its parameters are
those of the entry block. -/
structure Routine (L V : Type) where
  name : String
  /-- The name of the calling convention. -/
  convention : String
  results : List ValueType
  entry : L
  block : L → Block L V
  layout : List L

/-- The types of a routine's parameters. -/
def Routine.parameters {L V : Type} (r : Routine L V) : List ValueType :=
  (r.block r.entry).parameters.map (·.2)

end AxisNorm.Code
