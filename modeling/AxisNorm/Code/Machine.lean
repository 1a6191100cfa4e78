import Std.Data.ExtHashMap
import AxisNorm.Code.Routine
import AxisNorm.Memory
import AxisNorm.Task

/-!
# The register machine

Runs a routine instruction by instruction on a shared memory.

* `Word`: the values of registers, with their types; integers wrap around at their width.
* `Frame.next`, `Frame.effect`: one step, as what follows it and what it does to memory.
* `Routine.call`: a call of a routine, as a task of a bounded number of steps.

A missing operand, one of the wrong type, a byte that is not mapped, or more steps than allowed stop
the machine with a `Trap`.
-/

namespace AxisNorm.Code

/-- A value in a register. -/
inductive Word where
  | i8 (value : UInt8)
  | i16 (value : UInt16)
  | i32 (value : UInt32)
  | i64 (value : UInt64)
  | f32 (value : Single)
  deriving DecidableEq, Repr

namespace Word

def type : Word → ValueType
  | i8 _ => .i8
  | i16 _ => .i16
  | i32 _ => .i32
  | i64 _ => .i64
  | f32 _ => .f32

/-- The bits as a number. -/
def bits : Word → Nat
  | i8 v => v.toNat
  | i16 v => v.toNat
  | i32 v => v.toNat
  | i64 v => v.toNat
  | f32 v => v.bits.toNat

/-- The word of a type with given low bits. -/
def ofBits? (type : ValueType) (n : Nat) : Option Word :=
  match type with
  | .i8 => some (i8 (UInt8.ofNat n))
  | .i16 => some (i16 (UInt16.ofNat n))
  | .i32 => some (i32 (UInt32.ofNat n))
  | .i64 => some (i64 (UInt64.ofNat n))
  | .f32 => some (f32 ⟨UInt32.ofNat n⟩)
  | .i128 | .f64 => none

/-- An immediate of an integer type. -/
def ofInt? (type : ValueType) (n : Int) : Option Word :=
  match type with
  | .i8 => some (i8 (UInt8.ofInt n))
  | .i16 => some (i16 (UInt16.ofInt n))
  | .i32 => some (i32 (UInt32.ofInt n))
  | .i64 => some (i64 (UInt64.ofInt n))
  | .i128 | .f32 | .f64 => none

/-- The byte of a truth value. -/
def ofBool (b : Bool) : Word := i8 (if b then 1 else 0)

end Word

/-- Modular arithmetic; a shift takes its amount modulo the width. -/
def IntegerOp.onBits {w : Nat} : IntegerOp → BitVec w → BitVec w → BitVec w
  | .add, a, b => a + b
  | .mul, a, b => a * b
  | .shl, a, b => a <<< (b.toNat % w)
  | .ushr, a, b => a >>> (b.toNat % w)
  | .and, a, b => a &&& b
  | .or, a, b => a ||| b

/-- An operation on two integers of one width. -/
def IntegerOp.apply (op : IntegerOp) : Word → Word → Option Word
  | .i8 a, .i8 b => some (.i8 ⟨op.onBits a.toBitVec b.toBitVec⟩)
  | .i16 a, .i16 b => some (.i16 ⟨op.onBits a.toBitVec b.toBitVec⟩)
  | .i32 a, .i32 b => some (.i32 ⟨op.onBits a.toBitVec b.toBitVec⟩)
  | .i64 a, .i64 b => some (.i64 ⟨op.onBits a.toBitVec b.toBitVec⟩)
  | _, _ => none

def Condition.holds : Condition → Nat → Nat → Bool
  | .eq, a, b => a == b
  | .ult, a, b => decide (a < b)
  | .ule, a, b => decide (a ≤ b)

/-- A comparison of two integers of one width. -/
def Condition.apply (cond : Condition) : Word → Word → Option Word
  | .i8 a, .i8 b => some (.ofBool (cond.holds a.toNat b.toNat))
  | .i16 a, .i16 b => some (.ofBool (cond.holds a.toNat b.toNat))
  | .i32 a, .i32 b => some (.ofBool (cond.holds a.toNat b.toNat))
  | .i64 a, .i64 b => some (.ofBool (cond.holds a.toNat b.toNat))
  | _, _ => none

def FloatOp.apply (op : FloatOp) (x y : Single) : Single :=
  match op with
  | .add => x + y
  | .sub => x - y
  | .mul => x * y
  | .div => x / y

variable {L V : Type} [DecidableEq V] [Hashable V]

/-- The values that have been computed. -/
structure Registers (V : Type) [DecidableEq V] [Hashable V] where
  words : Std.ExtHashMap V Word

namespace Registers

def empty : Registers V := ⟨∅⟩

def get? (r : Registers V) (v : V) : Option Word := r.words[v]?

def set (r : Registers V) (v : V) (w : Word) : Registers V := ⟨r.words.insert v w⟩

theorem get?_set (r : Registers V) (v u : V) (w : Word) :
    (r.set v w).get? u = if v = u then some w else r.get? u := by
  simp [get?, set, Std.ExtHashMap.getElem?_insert]

/-- A register's word, if it has the type. -/
def typed? (r : Registers V) (type : ValueType) (v : V) : Option Word :=
  (r.get? v).filter (·.type == type)

/-- A register's number. -/
def single? (r : Registers V) (v : V) : Option Single :=
  match r.get? v with
  | some (.f32 x) => some x
  | _ => none

/-- The address in a register plus an offset. -/
def address? (r : Registers V) (v : V) (offset : Nat) : Option UInt64 :=
  match r.get? v with
  | some (.i64 a) => some (a + UInt64.ofNat offset)
  | _ => none

/-- Gives words to the parameters of a block; number and types have to agree. -/
def bind? (r : Registers V) : List (V × ValueType) → List Word → Option (Registers V)
  | [], [] => some r
  | (v, type) :: parameters, w :: words =>
    if w.type = type then (r.set v w).bind? parameters words else none
  | _, _ => none

end Registers

/-- The word that an operation computes. -/
def Operation.evaluate? (r : Registers V) : Operation V → Option Word
  | .integerConst type value => Word.ofInt? type value
  | .floatConst value => some (.f32 value)
  | .integer op type a b => do op.apply (← r.typed? type a) (← r.typed? type b)
  | .integerImm op type a imm => do op.apply (← r.typed? type a) (← Word.ofInt? type imm)
  | .compare cond type a b => do cond.apply (← r.typed? type a) (← r.typed? type b)
  | .compareImm cond type a imm => do cond.apply (← r.typed? type a) (← Word.ofInt? type imm)
  | .float op a b => do pure (.f32 (op.apply (← r.single? a) (← r.single? b)))
  | .sqrt a => do pure (.f32 (← r.single? a).sqrt)
  | .bitcast a => do pure (.i32 (← r.single? a).bits)
  | .reduce a =>
    match r.get? a with
    | some (.i32 v) => some (.i16 v.toUInt16)
    | _ => none

/-- Why the machine stopped before a return. -/
inductive Trap where
  | badOperand
  | unmapped (address : UInt64)
  | tooManySteps
  deriving DecidableEq, Repr

/-- A call under way: its registers, what is left of the current block, and how the block ends. -/
structure Frame (L V : Type) [DecidableEq V] [Hashable V] where
  registers : Registers V
  pending : List (Instruction V)
  terminator : Terminator L V

/-- What follows a step. -/
inductive Progress (L V : Type) [DecidableEq V] [Hashable V] where
  | running (frame : Frame L V)
  | returned (status : UInt32)
  | trapped (trap : Trap)

/-- The start of a block whose parameters get the given words. -/
def Routine.enter (code : Routine L V) (r : Registers V) (label : L) (words : List Word) :
    Progress L V :=
  match r.bind? (code.block label).parameters words with
  | some registers =>
    .running ⟨registers, (code.block label).body, (code.block label).terminator⟩
  | none => .trapped .badOperand

namespace Frame

/-- Continues after the current instruction, which has computed a word or none. -/
def proceed (f : Frame L V) (rest : List (Instruction V)) (result : V) : Option Word → Progress L V
  | some w => .running { f with registers := f.registers.set result w, pending := rest }
  | none => .trapped .badOperand

/-- What follows the next step in a given memory. -/
def next (code : Routine L V) (f : Frame L V) (m : Memory) : Progress L V :=
  match f.pending with
  | .set result operation :: rest => f.proceed rest result (operation.evaluate? f.registers)
  | .load result type address offset :: rest =>
    match f.registers.address? address offset with
    | none => .trapped .badOperand
    | some a =>
      match m.load? a type.bytes with
      | none => .trapped (.unmapped a)
      | some n => f.proceed rest result (Word.ofBits? type n)
  | .store type value address offset :: rest =>
    match f.registers.typed? type value, f.registers.address? address offset with
    | some _, some a =>
      if m.mapped a type.bytes then .running { f with pending := rest } else .trapped (.unmapped a)
    | _, _ => .trapped .badOperand
  | [] =>
    match f.terminator with
    | .jump target arguments =>
      match arguments.mapM f.registers.get? with
      | some words => code.enter f.registers target words
      | none => .trapped .badOperand
    | .branch condition ifTrue ifFalse =>
      match f.registers.get? condition with
      | some (.i8 b) => code.enter f.registers (if b = 0 then ifFalse else ifTrue) []
      | _ => .trapped .badOperand
    | .ret value =>
      match f.registers.get? value with
      | some (.i32 status) => .returned status
      | _ => .trapped .badOperand

/-- What the next step does to memory: only a store changes it. -/
def effect (f : Frame L V) (m : Memory) : Memory :=
  match f.pending with
  | .store type value address offset :: _ =>
    match f.registers.typed? type value, f.registers.address? address offset with
    | some w, some a => if m.mapped a type.bytes then m.write a type.bytes w.bits else m
    | _, _ => m
  | _ => m

end Frame

/-- How a call ended. -/
inductive Exit where
  | returned (status : UInt32)
  | trapped (trap : Trap)
  deriving DecidableEq, Repr

/-- At most `steps` further steps of a call. -/
def Routine.resume (code : Routine L V) : (steps : Nat) → Progress L V → Task Memory Exit
  | _, .returned status => .done (.returned status)
  | _, .trapped trap => .done (.trapped trap)
  | 0, .running _ => .done (.trapped .tooManySteps)
  | steps + 1, .running f => .act f.effect fun m => code.resume steps (f.next code m)

/-- A call with the given arguments, of at most `steps` steps. -/
def Routine.call (code : Routine L V) (steps : Nat) (arguments : List Word) : Task Memory Exit :=
  code.resume steps (code.enter .empty code.entry arguments)

end AxisNorm.Code
