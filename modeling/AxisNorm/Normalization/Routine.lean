import AxisNorm.Normalization.Blocks

/-!
# From parameters to code

* `Parameters.routine?`: the code for given parameters, or why there is none.
* `Parameters.stepBound`: more steps than any call of the code takes.
-/

namespace AxisNorm

/-- Why parameters have no code. -/
inductive LoweringError where
  | unsupportedType (role : Role) (type : ElementType)
  | unsupportedTarget (pointerBits : Nat)
  | emptyExtent (split : Split)
  | countOverflow (split : Split)
  /-- Byte offsets would not be positive signed numbers. -/
  | countTooLarge (count : Nat)
  deriving DecidableEq, Repr

def LoweringError.message : LoweringError → String
  | .unsupportedType role type => "dtype " ++ type.name ++ " is not supported for " ++ role.name
  | .unsupportedTarget bits => "unsupported target: " ++ toString bits ++ "-bit pointers"
  | .emptyExtent split => "invalid kernel parameters: empty extent in " ++ split.text
  | .countOverflow split =>
    "invalid kernel parameters: element count of " ++ split.text ++ " overflows"
  | .countTooLarge count => "numel = " ++ toString count ++ " does not fit in an i64 immediate"

/-- The largest element count whose byte offsets are positive signed numbers. -/
def countLimit : Nat := 0x7fffffffffffffff >>> 2

namespace Parameters

/-- The extents must be positive, and their product must be a size within `countLimit`. -/
def checkExtents (split : Split) : Except LoweringError Unit :=
  if split.outer = 0 ∨ split.batch = 0 ∨ split.inner = 0 then .error (.emptyExtent split)
  else match split.count with
    | .error _ => .error (.countOverflow split)
    | .ok count => if count ≤ countLimit then .ok () else .error (.countTooLarge count)

/-- The code for a machine whose pointers have the given type. -/
def routine? (p : Parameters) (name convention : String) (pointerType : Code.ValueType) :
    Except LoweringError (Code.Routine Normalization.Label Normalization.Value) :=
  if pointerType ≠ .i64 then .error (.unsupportedTarget pointerType.bits)
  else if p.srcType ≠ .float32 then .error (.unsupportedType .src p.srcType)
  else match storageType? p.dstType with
    | none => .error (.unsupportedType .dst p.dstType)
    | some storage =>
      match checkExtents p.split with
      | .error e => .error e
      | .ok () => .ok {
          name, convention
          results := [.i32]
          entry := .entry
          block := Normalization.block p storage
          layout := Normalization.layout }

/-- A bound on the steps of a call: a part for the call, for each group, for each row of each walk
and for each element of each walk. -/
def stepBound (p : Parameters) : Nat :=
  64 + p.split.batch * (64 + 3 * (p.split.outer * (16 + p.split.inner * 32)))

end Parameters

end AxisNorm
