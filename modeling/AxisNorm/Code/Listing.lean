import AxisNorm.Code.Routine
import AxisNorm.Text.Hex

/-!
# Listings

The instructions of a routine as text, block by block in layout order: operation, type, condition
and immediates. Operands are left out, and a label is written as its place in the layout.
-/

namespace AxisNorm.Code

def Condition.mnemonic : Condition → String
  | .eq => "eq"
  | .ult => "ult"
  | .ule => "ule"

def IntegerOp.mnemonic : IntegerOp → String
  | .add => "iadd"
  | .mul => "imul"
  | .shl => "ishl"
  | .ushr => "ushr"
  | .and => "band"
  | .or => "bor"

def FloatOp.mnemonic : FloatOp → String
  | .add => "fadd"
  | .sub => "fsub"
  | .mul => "fmul"
  | .div => "fdiv"

variable {L V : Type}

def Operation.listing : Operation V → String
  | .integerConst type value => "iconst." ++ type.name ++ " " ++ toString value
  | .floatConst value => "f32const " ++ Text.Hex.padded 8 value.bits.toNat
  | .integer op type _ _ => op.mnemonic ++ "." ++ type.name
  | .integerImm op type _ imm => op.mnemonic ++ "_imm." ++ type.name ++ " " ++ toString imm
  | .compare cond type _ _ => "icmp." ++ type.name ++ " " ++ cond.mnemonic
  | .compareImm cond type _ imm =>
    "icmp_imm." ++ type.name ++ " " ++ cond.mnemonic ++ " " ++ toString imm
  | .float op _ _ => op.mnemonic ++ ".f32"
  | .sqrt _ => "sqrt.f32"
  | .bitcast _ => "bitcast.i32"
  | .reduce _ => "ireduce.i16"

def Instruction.listing : Instruction V → String
  | .set _ operation => operation.listing
  | .load _ type _ offset => "load." ++ type.name ++ " " ++ toString offset
  | .store type _ _ offset => "store." ++ type.name ++ " " ++ toString offset

variable [BEq L]

def Terminator.listing (layout : List L) : Terminator L V → String
  | .jump target _ => "jump " ++ toString (layout.idxOf target)
  | .branch _ t e => "brif.i8 " ++ toString (layout.idxOf t) ++ " " ++ toString (layout.idxOf e)
  | .ret _ => "return"

def Block.listing (layout : List L) (b : Block L V) : List String :=
  b.body.map Instruction.listing ++ [b.terminator.listing layout]

def Routine.listing (r : Routine L V) : List (List String) :=
  r.layout.map fun l => (r.block l).listing r.layout

end AxisNorm.Code
