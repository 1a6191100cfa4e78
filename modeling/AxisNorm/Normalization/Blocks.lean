import AxisNorm.Normalization.Names

/-!
# The code of a kernel

A call gets the address of the runtime data, the first batch position and the number of positions.
For each group `b` of the slice the code computes, in single precision,

    mean = sum (x) * reciprocal[b]
    variance = sum ((x - mean)²) * reciprocal[b]
    y = (x - mean) * (one[b] / sqrt (variance + epsilon[b]))
    y = y * alpha[k] + beta[k]        (affine only)

and stores `y` at the element's place in the destination.

* `walkBlock`: the blocks of a walk over one group, around a body that sees the element.
* `block`: the block of a label.
* `layout`: all labels, in the order of the blocks.
-/

namespace AxisNorm.Normalization

open Code

/-- A 64-bit number read as signed, as immediates are. -/
def immediate (n : Nat) : Int := (n : Int).bmod sizeLimit

/-- Loads element `index` of the single-precision buffer at `base`. -/
def loadSingle (a : Access) (base index : Value) : List (Instruction Value) :=
  [.set (.bytes a) (.integerImm .shl .i64 index 2),
   .set (.address a) (.integer .add .i64 base (.bytes a)),
   .load (.loaded a) .f32 (.address a) 0]

/-- Answers with a status. -/
def answer (s : Status) : Block Label Value where
  parameters := []
  body := [.set (.status s) (.integerConst .i32 s.code)]
  terminator := .ret (.status s)

/-! ## Before the loops -/

/-- The slice is in range if its end does not wrap around and is at most the batch. -/
def entry (split : Split) : Block Label Value where
  parameters := [(.data, .i64), (.start, .i64), (.length, .i64)]
  body :=
    [.set .stop (.integer .add .i64 .start .length),
     .set .noWrap (.compare .ule .i64 .start .stop),
     .set .inRange (.compareImm .ule .i64 .stop (immediate split.batch)),
     .set .sliceOk (.integer .and .i8 .noWrap .inRange)]
  terminator := .branch .sliceOk .pointers .outOfBounds

/-- Loads the pointer of a role from the runtime data. -/
def loadPointer (role : Role) : Instruction Value :=
  .load (.pointer role) .i64 .data (8 * role.index)

/-- Adds the null test of further roles to `soFar`. -/
def nullTests (soFar : Value) : List Role → List (Instruction Value)
  | [] => []
  | r :: rs =>
    .set (.isNull r) (.compareImm .eq .i64 (.pointer r) 0) ::
      .set (.anyNull r) (.integer .or .i8 soFar (.isNull r)) :: nullTests (.anyNull r) rs

/-- The pointers, and whether one of them is null. -/
def pointers (affine : Bool) : Block Label Value where
  parameters := []
  body :=
    (Role.used affine).map loadPointer ++
      .set (.isNull .src) (.compareImm .eq .i64 (.pointer .src) 0) ::
        nullTests (.isNull .src) (Role.used affine).tail
  terminator := .branch (.anyNull (if affine then .beta else .dst)) .nullPointer .setup

/-- The addresses of the constant buffers. -/
def setup (constants : ConstantAddresses) : Block Label Value where
  parameters := []
  body := [ConstantBuffer.reciprocal, .epsilon, .one].map fun c =>
    .set (.base c) (.integerConst .i64 (immediate (constants.of c)))
  terminator := .jump .groupHeader [.start]

/-! ## A walk over one group -/

/-- The running sum that a pass carries through its loops; the last pass carries none. -/
def carried (p : Pass) (place : SumPlace) : List Value :=
  match p with
  | .mean | .variance => [.walk p (.sum place)]
  | .normalize => []

/-- What the sum of a pass starts from. -/
def initial : Pass → List Value
  | .mean | .variance => [.zero]
  | .normalize => []

/-- The bounds of the loop over rows. -/
def walkBounds (split : Split) (p : Pass) : List (Instruction Value) :=
  [.set (.walk p .first) (.integerConst .i64 0),
   .set (.walk p .outerStop) (.integerConst .i64 (immediate split.outer))]

/-- Enters a walk. -/
def walkStart (p : Pass) : Terminator Label Value :=
  .jump (.walk p .outerHeader) (.walk p .first :: initial p)

/-- The blocks of a walk. Element `i` of row `o` of group `b` lies at `(o * batch + b) * inner + i`
in the tensor and is number `o * inner + i` of its group. -/
def walkBlock (split : Split) (p : Pass) (body : List (Instruction Value)) (after : Label) :
    WalkLabel → Block Label Value
  | .outerHeader =>
    { parameters := (.walk p .outer, .i64) :: (carried p .outer).map (·, .f32)
      body := [.set (.walk p .moreOuter) (.compare .ult .i64 (.walk p .outer) (.walk p .outerStop))]
      terminator := .branch (.walk p .moreOuter) (.walk p .outerBody) after }
  | .outerBody =>
    { parameters := []
      body :=
        [.set (.walk p .outerGroups) (.integerImm .mul .i64 (.walk p .outer) (immediate split.batch)),
         .set (.walk p .outerRow) (.integer .add .i64 (.walk p .outerGroups) .group),
         .set (.walk p .row) (.integerImm .mul .i64 (.walk p .outerRow) (immediate split.inner)),
         .set (.walk p .positionRow) (.integerImm .mul .i64 (.walk p .outer) (immediate split.inner)),
         .set (.walk p .innerStop) (.integerConst .i64 (immediate split.inner))]
      terminator := .jump (.walk p .innerHeader) (.walk p .first :: carried p .outer) }
  | .innerHeader =>
    { parameters := (.walk p .inner, .i64) :: (carried p .inner).map (·, .f32)
      body := [.set (.walk p .moreInner) (.compare .ult .i64 (.walk p .inner) (.walk p .innerStop))]
      terminator := .branch (.walk p .moreInner) (.walk p .innerBody) (.walk p .outerLatch) }
  | .innerBody =>
    { parameters := []
      body :=
        [.set (.walk p .element) (.integer .add .i64 (.walk p .row) (.walk p .inner)),
         .set (.walk p .position) (.integer .add .i64 (.walk p .positionRow) (.walk p .inner))] ++
        body ++ [.set (.walk p .nextInner) (.integerImm .add .i64 (.walk p .inner) 1)]
      terminator := .jump (.walk p .innerHeader) (.walk p .nextInner :: carried p .next) }
  | .outerLatch =>
    { parameters := []
      body := [.set (.walk p .nextOuter) (.integerImm .add .i64 (.walk p .outer) 1)]
      terminator := .jump (.walk p .outerHeader) (.walk p .nextOuter :: carried p .inner) }

/-! ## What the walks do with an element -/

/-- Loads the element. -/
def loadElement (p : Pass) : List (Instruction Value) :=
  loadSingle (.source p) (.pointer .src) (.walk p .element)

/-- Loads the element and takes the mean away. -/
def loadDeviation (p : Pass) : List (Instruction Value) :=
  loadElement p ++ [.set (.walk p .deviation) (.float .sub (.loaded (.source p)) .mean)]

/-- Adds the element to the sum. -/
def meanBody : List (Instruction Value) :=
  loadElement .mean ++
    [.set (.walk .mean (.sum .next))
      (.float .add (.walk .mean (.sum .inner)) (.loaded (.source .mean)))]

/-- Adds the square of the deviation to the sum. -/
def varianceBody : List (Instruction Value) :=
  loadDeviation .variance ++
    [.set .square (.float .mul (.walk .variance .deviation) (.walk .variance .deviation)),
     .set (.walk .variance (.sum .next)) (.float .add (.walk .variance (.sum .inner)) .square)]

/-- Scales and shifts by the position in the group. -/
def affineStep : List (Instruction Value) :=
  loadSingle .alpha (.pointer .alpha) (.walk .normalize .position) ++
    loadSingle .beta (.pointer .beta) (.walk .normalize .position) ++
    [.set .scaled (.float .mul .normal (.loaded .alpha)),
     .set .shifted (.float .add .scaled (.loaded .beta))]

/-- The address of the element in a destination whose elements have `2 ^ shift` bytes. -/
def dstAddress (shift : Int) : List (Instruction Value) :=
  [.set .dstBytes (.integerImm .shl .i64 (.walk .normalize .element) shift),
   .set .dstAddress (.integer .add .i64 (.pointer .dst) .dstBytes)]

/-- The `bf16` number nearest to `y`, ties to even: half of the dropped part, and one more if the
kept part is odd, is added to the bits, and the upper half of the sum is kept. -/
def roundToHalf (y : Value) : List (Instruction Value) :=
  [.set .roundBits (.bitcast y),
   .set .roundUpper (.integerImm .ushr .i32 .roundBits 16),
   .set .roundOdd (.integerImm .and .i32 .roundUpper 1),
   .set .roundBias (.integerImm .add .i32 .roundOdd 0x7fff),
   .set .roundSum (.integer .add .i32 .roundBits .roundBias),
   .set .roundSumUpper (.integerImm .ushr .i32 .roundSum 16),
   .set .rounded (.reduce .roundSumUpper)]

/-- Stores `y` in the destination: as it is, or rounded to `bf16`. -/
def storeResult (storage : ValueType) (y : Value) : List (Instruction Value) :=
  if storage = .f32 then dstAddress 2 ++ [.store .f32 y .dstAddress 0]
  else roundToHalf y ++ dstAddress 1 ++ [.store .i16 .rounded .dstAddress 0]

/-- Normalizes the element and stores it. -/
def normalizeBody (affine : Bool) (storage : ValueType) : List (Instruction Value) :=
  loadDeviation .normalize ++
    [.set .normal (.float .mul (.walk .normalize .deviation) .inverse)] ++
    (if affine then affineStep else []) ++
    storeResult storage (if affine then .shifted else .normal)

/-! ## The loop over groups -/

def groupHeader : Block Label Value where
  parameters := [(.group, .i64)]
  body := [.set .moreGroups (.compare .ult .i64 .group .stop)]
  terminator := .branch .moreGroups .groupBody .done

/-- Loads the constants of the group. -/
def groupBody (split : Split) : Block Label Value where
  parameters := []
  body :=
    [ConstantBuffer.reciprocal, .epsilon, .one].flatMap
      (fun c => loadSingle (.constant c) (.base c) .group) ++
    .set .zero (.floatConst .zero) :: walkBounds split .mean
  terminator := walkStart .mean

def centre (split : Split) : Block Label Value where
  parameters := []
  body :=
    .set .mean
      (.float .mul (.walk .mean (.sum .outer)) (.loaded (.constant .reciprocal))) ::
    walkBounds split .variance
  terminator := walkStart .variance

def spread (split : Split) : Block Label Value where
  parameters := []
  body :=
    [.set .variance
      (.float .mul (.walk .variance (.sum .outer)) (.loaded (.constant .reciprocal))),
     .set .stabilized (.float .add .variance (.loaded (.constant .epsilon))),
     .set .standardDeviation (.sqrt .stabilized),
     .set .inverse (.float .div (.loaded (.constant .one)) .standardDeviation)] ++
    walkBounds split .normalize
  terminator := walkStart .normalize

def groupLatch : Block Label Value where
  parameters := []
  body := [.set .nextGroup (.integerImm .add .i64 .group 1)]
  terminator := .jump .groupHeader [.nextGroup]

/-! ## All together -/

/-- The block of a label. -/
def block (p : Parameters) (storage : ValueType) : Label → Block Label Value
  | .entry => entry p.split
  | .outOfBounds => answer .sliceOutOfBounds
  | .pointers => pointers p.affine
  | .nullPointer => answer .nullPointer
  | .setup => setup p.constants
  | .groupHeader => groupHeader
  | .groupBody => groupBody p.split
  | .walk .mean l => walkBlock p.split .mean meanBody .centre l
  | .centre => centre p.split
  | .walk .variance l => walkBlock p.split .variance varianceBody .spread l
  | .spread => spread p.split
  | .walk .normalize l =>
    walkBlock p.split .normalize (normalizeBody p.affine storage) .groupLatch l
  | .groupLatch => groupLatch
  | .done => answer .ok

/-- The labels of a walk, in the order of the blocks. -/
def walkLayout (p : Pass) : List Label :=
  [WalkLabel.outerHeader, .outerBody, .innerHeader, .innerBody, .outerLatch].map (Label.walk p)

/-- All labels, in the order of the blocks. -/
def layout : List Label :=
  [.entry, .outOfBounds, .pointers, .nullPointer, .setup, .groupHeader, .groupBody] ++
    walkLayout .mean ++ .centre :: walkLayout .variance ++ .spread :: walkLayout .normalize ++
    [.groupLatch, .done]

theorem mem_layout (l : Label) : l ∈ layout := by
  cases l with
  | walk p w => cases p <;> cases w <;> decide
  | _ => decide

theorem nodup_layout : layout.Nodup := by decide

end AxisNorm.Normalization
