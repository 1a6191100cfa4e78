import AxisNorm.Arithmetic
import AxisNorm.ElementType
import AxisNorm.Shape
import AxisNorm.Split
import AxisNorm.Partition
import AxisNorm.Operator
import AxisNorm.Float.Single
import AxisNorm.Text.Quoted
import AxisNorm.Text.WhiteSpace
import AxisNorm.Decimal
import AxisNorm.Code.Listing
import AxisNorm.Code.Machine
import AxisNorm.Normalization.Routine
import AxisNorm.Normalization.Group
import AxisNorm.Event
import AxisNorm.Workers
import AxisNorm.Kernel
import AxisNorm.Benchmark
import AxisNorm.Cache
import AxisNorm.Workspace
import AxisNorm.Activity
import AxisNorm.Session
import AxisNorm.Proofs.Arithmetic
import AxisNorm.Proofs.Code.Footprint
import AxisNorm.Proofs.Code.Machine
import AxisNorm.Proofs.Code.Reach
import AxisNorm.Proofs.Descriptor
import AxisNorm.Proofs.Epsilon
import AxisNorm.Proofs.Kernel.Build
import AxisNorm.Proofs.Kernel.Executable
import AxisNorm.Proofs.Kernel.Execute
import AxisNorm.Proofs.Kernel.Instance
import AxisNorm.Proofs.Kernel.Outcome
import AxisNorm.Proofs.Kernel.Parallel
import AxisNorm.Proofs.Memory
import AxisNorm.Proofs.Normalization.Accepted
import AxisNorm.Proofs.Normalization.Addressing
import AxisNorm.Proofs.Normalization.Buffers
import AxisNorm.Proofs.Normalization.Call
import AxisNorm.Proofs.Normalization.Correct
import AxisNorm.Proofs.Normalization.Element
import AxisNorm.Proofs.Normalization.Footprint
import AxisNorm.Proofs.Normalization.InBounds
import AxisNorm.Proofs.Normalization.Program
import AxisNorm.Proofs.Normalization.Rules
import AxisNorm.Proofs.Normalization.Status
import AxisNorm.Proofs.Normalization.Walk
import AxisNorm.Proofs.Ownership
import AxisNorm.Proofs.Partition
import AxisNorm.Proofs.Shape
import AxisNorm.Proofs.Split
import AxisNorm.Proofs.Task.Agreement
import AxisNorm.Proofs.Task.Contract
import AxisNorm.Proofs.Task.Stutter
import AxisNorm.Proofs.Kernel.Faults
import AxisNorm.Proofs.Cache.History
import AxisNorm.Proofs.Cache.Entries
import AxisNorm.Proofs.Cache.Consistency
import AxisNorm.Proofs.Float.Format
import AxisNorm.Proofs.Float.Nearest
import AxisNorm.Proofs.Float.Reciprocal
import AxisNorm.Proofs.Constants
import AxisNorm.Proofs.Kernel.Groups
import AxisNorm.Proofs.RowMajor
import AxisNorm.Proofs.Balance
import AxisNorm.Proofs.Float.Middle
import AxisNorm.Proofs.Float.DoubleRounding
import AxisNorm.Proofs.Float.Half
import AxisNorm.Proofs.Normalization.Rounding
import AxisNorm.Proofs.Kernel.Compile
import AxisNorm.Proofs.Text
import AxisNorm.Proofs.Float.Decimal
import AxisNorm.Proofs.Numeral
import AxisNorm.Proofs.Attribute
import AxisNorm.Proofs.Float.Operations
import AxisNorm.Proofs.Kernel.InPlace
import AxisNorm.Proofs.Kernel.NotFinite
import AxisNorm.Proofs.Float.Bounds
import AxisNorm.Proofs.Kernel.Finite
import AxisNorm.Proofs.Code.WellFormed
import AxisNorm.Proofs.Code.Operands
import AxisNorm.Proofs.Normalization.WellFormed
import AxisNorm.Proofs.Float.Identity
import AxisNorm.Proofs.Kernel.Identity
import AxisNorm.Proofs.Benchmark
import AxisNorm.Proofs.Cutoff
import AxisNorm.Proofs.Kernel.Benchmark
import AxisNorm.Proofs.Cache.Attributes
import AxisNorm.Proofs.Code.Tour
import AxisNorm.Proofs.Normalization.Visits
import AxisNorm.Proofs.Normalization.Rounds
import AxisNorm.Proofs.Normalization.Order
