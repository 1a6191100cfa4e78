import AxisNorm.Descriptor
import AxisNorm.Error
import AxisNorm.Partition
import AxisNorm.Settings

/-!
# Events

What building and running kernels reports while it goes on. An event has a level, a message and
named fields.
-/

namespace AxisNorm

/-- How much an event matters. -/
inductive Level where
  | trace
  | debug
  | warn
  deriving DecidableEq, Repr

def Level.name : Level → String
  | .trace => "TRACE"
  | .debug => "DEBUG"
  | .warn => "WARN"

/-- The value of an event's field. -/
inductive Field where
  | number (n : Nat)
  | flag (b : Bool)
  | text (s : String)
  deriving DecidableEq, Repr

/-- Something that happened. -/
inductive Event where
  | descriptorBuilt (groups groupSize : Nat) (policy : EpsilonPolicy) (affine : Bool)
    (dstType : ElementType)
  | buildStarted (backend : String) (requested effective batch : Nat)
  | lowered (kernel : String)
  | compiled (kernel : String) (level : OptLevel)
  | instanceCompiled (kernel : String) (slice : Slice)
  | executing (threads slots : Nat)
  | instanceFaulted (kernel : String) (slice : Slice) (fault : Fault)
  | executeFailed (error : ExecuteError)
  deriving DecidableEq, Repr

namespace Event

def level : Event → Level
  | descriptorBuilt .. | buildStarted .. => .debug
  | lowered .. | compiled .. | instanceCompiled .. | executing .. => .trace
  | instanceFaulted .. | executeFailed .. => .warn

def message : Event → String
  | descriptorBuilt .. => "layernorm_ba descriptor built"
  | buildStarted .. => "building layernorm_ba kernel"
  | lowered .. => "lowered layernorm_ba"
  | compiled .. => "Cranelift kernel compiled"
  | instanceCompiled .. => "thread instance compiled"
  | executing .. => "executing layernorm_ba kernel"
  | instanceFaulted .. => "thread instance faulted"
  | executeFailed .. => "layernorm_ba execute failed"

/-- The fields by name. The text of the code itself is left out. -/
def fields : Event → List (String × Field)
  | descriptorBuilt groups groupSize policy affine dstType =>
    [("groups", .number groups), ("group.size", .number groupSize), ("epsilon", .text policy.name),
     ("affine", .flag affine), ("dst.dtype", .text dstType.name)]
  | buildStarted backend requested effective batch =>
    [("backend", .text backend), ("threads.requested", .number requested),
     ("threads.effective", .number effective), ("batch", .number batch)]
  | lowered kernel => [("kernel.name", .text kernel), ("clif", .text "...")]
  | compiled kernel level => [("kernel.name", .text kernel), ("opt_level", .text level.name)]
  | instanceCompiled kernel slice =>
    [("kernel.name", .text kernel), ("slice.start", .number slice.start),
     ("slice.len", .number slice.length)]
  | executing threads slots => [("threads", .number threads), ("slots", .number slots)]
  | instanceFaulted kernel slice fault =>
    [("thread", .number slice.thread), ("kernel.name", .text kernel),
     ("slice.start", .number slice.start), ("slice.len", .number slice.length),
     ("error", .text fault.message)]
  | executeFailed error => [("error", .text error.message)]

end Event

/-- What the building of a descriptor reports: one event, if it succeeds. -/
def Descriptor.events : Except (Failure DescriptorError) Descriptor → List Event
  | .error _ => []
  | .ok d =>
    match d.split.groupSize with
    | .ok groupSize => [.descriptorBuilt d.split.groupCount groupSize d.policy d.affine d.dstType]
    | .error _ => []

end AxisNorm
