import AxisNorm.Kernel

/-!
# Workspaces

The memory in which the kernels of one descriptor run: the constant buffers, one output buffer, and
the inputs of the execution at hand.

* `Arena.allocate`: maps one buffer after the other, from the bottom up.
* `Workspace.ofDescriptor`: the constants and the output buffer of a descriptor.
* `Workspace.stage`: the inputs of one execution, and the array of pointers to them.
-/

namespace AxisNorm

/-- A run of numbers in memory. -/
structure Buffer where
  address : Nat
  /-- The number of bytes of one number. -/
  width : Nat
  length : Nat
  deriving DecidableEq, Repr

/-- Memory in which the addresses from `free` on are not in use. -/
structure Arena where
  memory : Memory
  free : Nat

namespace Arena

/-- Nothing is mapped, and the first addresses stay free for good. -/
def empty : Arena := ⟨.empty, 0x10000⟩

/-- Maps numbers of `width` bytes each at the first free address. -/
def allocate (a : Arena) (width : Nat) (values : List Nat) : Buffer × Arena :=
  (⟨a.free, width, values.length⟩,
   ⟨a.memory.place (UInt64.ofNat a.free) width values, a.free + width * values.length⟩)

/-- Maps a buffer of single-precision numbers. -/
def allocateSingles (a : Arena) (xs : List Single) : Buffer × Arena :=
  a.allocate 4 (xs.map (·.bits.toNat))

end Arena

/-- What a slot of the runtime data holds. -/
inductive Argument where
  /-- A pointer to these numbers. -/
  | values (xs : List Single)
  /-- A pointer to the output buffer. -/
  | output
  | null
  /-- A pointer that is not null and to nothing that is mapped. -/
  | foreign
  deriving DecidableEq, Repr

/-- The memory of a descriptor's kernels. -/
structure Workspace where
  /-- Constants and output; all inputs are placed behind them. -/
  arena : Arena
  constants : ConstantAddresses
  output : Buffer

namespace Workspace

/-- The constants of a descriptor, and an output buffer with the given numbers in it. -/
def ofDescriptor (d : Descriptor) (contents : List Nat) : Workspace :=
  let (reciprocals, a) := Arena.empty.allocateSingles d.reciprocals
  let (epsilons, a) := a.allocateSingles d.epsilons
  let (ones, a) := a.allocateSingles d.ones
  let (output, a) := a.allocate d.dstType.bytes contents
  { arena := a
    constants := ⟨reciprocals.address, epsilons.address, ones.address⟩
    output }

/-- The numbers in the output buffer. -/
def contents (w : Workspace) : List Nat :=
  (w.arena.memory.read (UInt64.ofNat w.output.address) w.output.width w.output.length).map (·.getD 0)

/-- Writes numbers into the output buffer, from its start on. -/
def refill (w : Workspace) (contents : List Nat) : Workspace :=
  { w with arena.memory :=
      w.arena.memory.place (UInt64.ofNat w.output.address) w.output.width contents }

/-- The same workspace with another memory. -/
def withMemory (w : Workspace) (m : Memory) : Workspace := { w with arena.memory := m }

/-- The pointer of a slot, and the memory in which it points to what it should. -/
def place (w : Workspace) (a : Arena) : Argument → Nat × Arena
  | .values xs =>
    let (buffer, a) := a.allocateSingles xs
    (buffer.address, a)
  | .output => (w.output.address, a)
  | .null => (0, a)
  | .foreign => (8, a)

/-- The pointers of all slots, in order. -/
def placeAll (w : Workspace) (a : Arena) : List Argument → List Nat × Arena
  | [] => ([], a)
  | x :: xs =>
    let (p, a) := w.place a x
    let (ps, a) := w.placeAll a xs
    (p :: ps, a)

/-- Places the inputs of one execution and the array of their pointers. What earlier executions have
placed is overwritten. -/
def stage (w : Workspace) (arguments : List Argument) : RuntimeData × Memory :=
  let (pointers, a) := w.placeAll w.arena arguments
  let (array, a) := a.allocate 8 pointers
  (⟨UInt64.ofNat array.address, pointers.map UInt64.ofNat⟩, a.memory)

/-- Invokes one instance on a range of batch positions. -/
def invoke (w : Workspace) (code : Instance Memory) (arguments : List Argument)
    (start length : Nat) : Except Fault Unit × Workspace :=
  let (data, m) := w.stage arguments
  let (result, m) := (code.invoke data start length).run m
  (result, w.withMemory m)

end Workspace

end AxisNorm
