import AxisNorm.Backend
import AxisNorm.Text.Quoted
import AxisNorm.Workers

/-!
# Kernels

A kernel has one instance per thread, each with its own slice of the batch.

* `Kernel.build`: compiles the instances, on a pool of threads if there are several.
* `Kernel.executeChecked`: invokes every instance once, interleaved by a schedule, and names the
  threads that reported a fault.
* `Kernel.execute`: the same, answering whether all went well.
-/

namespace AxisNorm

/-- A thread's share of a kernel. -/
structure WorkUnit (σ : Type) where
  slice : Slice
  code : Instance σ

/-- An executable kernel; its units are in the order of their threads. -/
structure Kernel (σ : Type) where
  descriptor : Descriptor
  units : List (WorkUnit σ)

/-- The bytes of a unit: a slice, and two pointers to its instance. -/
def WorkUnit.bytes : Nat := 40

namespace Kernel

variable {σ : Type}

/-- Compiles the instance of a slice. -/
def compileUnit (backend : Backend σ) (p : Parameters) (slice : Slice) :
    Except BuildError (WorkUnit σ) × List Event :=
  let name := instanceName slice.thread
  match backend.compile p name with
  | (.error cause, events) => (.error (.compilation slice.thread cause), events)
  | (.ok code, events) => (.ok ⟨slice, code⟩, events ++ [.instanceCompiled name slice])

/-- Compiles the instances of all slices: several threads on a pool of as many, for which there has to be
room for the units, and a single one by itself. -/
def compileUnits (backend : Backend σ) (workers : Workers) (p : Parameters) (threads : Nat)
    (slices : List Slice) : Except (Failure BuildError) (List (WorkUnit σ)) × List Event :=
  if 1 < threads then
    match workers.start threads with
    | .error reason => (.error (.error (.threadPool reason)), [])
    | .ok () => workers.collect WorkUnit.bytes (compileUnit backend p) slices
  else
    let (units, events) := collectInOrder (compileUnit backend p) slices
    (units.mapError .error, events)

/-- Builds a kernel for at most `requested` threads, whose constants lie at the given addresses. -/
def build (backend : Backend σ) (workers : Workers) (home : ConstantAddresses) (d : Descriptor)
    (requested : Nat) : Except (Failure BuildError) (Kernel σ) × List Event :=
  let threads := effectiveThreads requested d.split.groupCount
  match partition d.split.groupCount threads with
  | .error e => (.error (.arithmetic e), [])
  | .ok slices =>
    let started := .buildStarted backend.name requested threads d.split.groupCount
    let (units, events) := compileUnits backend workers (d.parameters home) threads slices
    (units.map (⟨d, ·⟩), started :: events)

/-- The number of threads. -/
def threads (k : Kernel σ) : Nat := k.units.length

def slices (k : Kernel σ) : List Slice := k.units.map (·.slice)

/-- How diagnostics write a kernel. -/
def text (k : Kernel σ) : String :=
  let unitText (u : WorkUnit σ) :=
    "ThreadUnit \x7b slice: BatchSlice \x7b thread: " ++ toString u.slice.thread ++ ", start: " ++
      toString u.slice.start ++ ", len: " ++ toString u.slice.length ++ " \x7d, kernel: " ++
      Text.quoted u.code.name.toList ++ " \x7d"
  "LayernormBaKernel \x7b nthr: " ++ toString k.threads ++ ", units: [" ++
    ", ".intercalate (k.units.map unitText) ++ "], .. \x7d"

/-! ## Execution -/

/-- How an execution ended, the state it left, and what it reported. -/
structure Execution (σ : Type) where
  outcome : Except ExecuteError Unit
  state : σ
  events : List Event

/-- Whether an execution succeeded. -/
def Execution.succeeded (e : Execution σ) : Bool :=
  match e.outcome with
  | .ok () => true
  | .error _ => false

/-- The steps of a unit over the caller's runtime data; the result says whose it is. -/
def invokeUnit (data : RuntimeData) (u : WorkUnit σ) :
    Task σ (WorkUnit σ × Except Fault Unit) :=
  (u.code.invoke data u.slice.start u.slice.length).map (u, ·)

/-- The units among the results that reported a fault. -/
def faultsOf (results : List (WorkUnit σ × Except Fault Unit)) : List (WorkUnit σ × Fault) :=
  results.filterMap fun (u, r) =>
    match r with
    | .ok () => none
    | .error f => some (u, f)

/-- Runs every unit once over the runtime data, their steps interleaved by the schedule. Runtime data
that is too short is not touched. Slices that completed keep what they wrote. -/
def executeChecked (k : Kernel σ) (data : RuntimeData) (schedule : List Nat) (s : σ) : Execution σ :=
  let slots := Role.count k.descriptor.affine
  if data.pointers.length < slots then
    ⟨.error (.tooFewSlots slots data.pointers.length), s, []⟩
  else
    let (results, s) := Pool.run schedule (k.units.map (invokeUnit data)) s
    let faults := faultsOf results
    let threads := (faults.map (·.1.slice.thread)).mergeSort
    ⟨if threads = [] then .ok () else .error (.faulted threads), s,
      .executing k.threads data.pointers.length ::
        faults.map fun (u, f) => .instanceFaulted u.code.name u.slice f⟩

/-- The same; a failure is reported as one more event. -/
def execute (k : Kernel σ) (data : RuntimeData) (schedule : List Nat) (s : σ) : Execution σ :=
  let e := k.executeChecked data schedule s
  match e.outcome with
  | .ok () => e
  | .error cause => { e with events := e.events ++ [.executeFailed cause] }

end Kernel

end AxisNorm
