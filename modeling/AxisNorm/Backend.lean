import AxisNorm.Event
import AxisNorm.Task

/-!
# Backends

A backend turns parameters into instances. An instance processes a range of batch positions, step by
step, on a state of the backend's own kind.

* `Backend.native`: instances run the code of the parameters on memory.
* `Backend.recording`: instances write down how they were invoked, and fail where they are told to.
-/

namespace AxisNorm

/-- The pointers that an execution works on, and the address in memory at which they lie. -/
structure RuntimeData where
  address : UInt64
  pointers : List UInt64
  deriving DecidableEq, Repr

/-- Compiled code under a name. -/
structure Instance (σ : Type) where
  name : String
  /-- Processes `length` batch positions from `start` on. -/
  invoke : RuntimeData → (start length : Nat) → Task σ (Except Fault Unit)

/-- A compiler of parameters. -/
structure Backend (σ : Type) where
  name : String
  /-- The instance of a name, and what its compilation reports. -/
  compile : Parameters → (name : String) → Except CompileError (Instance σ) × List Event

/-! ## Code on memory -/

/-- What an instance reports when its code has ended. -/
def Code.Exit.report (name : String) : Code.Exit → Except Fault Unit
  | .returned status =>
    match Status.ofCode? status.toInt32.toInt with
    | some .ok => .ok ()
    | some s => .error (.status name s)
    | none => .error (.unknownStatus name status.toInt32.toInt)
  | .trapped trap => .error (.trapped name trap)

/-- The instance that runs a routine. Runtime data that is too short is not touched. -/
def Instance.ofRoutine (p : Parameters)
    (code : Code.Routine Normalization.Label Normalization.Value) (name : String) :
    Instance Memory where
  name := name
  invoke data start length :=
    if data.pointers.length < p.slotCount then
      .done (.error (.tooFewSlots name p.slotCount data.pointers.length))
    else
      (code.call p.stepBound
        [.i64 data.address, .i64 (UInt64.ofNat start), .i64 (UInt64.ofNat length)]).map
        (·.report name)

/-- Compiles to code for a machine with 64-bit pointers. -/
def Backend.native (level : OptLevel) : Backend Memory where
  name := "cranelift-jit"
  compile p name :=
    match p.routine? name "system_v" .i64 with
    | .error e => (.error (.lowering e), [])
    | .ok code => (.ok (.ofRoutine p code name), [.lowered name, .compiled name level])

/-! ## Recorded invocations -/

/-- One invocation of an instance. -/
structure Invocation where
  thread : Nat
  start : Nat
  length : Nat
  deriving DecidableEq, Repr

/-- What goes wrong with instances, by thread. -/
structure Injection where
  /-- The thread whose instance is not compiled. -/
  failing : Option Nat
  /-- The threads whose instances report a fault. -/
  faulty : List Nat
  deriving DecidableEq, Repr

/-- The name of the instance of a thread. -/
def instanceName (thread : Nat) : String := "layernorm_ba_t" ++ toString thread

/-- The thread of an instance's name: the number at its end. -/
def instanceThread (name : String) : Nat :=
  ((name.toList.reverse.takeWhile Char.isDigit).reverse).foldl
    (fun n c => 10 * n + (c.toNat - '0'.toNat)) 0

/-- Records every invocation; it never looks at the runtime data. -/
def Backend.recording (injection : Injection) : Backend (List Invocation) where
  name := "mock"
  compile _ name :=
    let thread := instanceThread name
    if injection.failing = some thread then (.error (.injected name), [])
    else
      (.ok {
        name
        invoke := fun _ start length =>
          .act (· ++ [⟨thread, start, length⟩]) fun _ =>
            .done (if thread ∈ injection.faulty then .error (.injected name) else .ok ()) }, [])

end AxisNorm
