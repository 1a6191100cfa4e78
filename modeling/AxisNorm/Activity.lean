import AxisNorm.Benchmark
import AxisNorm.Kernel

/-!
# Activities

What a caller does with a kernel besides building it: execute it once, from several threads, or again
and again for a benchmark.

* `Kernel.timedCall`: one execution as a call that a benchmark can make.
* `Kernel.perform`: an activity, with its outcome and what it reported.
-/

namespace AxisNorm

/-- What to do with a kernel. -/
inductive Activity where
  | execute
  | executeChecked
  /-- Several callers execute the kernel once each. -/
  | callers (count : Nat)
  /-- A benchmark, with a cutoff or without. -/
  | benchmark (config : Benchmark.Config) (cutoff : Option Nat)
  deriving DecidableEq, Repr

/-- What came of an activity. A benchmark may also be stopped by the host's arithmetic, which is no outcome
that the kernel reports. -/
inductive Outcome where
  | executed (succeeded : Bool)
  | checked (result : Except ExecuteError Unit)
  | called (succeeded : List Bool)
  /-- The summary of a benchmark; nothing if it was cut off. -/
  | measured (result : Except (Failure ExecuteError) (Option Benchmark.Summary))

/-- What stopped an activity that did not come to an end. -/
def Outcome.stopped? : Outcome → Option ArithmeticError
  | .measured (.error (.arithmetic e)) => some e
  | _ => none

/-- How the calls of a benchmark go: the schedule of each, and the time that it takes. -/
structure Course where
  schedule : Nat → List Nat
  elapsed : Nat → Nat

/-- What calls of a kernel have left: the state, what they reported, and how many they were. -/
structure Calls (σ : Type) where
  state : σ
  events : List Event
  count : Nat

namespace Kernel

variable {σ : Type}

/-- Executes as often as there are callers, one after the other. -/
def executeTimes (k : Kernel σ) (data : RuntimeData) (schedule : List Nat) :
    (count : Nat) → σ → List Bool × σ × List Event
  | 0, s => ([], s, [])
  | count + 1, s =>
    let e := k.execute data schedule s
    let (rest, s, events) := k.executeTimes data schedule count e.state
    (e.succeeded :: rest, s, e.events ++ events)

/-- One execution of a benchmark. The interleaving and the time may differ from call to call. -/
def timedCall (k : Kernel σ) (data : RuntimeData) (course : Course) (c : Calls σ) :
    Benchmark.Run × Calls σ :=
  let e := k.execute data (course.schedule c.count) c.state
  (⟨e.succeeded, course.elapsed c.count⟩, ⟨e.state, c.events ++ e.events, c.count + 1⟩)

/-- A benchmark in which a failed call counts as a fault of no thread in particular. -/
def benchmark (k : Kernel σ) (config : Benchmark.Config) (cutoff : Option Nat) (data : RuntimeData)
    (course : Course) (s : σ) : Except (Failure ExecuteError) (Option Benchmark.Summary) × Calls σ :=
  let call := k.timedCall data course
  let (result, c) := match cutoff with
    | none =>
      let (result, c) := Benchmark.measure config call ⟨s, [], 0⟩
      (result.map some, c)
    | some cutoff => Benchmark.measureWithCutoff config cutoff call ⟨s, [], 0⟩
  (result.mapError (·.map fun _ => .faulted []), c)

/-- Performs an activity. The clock is one that advances by one with every execution. -/
def perform (k : Kernel σ) (data : RuntimeData) (schedule : List Nat) (s : σ) :
    Activity → Outcome × σ × List Event
  | .execute =>
    let e := k.execute data schedule s
    (.executed e.succeeded, e.state, e.events)
  | .executeChecked =>
    let e := k.executeChecked data schedule s
    (.checked e.outcome, e.state, e.events)
  | .callers count =>
    let (answers, rest) := k.executeTimes data schedule count s
    (.called answers, rest)
  | .benchmark config cutoff =>
    let (result, c) := k.benchmark config cutoff data ⟨fun _ => schedule, fun _ => 1⟩ s
    (.measured result, c.state, c.events)

end Kernel

end AxisNorm
