import AxisNorm.Code.Machine
import AxisNorm.Normalization.Routine

/-!
# Errors of building and running kernels

* `CompileError`, `BuildError`: why an instance, or a kernel, was not built.
* `Fault`: what an instance reports instead of success.
* `ExecuteError`: why an execution of a kernel did not succeed.
-/

namespace AxisNorm

/-- Why an instance was not compiled. -/
inductive CompileError where
  | lowering (cause : LoweringError)
  /-- The failure was asked for. -/
  | injected (name : String)
  deriving DecidableEq, Repr

def CompileError.message : CompileError → String
  | .lowering cause => "codegen error: " ++ cause.message
  | .injected name => "JIT compilation failed: injected failure for " ++ name

/-- Why a kernel was not built. -/
inductive BuildError where
  /-- The instance of a thread was not compiled. -/
  | compilation (thread : Nat) (cause : CompileError)
  /-- The host refused a pool of threads, and said why. -/
  | threadPool (reason : String)
  deriving DecidableEq, Repr

def BuildError.message : BuildError → String
  | .compilation thread cause =>
    "compilation failed for thread " ++ toString thread ++ ": " ++ cause.message
  | .threadPool reason => "failed to build worker pool: " ++ reason

/-- What the instance of a given name reports. -/
inductive Fault where
  | tooFewSlots (name : String) (expected given : Nat)
  | status (name : String) (answer : Status)
  | unknownStatus (name : String) (code : Int)
  | trapped (name : String) (trap : Code.Trap)
  /-- The fault was asked for. -/
  | injected (name : String)
  deriving DecidableEq, Repr

def Fault.reason : Fault → String
  | .tooFewSlots name expected given =>
    name ++ " expects " ++ toString expected ++ " runtime-data slots, got " ++ toString given
  | .status name answer => name ++ " returned " ++ answer.name
  | .unknownStatus name code => name ++ " returned unknown status " ++ toString code
  | .trapped name .badOperand => name ++ " stopped at a missing operand"
  | .trapped name (.unmapped address) => name ++ " stopped at address " ++ toString address
  | .trapped name .tooManySteps => name ++ " did not end"
  | .injected name => "injected fault in " ++ name

def Fault.message (f : Fault) : String := "execution error: " ++ f.reason

/-- Why an execution did not succeed. -/
inductive ExecuteError where
  | tooFewSlots (expected given : Nat)
  /-- The instances of these threads reported a fault. -/
  | faulted (threads : List Nat)
  deriving DecidableEq, Repr

def ExecuteError.message : ExecuteError → String
  | .tooFewSlots expected given =>
    "execution error: expected " ++ toString expected ++ " runtime-data slots, got " ++ toString given
  | .faulted threads => "execution fault in thread(s) " ++ Shape.text threads

end AxisNorm
