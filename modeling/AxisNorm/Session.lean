import AxisNorm.Activity
import AxisNorm.Workspace

/-!
# Sessions

A session holds one descriptor with its workspace, and under names the kernels that were built from
it.

* `Session.build`: builds a kernel; it takes the place of one of the same name only if it succeeds.
* `Session.drop`: gives a kernel up.
* `Session.perform`: an activity of one kernel on the session's workspace.
-/

namespace AxisNorm

/-- Which backend a kernel is built with. -/
inductive BackendChoice where
  | native (level : OptLevel)
  | recording (injection : Injection)
  deriving DecidableEq, Repr

/-- A kernel of either backend. -/
inductive Member where
  | native (kernel : Kernel Memory)
  /-- A kernel whose instances record, with the invocations that were not shown yet. -/
  | recording (kernel : Kernel (List Invocation)) (record : List Invocation)

namespace Member

/-- The slices of the kernel's threads. -/
def slices : Member → List Slice
  | native k => k.slices
  | recording k _ => k.slices

/-- The number of threads. -/
def threads : Member → Nat
  | native k => k.threads
  | recording k _ => k.threads

/-- The names of the instances. -/
def instanceNames : Member → List String
  | native k => k.units.map (·.code.name)
  | recording k _ => k.units.map (·.code.name)

/-- How diagnostics write the kernel. -/
def text : Member → String
  | native k => k.text
  | recording k _ => k.text

def descriptor : Member → Descriptor
  | native k => k.descriptor
  | recording k _ => k.descriptor

/-- How many recording instances the kernel keeps. -/
def recordingInstances? : Member → Option Nat
  | native _ => none
  | recording k _ => some k.threads

end Member

/-- What an activity of a member leaves to be seen, beside the workspace. -/
structure Report where
  outcome : Outcome
  /-- The invocations of recording instances since they were last shown, in order. -/
  invocations : List Invocation
  events : List Event

/-- A descriptor, its workspace, and the kernels that hold on to it. -/
structure Session where
  descriptor : Descriptor
  workspace : Workspace
  members : List (String × Member)

namespace Session

/-- A session without kernels, whose output buffer has the given contents. -/
def start (d : Descriptor) (contents : List Nat) : Session := ⟨d, .ofDescriptor d contents, []⟩

/-- The kernel of a name. -/
def member? (s : Session) (name : String) : Option Member := s.members.lookup name

/-- How many hold on to the descriptor: the session itself and every kernel. -/
def references (s : Session) : Nat := 1 + s.members.length

/-- Gives up the kernel of a name, if there is one. -/
def drop (s : Session) (name : String) : Session :=
  { s with members := s.members.filter (·.1 != name) }

/-- Puts a kernel under a name. -/
def keep (s : Session) (name : String) (m : Member) : Session :=
  { s.drop name with members := (name, m) :: (s.drop name).members }

/-- A kernel of the session's descriptor, built by the chosen backend, and what the building reported. -/
def compile (s : Session) (workers : Workers) (choice : BackendChoice) (threads : Nat) :
    Except (Failure BuildError) Member × List Event :=
  match choice with
  | .native level =>
    let (k, events) :=
      Kernel.build (.native level) workers s.workspace.constants s.descriptor threads
    (k.map .native, events)
  | .recording injection =>
    let (k, events) :=
      Kernel.build (.recording injection) workers s.workspace.constants s.descriptor threads
    (k.map (.recording · []), events)

/-- Builds a kernel under a name. If that fails, the session stays as it is. -/
def build (s : Session) (workers : Workers) (name : String) (choice : BackendChoice) (threads : Nat) :
    Except (Failure BuildError) Member × List Event × Session :=
  match s.compile workers choice threads with
  | (.ok m, events) => (.ok m, events, s.keep name m)
  | (.error e, events) => (.error e, events, s)

/-- Writes numbers into the output buffer. -/
def refill (s : Session) (contents : List Nat) : Session :=
  { s with workspace := s.workspace.refill contents }

/-- An activity of the member of a name with the given arguments, under a schedule. One that was
stopped shows no invocations; they are kept for the next report. -/
def perform (s : Session) (name : String) (m : Member) (activity : Activity)
    (arguments : List Argument) (schedule : List Nat) : Report × Session :=
  let (data, memory) := s.workspace.stage arguments
  match m with
  | .native k =>
    let (outcome, memory, events) := k.perform data schedule memory activity
    (⟨outcome, [], events⟩, { s with workspace := s.workspace.withMemory memory })
  | .recording k record =>
    let (outcome, record, events) := k.perform data schedule record activity
    match outcome.stopped? with
    | none => (⟨outcome, record, events⟩, s.keep name (.recording k []))
    | some _ => (⟨outcome, [], events⟩, s.keep name (.recording k record))

end Session

end AxisNorm
