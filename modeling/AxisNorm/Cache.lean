import AxisNorm.Descriptor
import AxisNorm.Task

/-!
# The cache of descriptors

Equal descriptions share one descriptor. Callers look up, build and insert in separate steps, so that
two of them may build at the same time; the descriptor that is inserted first is the one they share.

* `Cache.request`: what one caller does, as a task on the cache.
* `Cache.clear`: forgets all descriptors.
-/

namespace AxisNorm

/-- A descriptor as an object of its own: building twice gives two. -/
structure SharedDescriptor where
  identity : Nat
  descriptor : Descriptor
  deriving DecidableEq

/-- The held descriptors by description, and the first identity that was not given out. -/
structure Cache where
  entries : List (Operator × SharedDescriptor)
  fresh : Nat

namespace Cache

def empty : Cache := ⟨[], 0⟩

/-- The held descriptor of a description. -/
def lookup? (c : Cache) (op : Operator) : Option SharedDescriptor :=
  (c.entries.find? fun e => e.1 == op).map (·.2)

/-- Gives out an identity. -/
def advance (c : Cache) : Cache := { c with fresh := c.fresh + 1 }

/-- Holds a descriptor unless one is held for its description. -/
def insertIfAbsent (c : Cache) (op : Operator) (d : SharedDescriptor) : Cache :=
  match c.lookup? op with
  | some _ => c
  | none => { c with entries := c.entries ++ [(op, d)] }

/-- Forgets all held descriptors. -/
def clear (c : Cache) : Cache := { c with entries := [] }

/-- The held descriptors. -/
def held (c : Cache) : List SharedDescriptor := c.entries.map (·.2)

/-- Looks a description up; if it is not there, builds its descriptor and inserts it unless another
caller was faster. Failures are not held. -/
def request (op : Operator) : Task Cache (Except (Failure DescriptorError) SharedDescriptor) :=
  .act id fun c =>
    match c.lookup? op with
    | some d => .done (.ok d)
    | none =>
      match Descriptor.ofOperator op with
      | .error e => .done (.error e)
      | .ok built =>
        .act advance fun c =>
          let d : SharedDescriptor := ⟨c.fresh, built⟩
          .act (insertIfAbsent · op d) fun c => .done (.ok ((c.lookup? op).getD d))

end Cache

/-- The number of an identity among those seen so far, in the order in which they were first seen. -/
def Cache.numberOf (seen : List Nat) (identity : Nat) : Nat × List Nat :=
  if identity ∈ seen then (seen.idxOf identity, seen) else (seen.length, seen ++ [identity])

end AxisNorm
