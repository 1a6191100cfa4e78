import AxisNorm.Normalization.Group
import AxisNorm.Proofs.Code.Machine
import Mathlib.Logic.Function.Basic

/-!
# The code of a kernel without registers

The loads and stores of a call in their order, as a task. The nested loops of a walk are one loop over
the elements of a group, and sizes are natural numbers.

* `overElements`: a loop that carries a value from element to element.
* `groupProgram`: one group, its constants and the three walks over it.
* `program`: a whole call, with its guards.
-/

namespace AxisNorm.Normalization

open Code

/-- The address of element `e` of a buffer whose elements have `width` bytes. -/
def elementAddress (base : UInt64) (width e : Nat) : UInt64 := base + UInt64.ofNat (width * e)

def loadNumber (base : UInt64) (e : Nat) (next : Single → Task Memory Exit) : Task Memory Exit :=
  .load (elementAddress base 4 e) 4 fun n => next ⟨UInt32.ofNat n⟩

/-- `count` elements from number `k` on. The body hands its result on. -/
def overElements {S : Type} (body : Nat → S → (S → Task Memory Exit) → Task Memory Exit)
    (next : S → Task Memory Exit) : (count k : Nat) → S → Task Memory Exit
  | 0, _, s => next s
  | count + 1, k, s => body k s (overElements body next count (k + 1))

theorem overElements_add {S : Type} (body : Nat → S → (S → Task Memory Exit) → Task Memory Exit)
    (next : S → Task Memory Exit) (n m k : Nat) :
    overElements body next (n + m) k = overElements body (overElements body next m (k + n)) n k := by
  induction n generalizing k with
  | zero => rw [Nat.zero_add]; rfl
  | succ n ih =>
    funext s
    rw [Nat.succ_add_eq_add_succ, Nat.add_succ, overElements, overElements, ih, Nat.succ_add_eq_add_succ]

section

variable (p : Parameters) (pointer : Role → UInt64)

/-- A term of the sum for element `k` of group `b`. -/
def sumStep (term : Single → Single) (b k : Nat) (s : Single) (next : Single → Task Memory Exit) :
    Task Memory Exit :=
  loadNumber (pointer .src) (p.split.position b k) fun x => next (s + term x)

def scaleAndShift (k : Nat) (y : Single) (next : Single → Task Memory Exit) : Task Memory Exit :=
  if p.affine then
    loadNumber (pointer .alpha) k fun f => loadNumber (pointer .beta) k fun g => next (y * f + g)
  else next y

/-- Normalizes element `k` of group `b` and stores it. -/
def storeStep (mean inverse : Single) (b k : Nat) (_ : Unit) (next : Unit → Task Memory Exit) :
    Task Memory Exit :=
  loadNumber (pointer .src) (p.split.position b k) fun x =>
    scaleAndShift p pointer k ((x - mean) * inverse) fun y =>
      .store (elementAddress (pointer .dst) p.dstType.bytes (p.split.position b k)) p.dstType.bytes
        (p.dstType.stored y) (next ())

/-- The last walk over group `b`. -/
def normalizeProgram (b : Nat) (mean inverse : Single) (next : Task Memory Exit) : Task Memory Exit :=
  overElements (storeStep p pointer mean inverse b) (fun _ => next) (p.split.outer * p.split.inner) 0 ()

/-- The last two walks. -/
def varianceProgram (c : GroupConstants) (b : Nat) (mean : Single) (next : Task Memory Exit) :
    Task Memory Exit :=
  overElements (sumStep p pointer (fun x => (x - mean) * (x - mean)) b) (fun squares =>
    normalizeProgram p pointer b mean (c.one / (squares * c.reciprocal + c.epsilon).sqrt) next)
    (p.split.outer * p.split.inner) 0 .zero

/-- All three walks. -/
def meanProgram (c : GroupConstants) (b : Nat) (next : Task Memory Exit) : Task Memory Exit :=
  overElements (sumStep p pointer id b) (fun sum =>
    varianceProgram p pointer c b (sum * c.reciprocal) next) (p.split.outer * p.split.inner) 0 .zero

def loadConstant (c : ConstantBuffer) (b : Nat) (next : Single → Task Memory Exit) : Task Memory Exit :=
  loadNumber (UInt64.ofNat (p.constants.of c)) b next

/-- Group `b`: its constants, and the walks. -/
def groupProgram (b : Nat) (next : Task Memory Exit) : Task Memory Exit :=
  loadConstant p .reciprocal b fun reciprocal =>
    loadConstant p .epsilon b fun epsilon =>
      loadConstant p .one b fun one => meanProgram p pointer ⟨reciprocal, epsilon, one⟩ b next

/-- `count` groups from `b` on, and the answer that all went well. -/
def groupsProgram : (count b : Nat) → Task Memory Exit
  | 0, _ => .done (.returned 0)
  | count + 1, b => groupProgram p pointer b (groupsProgram count (b + 1))

end

def loadPointers (data : UInt64) (next : (Role → UInt64) → Task Memory Exit) :
    List Role → (Role → UInt64) → Task Memory Exit
  | [], pointer => next pointer
  | role :: roles, pointer =>
    .load (data + UInt64.ofNat (8 * role.index)) 8 fun n =>
      loadPointers data next roles (Function.update pointer role (UInt64.ofNat n))

/-- What a call does whose pointers have been loaded. -/
def guardedGroups (p : Parameters) (start length : Nat) (pointer : Role → UInt64) : Task Memory Exit :=
  if ∃ role ∈ Role.used p.affine, pointer role = 0 then .done (.returned 1)
  else groupsProgram p pointer length start

/-- A call: the slice is tested first, then the pointers. -/
def program (p : Parameters) (data start length : UInt64) : Task Memory Exit :=
  if start.toNat + length.toNat ≤ p.split.batch then
    loadPointers data (guardedGroups p start.toNat length.toNat) (Role.used p.affine) fun _ => 0
  else .done (.returned 2)

end AxisNorm.Normalization
