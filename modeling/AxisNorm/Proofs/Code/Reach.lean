import AxisNorm.Proofs.Code.Machine
import Mathlib.Algebra.Ring.Int.Defs

/-!
# What holds at every step of a run

A property of all steps of a run is shown block by block: each block has an assertion about the
registers it starts with, and hands the assertion of the next block on.

* `Routine.Reaches`: the frames of a run, whatever memory holds at each step.
* `Routine.Checks`: straight-line code whose instructions are all fine and whose end finds the assertion of
  the block it leads to, for as long as memory is as assumed. There is one rule for each sort of instruction
  and of terminator.
* `Routine.Reaches.fine_head`: **if every block checks under its assertion, every instruction of a run is
  fine.**
* `Operation.Exact`: 64-bit arithmetic that does not wrap around.
-/

namespace AxisNorm.Code

variable {L V : Type} [DecidableEq V] [Hashable V]

/-- The frames that a run goes through. Memory may hold anything at each step, so that these are also
the frames of a call between whose steps others write. -/
inductive Routine.Reaches (code : Routine L V) : Progress L V → Frame L V → Prop
  | here (f : Frame L V) : Reaches code (.running f) f
  | step {f g : Frame L V} (m : Memory) (h : Reaches code (f.next code m) g) :
    Reaches code (.running f) g

section

variable (code : Routine L V) (ok : Memory → Prop) (fine : Registers V → Instruction V → Prop)
  (assertion : L → Registers V → Prop)

/-- What is left of a block: its instructions are fine one after the other, and the block that follows
starts with registers that satisfy its assertion, if every step finds memory that is `ok`. -/
def Routine.Checks (e : Terminator L V) : List (Instruction V) → Registers V → Prop
  | [], r => ∀ (m : Memory) (g : Frame L V), ok m → Frame.next code ⟨r, [], e⟩ m = .running g →
      ∃ l, g.pending = (code.block l).body ∧ g.terminator = (code.block l).terminator ∧
        assertion l g.registers
  | i :: rest, r => fine r i ∧ ∀ (m : Memory) (g : Frame L V), ok m →
      Frame.next code ⟨r, i :: rest, e⟩ m = .running g → Routine.Checks e rest g.registers

end

variable {code : Routine L V} {ok : Memory → Prop} {fine : Registers V → Instruction V → Prop}
  {assertion : L → Registers V → Prop} {r : Registers V} {e : Terminator L V}
  {rest : List (Instruction V)}

/-! ## Soundness -/

theorem Frame.next_cons {i : Instruction V} {m : Memory} {g : Frame L V}
    (h : Frame.next code ⟨r, i :: rest, e⟩ m = .running g) : g.pending = rest ∧ g.terminator = e := by
  cases i with
  | set v op =>
    simp only [Frame.next, Frame.proceed] at h
    split at h
    · cases h; exact ⟨rfl, rfl⟩
    · cases h
  | load v type a offset =>
    simp only [Frame.next, Frame.proceed] at h
    split at h
    · cases h
    split at h
    · cases h
    split at h
    · cases h; exact ⟨rfl, rfl⟩
    · cases h
  | store type v a offset =>
    simp only [Frame.next] at h
    split at h
    · split at h
      · cases h; exact ⟨rfl, rfl⟩
      · cases h
    · cases h

namespace Routine

variable (hblocks : ∀ l r, assertion l r →
  code.Checks ok fine assertion (code.block l).terminator (code.block l).body r)

include hblocks

theorem Checks.next {f g : Frame L V} {m : Memory}
    (hf : code.Checks ok fine assertion f.terminator f.pending f.registers) (hm : ok m)
    (h : f.next code m = .running g) :
    code.Checks ok fine assertion g.terminator g.pending g.registers := by
  obtain ⟨r, pending, e⟩ := f
  cases pending with
  | nil =>
    obtain ⟨l, hbody, hend, hl⟩ := hf m g hm h
    rw [hbody, hend]
    exact hblocks l _ hl
  | cons i rest =>
    obtain ⟨hrest, hend⟩ := Frame.next_cons h
    rw [hrest, hend]
    exact hf.2 m g hm h

variable (hok : ∀ m, ok m)

include hok

theorem Reaches.checks {p : Progress L V} {f : Frame L V} (hf : code.Reaches p f)
    (hp : ∀ g, p = .running g → code.Checks ok fine assertion g.terminator g.pending g.registers) :
    code.Checks ok fine assertion f.terminator f.pending f.registers := by
  induction hf with
  | here f => exact hp f rfl
  | step m _ ih => exact ih fun g hg => Checks.next hblocks (hp _ rfl) (hok m) hg

/-- **If every block checks under its assertion, every instruction of a run is fine.** -/
theorem Reaches.fine_head {p : Progress L V} {f : Frame L V} (hf : code.Reaches p f)
    (hp : ∀ g, p = .running g → code.Checks ok fine assertion g.terminator g.pending g.registers)
    {i : Instruction V} (hi : f.pending = i :: rest) : fine f.registers i := by
  have h := Reaches.checks hblocks hok hf hp
  rw [hi] at h
  exact h.1

end Routine

/-! ## Rules -/

namespace Routine.Checks

theorem set {v : V} {op : Operation V} (hfine : fine r (.set v op))
    (h : ∀ w, op.evaluate? r = some w → code.Checks ok fine assertion e rest (r.set v w)) :
    code.Checks ok fine assertion e (.set v op :: rest) r := by
  refine ⟨hfine, fun m g hm hg => ?_⟩
  simp only [Frame.next, Frame.proceed] at hg
  split at hg
  · next w hw => cases hg; exact h w hw
  · cases hg

theorem set_of_eq {v : V} {op : Operation V} {w : Word} (hfine : fine r (.set v op))
    (hw : op.evaluate? r = some w) (h : code.Checks ok fine assertion e rest (r.set v w)) :
    code.Checks ok fine assertion e (.set v op :: rest) r := by
  refine set hfine fun w' hw' => ?_
  obtain rfl : w = w' := Option.some.inj (hw.symm.trans hw')
  exact h

theorem assigns {is : List (Instruction V)} {r' : Registers V} (hfine : ∀ r, ∀ i ∈ is, fine r i)
    (hr : r.Assigns is r') (h : code.Checks ok fine assertion e rest r') :
    code.Checks ok fine assertion e (is ++ rest) r := by
  induction hr with
  | nil r => exact h
  | set hw _ ih =>
    exact set_of_eq (hfine _ _ List.mem_cons_self) hw (ih (fun r i hi => hfine r i (List.mem_cons_of_mem _ hi)) h)

theorem load {v a : V} {type : ValueType} {offset : Nat} (hfine : fine r (.load v type a offset))
    (h : ∀ m x n w, ok m → r.address? a offset = some x → m.load? x type.bytes = some n →
      Word.ofBits? type n = some w → code.Checks ok fine assertion e rest (r.set v w)) :
    code.Checks ok fine assertion e (.load v type a offset :: rest) r := by
  refine ⟨hfine, fun m g hm hg => ?_⟩
  simp only [Frame.next, Frame.proceed] at hg
  split at hg
  · cases hg
  next x hx =>
  split at hg
  · cases hg
  next n hn =>
  split at hg
  · next w hw => cases hg; exact h m x n w hm hx hn hw
  · cases hg

theorem store {v a : V} {type : ValueType} {offset : Nat} (hfine : fine r (.store type v a offset))
    (h : code.Checks ok fine assertion e rest r) :
    code.Checks ok fine assertion e (.store type v a offset :: rest) r := by
  refine ⟨hfine, fun m g hm hg => ?_⟩
  simp only [Frame.next] at hg
  split at hg
  · split at hg
    · cases hg; exact h
    · cases hg
  · cases hg

theorem of_enter {l : L} {words : List Word} {g : Frame L V}
    (h : ∀ r', r.bind? (code.block l).parameters words = some r' → assertion l r')
    (hg : code.enter r l words = .running g) :
    ∃ l, g.pending = (code.block l).body ∧ g.terminator = (code.block l).terminator ∧
      assertion l g.registers := by
  unfold Routine.enter at hg
  split at hg
  · next r' hr' => cases hg; exact ⟨l, rfl, rfl, h r' hr'⟩
  · cases hg

theorem jump {l : L} {arguments : List V}
    (h : ∀ words r', arguments.mapM r.get? = some words →
      r.bind? (code.block l).parameters words = some r' → assertion l r') :
    code.Checks ok fine assertion (.jump l arguments) [] r := by
  intro m g _ hg
  simp only [Frame.next] at hg
  split at hg
  · next words hwords => exact of_enter (fun r' => h words r' hwords) hg
  · cases hg

theorem of_enter_nil {l : L} {g : Frame L V} (h : assertion l r) (hg : code.enter r l [] = .running g) :
    ∃ l, g.pending = (code.block l).body ∧ g.terminator = (code.block l).terminator ∧
      assertion l g.registers := by
  refine of_enter (fun r' hr' => ?_) hg
  cases hparameters : (code.block l).parameters with
  | nil =>
    rw [hparameters] at hr'
    obtain rfl : r = r' := Option.some.inj hr'
    exact h
  | cons x xs =>
    rw [hparameters] at hr'
    cases hr'

theorem branch {condition : V} {ifTrue ifFalse : L} {b : Bool}
    (hb : r.get? condition = some (.ofBool b)) (h : assertion (if b then ifTrue else ifFalse) r) :
    code.Checks ok fine assertion (.branch condition ifTrue ifFalse) [] r := by
  intro m g _ hg
  cases b <;> simp only [Frame.next, hb, Word.ofBool] at hg <;> exact of_enter_nil h hg

theorem branch_any {condition : V} {ifTrue ifFalse : L} (htrue : assertion ifTrue r)
    (hfalse : assertion ifFalse r) :
    code.Checks ok fine assertion (.branch condition ifTrue ifFalse) [] r := by
  intro m g _ hg
  simp only [Frame.next] at hg
  split at hg
  · split at hg
    · exact of_enter_nil hfalse hg
    · exact of_enter_nil htrue hg
  · cases hg

theorem ret {v : V} : code.Checks ok fine assertion (.ret v) [] r := by
  intro m g _ hg
  simp only [Frame.next] at hg
  split at hg <;> cases hg

end Routine.Checks

/-! ## Parameters of blocks -/

namespace Registers

theorem bind?_agreeOn {parameters : List (V × ValueType)} {words : List Word} {r' : Registers V}
    (h : r.bind? parameters words = some r') : AgreeOn (fun v => ∀ x ∈ parameters, x.1 ≠ v) r r' := by
  induction parameters generalizing r words with
  | nil =>
    cases words with
    | nil => cases h; exact .refl _ _
    | cons w words => cases h
  | cons x parameters ih =>
    cases words with
    | nil => cases h
    | cons w words =>
      rw [bind?] at h
      split at h
      · intro v hv
        rw [ih h v fun y hy => hv y (List.mem_cons_of_mem x hy), get?_set_of_ne (hv x List.mem_cons_self)]
      · cases h

theorem get?_of_bind?_cons {v : V} {type : ValueType} {parameters : List (V × ValueType)} {w : Word}
    {words : List Word} {r' : Registers V} (hv : ∀ x ∈ parameters, x.1 ≠ v)
    (h : r.bind? ((v, type) :: parameters) (w :: words) = some r') : r'.get? v = some w := by
  rw [bind?] at h
  split at h
  · rw [bind?_agreeOn h v hv, get?_set_self]
  · cases h

end Registers

/-! ## Arithmetic that does not wrap around -/

/-- The number in a 64-bit register. -/
def Registers.number? (r : Registers V) (v : V) : Option Int :=
  match r.get? v with
  | some (.i64 x) => some x.toNat
  | _ => none

/-- The result on integers of any size, for the operations that sizes are formed with. -/
def IntegerOp.unbounded? : IntegerOp → Int → Int → Option Int
  | .add, x, y => some (x + y)
  | .mul, x, y => some (x * y)
  | .shl, x, y => some (x * 2 ^ y.toNat)
  | .ushr, _, _ | .and, _, _ | .or, _, _ => none

namespace Operation

/-- The result of 64-bit arithmetic on integers of any size. -/
def unbounded? (r : Registers V) : Operation V → Option Int
  | .integer op .i64 a b => do op.unbounded? (← r.number? a) (← r.number? b)
  | .integerImm op .i64 a imm => do op.unbounded? (← r.number? a) imm
  | _ => none

/-- The operation has the result that it has on integers of any size, and as a signed number it is
not negative. -/
structure Computes (r : Registers V) (op : Operation V) (n : Nat) : Prop where
  unbounded? : op.unbounded? r = some (n : Int)
  bound : n < 2 ^ 63
  evaluate? : op.evaluate? r = some (.ofNat n)

/-- 64-bit arithmetic does not wrap around. Other operations are not concerned. -/
def Exact (r : Registers V) (op : Operation V) : Prop :=
  match op with
  | .integer _ .i64 _ _ | .integerImm _ .i64 _ _ => ∃ n, op.Computes r n
  | _ => True

theorem Computes.exact {op : Operation V} {n : Nat} (h : op.Computes r n) : op.Exact r := by
  unfold Exact
  split
  · exact ⟨n, h⟩
  · exact ⟨n, h⟩
  · trivial

end Operation

theorem ofInt_natCast (n : Nat) : UInt64.ofInt (n : Int) = UInt64.ofNat n := by
  apply UInt64.toNat_inj.mp
  rw [UInt64.ofInt, UInt64.toNat_ofNat', UInt64.toNat_ofNat']
  omega

theorem Registers.number?_eq {v : V} {n : Nat} (h : r.get? v = some (.ofNat n)) (hn : n < 2 ^ 63) :
    r.number? v = some (n : Int) := by
  simp only [number?, h, Word.ofNat, UInt64.toNat_ofNat']
  rw [Nat.mod_eq_of_lt (by omega)]

section

variable {a b : V} {x y : Nat}

theorem computes_add (ha : r.get? a = some (.ofNat x)) (hb : r.get? b = some (.ofNat y))
    (h : x + y < 2 ^ 63) : (Operation.integer .add .i64 a b).Computes r (x + y) := by
  refine ⟨?_, h, evaluate?_add ha hb⟩
  rw [Operation.unbounded?, Registers.number?_eq ha (by omega), Registers.number?_eq hb (by omega)]
  rfl

variable {imm : Int} (himm : imm = (y : Int))

include himm

theorem computes_addImm (ha : r.get? a = some (.ofNat x)) (h : x + y < 2 ^ 63) :
    (Operation.integerImm .add .i64 a imm).Computes r (x + y) := by
  subst himm
  refine ⟨?_, h, evaluate?_addImm ha (ofInt_natCast y)⟩
  rw [Operation.unbounded?, Registers.number?_eq ha (by omega)]
  rfl

theorem computes_mulImm (ha : r.get? a = some (.ofNat x)) (hx : x < 2 ^ 63) (h : x * y < 2 ^ 63) :
    (Operation.integerImm .mul .i64 a imm).Computes r (x * y) := by
  subst himm
  refine ⟨?_, h, evaluate?_mulImm ha (ofInt_natCast y)⟩
  rw [Operation.unbounded?, Registers.number?_eq ha hx]
  rfl

theorem computes_shlImm (ha : r.get? a = some (.ofNat x)) (hx : x < 2 ^ 63) (hy : y < 64)
    (h : 2 ^ y * x < 2 ^ 63) : (Operation.integerImm .shl .i64 a imm).Computes r (2 ^ y * x) := by
  subst himm
  refine ⟨?_, h, evaluate?_shlImm ha (ofInt_natCast y) hy⟩
  rw [Operation.unbounded?, Registers.number?_eq ha hx, Nat.mul_comm, Int.natCast_mul, Int.natCast_pow]
  rfl

end

end AxisNorm.Code
