import AxisNorm.Code.Machine
import AxisNorm.Proofs.Task.Stutter
import Mathlib.Algebra.Ring.Nat

/-!
# Steps of the machine as steps of tasks

What a routine does is said by a task without registers: loads and stores remain, all other steps
are idle.

* `Task.load`, `Task.store`: the steps that see memory.
* `Registers.Assigns`: what instructions that do not see memory leave in the registers.
* `Routine.Performs`: from some point on the machine does what a task says, within a number of steps.
  There is one rule for each sort of instruction and of terminator.
* `Routine.advance`: some steps with nobody else at work on memory.
* `Registers.AgreeOn`: registers that have not changed.
-/

namespace AxisNorm

namespace Task

/-- Loads a number of `n` bytes. -/
def load (a : UInt64) (n : Nat) (next : Nat → Task Memory Code.Exit) : Task Memory Code.Exit :=
  .act id fun m =>
    match m.load? a n with
    | none => .done (.trapped (.unmapped a))
    | some v => next v

/-- Stores a number of `n` bytes. -/
def store (a : UInt64) (n v : Nat) (next : Task Memory Code.Exit) : Task Memory Code.Exit :=
  .act (fun m => if m.mapped a n then m.write a n v else m) fun m =>
    if m.mapped a n then next else .done (.trapped (.unmapped a))

end Task

namespace Code

variable {L V : Type} [DecidableEq V] [Hashable V]

/-! ## Registers -/

namespace Registers

@[simp] theorem get?_set_self (r : Registers V) (v : V) (w : Word) : (r.set v w).get? v = some w := by
  rw [get?_set, if_pos rfl]

theorem get?_set_of_ne {v u : V} (h : v ≠ u) (r : Registers V) (w : Word) :
    (r.set v w).get? u = r.get? u := by
  rw [get?_set, if_neg h]

/-- The same words in some registers. -/
def AgreeOn (kept : V → Prop) (r r' : Registers V) : Prop := ∀ v, kept v → r'.get? v = r.get? v

namespace AgreeOn

variable {kept kept' : V → Prop} {r r' r'' : Registers V}

theorem refl (kept : V → Prop) (r : Registers V) : AgreeOn kept r r := fun _ _ => rfl

theorem trans (h : AgreeOn kept r r') (h' : AgreeOn kept r' r'') : AgreeOn kept r r'' :=
  fun v hv => (h' v hv).trans (h v hv)

theorem mono (h : AgreeOn kept r r') (hk : ∀ v, kept' v → kept v) : AgreeOn kept' r r' :=
  fun v hv => h v (hk v hv)

theorem set {v : V} (h : AgreeOn kept r r') (hv : ¬ kept v) (w : Word) : AgreeOn kept r (r'.set v w) :=
  fun u hu => (get?_set_of_ne (fun he : v = u => hv (he ▸ hu)) r' w).trans (h u hu)

end AgreeOn

theorem exists_bind?_singles {vs : List V} (hd : vs.Nodup) {xs : List Single}
    (hl : xs.length = vs.length) (r : Registers V) :
    ∃ r', r.bind? (vs.map (·, .f32)) (xs.map .f32) = some r' ∧
      vs.mapM r'.get? = some (xs.map .f32) ∧ AgreeOn (· ∉ vs) r r' := by
  induction vs generalizing xs r with
  | nil =>
    obtain rfl := List.eq_nil_of_length_eq_zero hl
    exact ⟨r, rfl, rfl, .refl _ _⟩
  | cons v vs ih =>
    obtain ⟨x, xs, rfl⟩ := List.exists_cons_of_length_eq_add_one hl
    obtain ⟨hv, hd⟩ := List.nodup_cons.mp hd
    obtain ⟨r', hb, hm, ha⟩ := ih hd (by simpa using hl) (r.set v (.f32 x))
    refine ⟨r', ?_, ?_, fun u hu => ?_⟩
    · rw [List.map_cons, List.map_cons, bind?, if_pos (show (Word.f32 x).type = .f32 from rfl), hb]
    · rw [List.mapM_cons, hm, ha v hv, get?_set_self]
      rfl
    · have hne : v ≠ u := fun he => hu (he ▸ List.mem_cons_self)
      rw [ha u fun hm => hu (List.mem_cons_of_mem v hm), get?_set_of_ne hne]

end Registers

/-! ## Operations -/

/-- A size in a register. -/
def Word.ofNat (n : Nat) : Word := .i64 (UInt64.ofNat n)

theorem Word.ofInt?_i64 {imm : Int} {n : Nat} (h : UInt64.ofInt imm = UInt64.ofNat n) :
    Word.ofInt? .i64 imm = some (.ofNat n) := by
  rw [ofInt?, h, ofNat]

section

attribute [local simp] Operation.evaluate? Registers.single?

variable {r : Registers V} {a b : V} {imm : Int}

theorem Registers.typed?_eq {w : Word} {type : ValueType} (h : r.get? a = some w)
    (ht : w.type = type) : r.typed? type a = some w := by
  simp [typed?, h, ht]

theorem evaluate?_integer {type : ValueType} {op : IntegerOp} {u w : Word}
    (ha : r.typed? type a = some u) (hb : r.typed? type b = some w) :
    (Operation.integer op type a b).evaluate? r = op.apply u w := by
  simp [ha, hb]

theorem evaluate?_integerImm {type : ValueType} {op : IntegerOp} {u w : Word}
    (ha : r.typed? type a = some u) (hi : Word.ofInt? type imm = some w) :
    (Operation.integerImm op type a imm).evaluate? r = op.apply u w := by
  simp [ha, hi]

theorem evaluate?_i32Imm {op : IntegerOp} {x : UInt32} (ha : r.get? a = some (.i32 x)) :
    (Operation.integerImm op .i32 a imm).evaluate? r =
      op.apply (.i32 x) (.i32 (UInt32.ofInt imm)) :=
  evaluate?_integerImm (Registers.typed?_eq ha rfl) rfl

theorem evaluate?_compare {type : ValueType} {cond : Condition} {u w : Word}
    (ha : r.typed? type a = some u) (hb : r.typed? type b = some w) :
    (Operation.compare cond type a b).evaluate? r = cond.apply u w := by
  simp [ha, hb]

theorem evaluate?_compareImm {type : ValueType} {cond : Condition} {u w : Word}
    (ha : r.typed? type a = some u) (hi : Word.ofInt? type imm = some w) :
    (Operation.compareImm cond type a imm).evaluate? r = cond.apply u w := by
  simp [ha, hi]

theorem evaluate?_float {op : FloatOp} {x y : Single} (ha : r.get? a = some (.f32 x))
    (hb : r.get? b = some (.f32 y)) :
    (Operation.float op a b).evaluate? r = some (.f32 (op.apply x y)) := by
  simp [ha, hb]

theorem evaluate?_sqrt {x : Single} (ha : r.get? a = some (.f32 x)) :
    (Operation.sqrt a).evaluate? r = some (.f32 x.sqrt) := by
  simp [ha]

variable {x y : Nat}

theorem evaluate?_constant (h : UInt64.ofInt imm = UInt64.ofNat x) :
    (Operation.integerConst .i64 imm : Operation V).evaluate? r = some (.ofNat x) := Word.ofInt?_i64 h

theorem apply_add (x y : Nat) : IntegerOp.add.apply (.ofNat x) (.ofNat y) = some (.ofNat (x + y)) :=
  congrArg (some ∘ Word.i64) (UInt64.ofNat_add x y).symm

theorem apply_mul (x y : Nat) : IntegerOp.mul.apply (.ofNat x) (.ofNat y) = some (.ofNat (x * y)) :=
  congrArg (some ∘ Word.i64) (UInt64.ofNat_mul x y).symm

theorem apply_shl (x n : Nat) (hn : n < 64) :
    IntegerOp.shl.apply (.ofNat x) (.ofNat n) = some (.ofNat (2 ^ n * x)) := by
  have h : UInt64.ofNat x <<< UInt64.ofNat n = UInt64.ofNat (2 ^ n * x) := by
    apply UInt64.toNat_inj.mp
    rw [UInt64.toNat_shiftLeft, UInt64.toNat_ofNat', UInt64.toNat_ofNat', UInt64.toNat_ofNat',
      Nat.mod_eq_of_lt (by omega : n < 2 ^ 64), Nat.mod_eq_of_lt hn, Nat.shiftLeft_eq, Nat.mod_mul_mod,
      Nat.mul_comm]
  exact congrArg (some ∘ Word.i64) h

theorem apply_ult (hx : x < 2 ^ 64) (hy : y < 2 ^ 64) :
    Condition.ult.apply (.ofNat x) (.ofNat y) = some (.ofBool (decide (x < y))) := by
  rw [Word.ofNat, Word.ofNat, Condition.apply, Condition.holds, UInt64.toNat_ofNat', UInt64.toNat_ofNat',
    Nat.mod_eq_of_lt hx, Nat.mod_eq_of_lt hy]

theorem evaluate?_add (ha : r.get? a = some (.ofNat x)) (hb : r.get? b = some (.ofNat y)) :
    (Operation.integer .add .i64 a b).evaluate? r = some (.ofNat (x + y)) :=
  (evaluate?_integer (Registers.typed?_eq ha rfl) (Registers.typed?_eq hb rfl)).trans (apply_add x y)

theorem evaluate?_addImm (ha : r.get? a = some (.ofNat x)) (h : UInt64.ofInt imm = UInt64.ofNat y) :
    (Operation.integerImm .add .i64 a imm).evaluate? r = some (.ofNat (x + y)) :=
  (evaluate?_integerImm (Registers.typed?_eq ha rfl) (Word.ofInt?_i64 h)).trans (apply_add x y)

theorem evaluate?_mulImm (ha : r.get? a = some (.ofNat x)) (h : UInt64.ofInt imm = UInt64.ofNat y) :
    (Operation.integerImm .mul .i64 a imm).evaluate? r = some (.ofNat (x * y)) :=
  (evaluate?_integerImm (Registers.typed?_eq ha rfl) (Word.ofInt?_i64 h)).trans (apply_mul x y)

theorem evaluate?_shlImm {n : Nat} (ha : r.get? a = some (.ofNat x))
    (h : UInt64.ofInt imm = UInt64.ofNat n) (hn : n < 64) :
    (Operation.integerImm .shl .i64 a imm).evaluate? r = some (.ofNat (2 ^ n * x)) :=
  (evaluate?_integerImm (Registers.typed?_eq ha rfl) (Word.ofInt?_i64 h)).trans (apply_shl x n hn)

theorem evaluate?_ult (ha : r.get? a = some (.ofNat x)) (hb : r.get? b = some (.ofNat y))
    (hx : x < 2 ^ 64) (hy : y < 2 ^ 64) :
    (Operation.compare .ult .i64 a b).evaluate? r = some (.ofBool (decide (x < y))) :=
  (evaluate?_compare (Registers.typed?_eq ha rfl) (Registers.typed?_eq hb rfl)).trans (apply_ult hx hy)

end

/-! ## Instructions that do not see memory -/

/-- The instructions only compute, and lead from registers to registers. -/
inductive Registers.Assigns : List (Instruction V) → Registers V → Registers V → Prop
  | nil (r : Registers V) : Assigns [] r r
  | set {v : V} {op : Operation V} {w : Word} {is : List (Instruction V)} {r r' : Registers V}
    (hw : op.evaluate? r = some w) (h : Assigns is (r.set v w) r') : Assigns (.set v op :: is) r r'

theorem Registers.Assigns.append {is js : List (Instruction V)} {r r' r'' : Registers V} (h : Assigns is r r')
    (h' : Assigns js r' r'') : Assigns (is ++ js) r r'' := by
  induction h with
  | nil r => exact h'
  | set hw _ ih => exact .set hw (ih h')

/-! ## Steps -/

/-- From here the machine does what the task says, in at most `steps` steps. -/
def Routine.Performs (code : Routine L V) (steps : Nat) (p : Progress L V) (t : Task Memory Exit) :
    Prop :=
  ∀ n, steps ≤ n → (code.resume n p).Stutters t

namespace Routine.Performs

attribute [local simp] Frame.next Frame.proceed Frame.effect

variable {code : Routine L V} {steps steps' : Nat} {p : Progress L V} {t : Task Memory Exit}
  {r : Registers V} {rest : List (Instruction V)} {e : Terminator L V}

theorem mono (h : code.Performs steps p t) (hs : steps ≤ steps') : code.Performs steps' p t :=
  fun n hn => h n (Nat.le_trans hs hn)

theorem returned (status : UInt32) : code.Performs steps (.returned status) (.done (.returned status)) := by
  intro n _
  rw [resume]
  exact .done _

theorem stutters_trapped (n : Nat) (trap : Trap) :
    (code.resume n (.trapped trap)).Stutters (.done (.trapped trap)) := by
  rw [resume]
  exact .done _

theorem idle {f : Frame L V} (hf : ∀ m, f.effect m = m) (hn : ∀ m, f.next code m = p)
    (h : code.Performs steps p t) : code.Performs (steps + 1) (.running f) t := by
  intro n hs
  obtain ⟨n, rfl⟩ := Nat.exists_eq_add_of_le' (Nat.le_of_add_left_le hs)
  rw [resume]
  refine .idle hf fun m => ?_
  rw [hn]
  exact h n (by omega)

theorem set {v : V} {op : Operation V} {w : Word} (hw : op.evaluate? r = some w)
    (h : code.Performs steps (.running ⟨r.set v w, rest, e⟩) t) :
    code.Performs (steps + 1) (.running ⟨r, .set v op :: rest, e⟩) t :=
  idle (fun _ => rfl) (fun _ => by simp [hw]) h

theorem assigns {is : List (Instruction V)} {r' : Registers V} (hr : r.Assigns is r')
    (h : code.Performs steps (.running ⟨r', rest, e⟩) t) :
    code.Performs (steps + is.length) (.running ⟨r, is ++ rest, e⟩) t := by
  induction hr with
  | nil r => exact h
  | set hw _ ih => exact set hw (ih h)

theorem load {v address : V} {type : ValueType} {offset : Nat} {a : UInt64}
    {next : Nat → Task Memory Exit} (ha : r.address? address offset = some a)
    (h : ∀ n, ∃ w, Word.ofBits? type n = some w ∧
      code.Performs steps (.running ⟨r.set v w, rest, e⟩) (next n)) :
    code.Performs (steps + 1) (.running ⟨r, .load v type address offset :: rest, e⟩)
      (.load a type.bytes next) := by
  intro n hs
  obtain ⟨n, rfl⟩ := Nat.exists_eq_add_of_le' (Nat.le_of_add_left_le hs)
  rw [resume]
  refine .act fun m => ?_
  simp only [Frame.next, ha]
  cases m.load? a type.bytes with
  | none => exact stutters_trapped n _
  | some k =>
    obtain ⟨w, hw, hp⟩ := h k
    simp only [hw, Frame.proceed]
    exact hp n (by omega)

theorem store {v address : V} {type : ValueType} {offset : Nat} {a : UInt64} {w : Word}
    (hv : r.typed? type v = some w) (ha : r.address? address offset = some a)
    (h : code.Performs steps (.running ⟨r, rest, e⟩) t) :
    code.Performs (steps + 1) (.running ⟨r, .store type v address offset :: rest, e⟩)
      (.store a type.bytes w.bits t) := by
  intro n hs
  obtain ⟨n, rfl⟩ := Nat.exists_eq_add_of_le' (Nat.le_of_add_left_le hs)
  have heffect : Frame.effect (L := L) ⟨r, .store type v address offset :: rest, e⟩ =
      fun m => if m.mapped a type.bytes then m.write a type.bytes w.bits else m := by
    funext m
    simp only [Frame.effect, hv, ha]
  rw [resume, heffect]
  refine .act fun m => ?_
  simp only [Frame.next, hv, ha]
  split
  · exact h n (by omega)
  · exact stutters_trapped n _

theorem jump {target : L} {arguments : List V} (words : List Word)
    (hw : arguments.mapM r.get? = some words) (h : code.Performs steps (code.enter r target words) t) :
    code.Performs (steps + 1) (.running ⟨r, [], .jump target arguments⟩) t :=
  idle (fun _ => rfl) (fun _ => by simp [hw]) h

theorem branch {condition : V} {ifTrue ifFalse : L} {b : Bool}
    (hb : r.get? condition = some (.ofBool b))
    (h : code.Performs steps (code.enter r (if b then ifTrue else ifFalse) []) t) :
    code.Performs (steps + 1) (.running ⟨r, [], .branch condition ifTrue ifFalse⟩) t := by
  refine idle (fun _ => rfl) (fun _ => ?_) h
  cases b <;> simp [hb, Word.ofBool]

theorem ret {v : V} {status : UInt32} (hv : r.get? v = some (.i32 status)) :
    code.Performs (steps + 1) (.running ⟨r, [], .ret v⟩) (.done (.returned status)) :=
  idle (fun _ => rfl) (fun _ => by simp [hv]) (returned status)

theorem enter_nil {label : L} {b : Block L V} (hb : code.block label = b) (hl : b.parameters = [])
    (h : code.Performs steps (.running ⟨r, b.body, b.terminator⟩) t) :
    code.Performs steps (code.enter r label []) t := by
  subst hb
  rwa [Routine.enter, hl, Registers.bind?]

theorem enter {label : L} {words : List Word} (r' : Registers V)
    (hr : r.bind? (code.block label).parameters words = some r')
    (h : code.Performs steps (.running ⟨r', (code.block label).body, (code.block label).terminator⟩) t) :
    code.Performs steps (code.enter r label words) t := by
  rwa [Routine.enter, hr]

end Routine.Performs

/-! ## Steps alone -/

namespace Routine

/-- At most `n` steps between which nobody else changes memory. -/
def advance (code : Routine L V) : (n : Nat) → Progress L V → Memory → Progress L V × Memory
  | n + 1, .running f, m => code.advance n (f.next code m) (f.effect m)
  | _, p, m => (p, m)

variable {code : Routine L V} {r : Registers V} {rest : List (Instruction V)} {e : Terminator L V} {n : Nat}
  {m : Memory}

theorem advance_zero (code : Routine L V) (p : Progress L V) (m : Memory) : code.advance 0 p m = (p, m) := by
  cases p <;> rfl

theorem advance_assigns {is : List (Instruction V)} {r' : Registers V} (hr : r.Assigns is r') :
    code.advance (is.length + n) (.running ⟨r, is ++ rest, e⟩) m = code.advance n (.running ⟨r', rest, e⟩) m := by
  induction hr with
  | nil r => rw [List.length_nil, Nat.zero_add, List.nil_append]
  | set hw _ ih =>
    rw [List.length_cons, Nat.succ_add, advance, ← ih]
    simp only [Frame.next, Frame.proceed, Frame.effect, List.cons_append, hw]

theorem advance_store {v address : V} {type : ValueType} {offset : Nat} {a : UInt64} {w : Word}
    (hv : r.typed? type v = some w) (ha : r.address? address offset = some a)
    (hm : m.mapped a type.bytes = true) :
    code.advance (n + 1) (.running ⟨r, .store type v address offset :: rest, e⟩) m =
      code.advance n (.running ⟨r, rest, e⟩) (m.write a type.bytes w.bits) := by
  rw [advance]
  simp only [Frame.next, Frame.effect, hv, ha, hm, if_true]

end Routine

end Code

end AxisNorm
