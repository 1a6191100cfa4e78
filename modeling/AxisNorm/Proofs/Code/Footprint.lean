import AxisNorm.Proofs.Code.Reach
import AxisNorm.Proofs.Memory
import AxisNorm.Proofs.Task.Agreement

/-!
# The bytes that a run sees

* `Instruction.bytes`: what an instruction loads or stores. Its step does not see other bytes
  (`Frame.next_congr`).
* `Routine.resume_ignores`: **a run whose instructions load and store in a part of memory does not see the
  rest.**
-/

namespace AxisNorm.Code

open Memory

variable {L V : Type} [DecidableEq V] [Hashable V]

/-- The bytes that an access of a type at a register's address sees. -/
def Registers.accessed (r : Registers V) (type : ValueType) (address : V) (offset : Nat) : Set UInt64 :=
  {c | ∃ a, r.address? address offset = some a ∧ c ∈ span a type.bytes}

namespace Instruction

/-- What an instruction loads or stores. -/
def bytes (r : Registers V) : Instruction V → Set UInt64
  | .set .. => ∅
  | .load _ type address offset | .store type _ address offset => r.accessed type address offset

/-- What it stores. -/
def stored (r : Registers V) : Instruction V → Set UInt64
  | .store type _ address offset => r.accessed type address offset
  | .set .. | .load .. => ∅

end Instruction

theorem Registers.span_subset_accessed {r : Registers V} {type : ValueType} {address : V} {offset : Nat}
    {a : UInt64} (h : r.address? address offset = some a) :
    span a type.bytes ⊆ r.accessed type address offset := fun _ hc => ⟨a, h, hc⟩

namespace Frame

variable {code : Routine L V} {r : Registers V} {i : Instruction V} {rest : List (Instruction V)}
  {e : Terminator L V} {m m' : Memory}

theorem next_congr (h : Set.EqOn m.byte? m'.byte? (i.bytes r)) :
    next code ⟨r, i :: rest, e⟩ m' = next code ⟨r, i :: rest, e⟩ m := by
  cases i with
  | set v op => rfl
  | load v type address offset =>
    simp only [next]
    split
    · rfl
    · next a ha =>
      rw [load?_congr fun c hc => (h (Registers.span_subset_accessed ha hc)).symm]
  | store type v address offset =>
    simp only [next]
    split
    · next w a hw ha =>
      rw [mapped_congr fun c hc => (h (Registers.span_subset_accessed ha hc)).symm]
    · rfl

theorem effect_changed (m : Memory) : ChangedIn (i.stored r) m (effect (L := L) ⟨r, i :: rest, e⟩ m) := by
  cases i with
  | set v op => exact .refl _ _
  | load v type address offset => exact .refl _ _
  | store type v address offset =>
    simp only [effect]
    split
    · next w a hw ha =>
      split
      · next hmapped => exact (changedIn_write hmapped).mono (Registers.span_subset_accessed ha)
      · exact .refl _ _
    · exact .refl _ _

theorem effect_eqOn {seen : Set UInt64} (h : Set.EqOn m.byte? m'.byte? seen) (hi : i.bytes r ⊆ seen) :
    Set.EqOn (effect (L := L) ⟨r, i :: rest, e⟩ m).byte? (effect (L := L) ⟨r, i :: rest, e⟩ m').byte? seen := by
  cases i with
  | set v op => exact h
  | load v type address offset => exact h
  | store type v address offset =>
    simp only [effect]
    split
    · next w a hw ha =>
      rw [mapped_congr fun c hc => (h (hi (Registers.span_subset_accessed ha hc))).symm]
      split
      · exact fun c hc => (byte?_write_congr (h hc).symm).symm
      · exact h
    · exact h

end Frame

/-- **A run whose instructions load and store in a part of memory does not see the rest.** -/
theorem Routine.resume_ignores {code : Routine L V} {ok : Memory → Prop} {seen : Set UInt64}
    (inv : Frame L V → Prop) (hnext : ∀ f g m, inv f → ok m → f.next code m = .running g → inv g)
    (hseen : ∀ f i rest, inv f → f.pending = i :: rest → i.bytes f.registers ⊆ seen)
    (hok : ∀ f i rest m m', inv f → f.pending = i :: rest → ok m → ChangedIn (i.stored f.registers) m m' →
      ok m')
    (n : Nat) {p : Progress L V} (hp : ∀ f, p = .running f → inv f) :
    (code.resume n p).Ignores fun m m' => ok m ∧ Set.EqOn m.byte? m'.byte? seen := by
  induction n generalizing p with
  | zero =>
    cases p <;> rw [resume] <;> trivial
  | succ n ih =>
    cases p with
    | returned status => rw [resume]; trivial
    | trapped trap => rw [resume]; trivial
    | running f =>
      have hf := hp f rfl
      rw [resume]
      rintro m m' ⟨hm, hagree⟩
      have hrest : (code.resume n (f.next code m)).Ignores
          fun m m' => ok m ∧ Set.EqOn m.byte? m'.byte? seen := ih fun g hg => hnext f g m hf hm hg
      obtain ⟨r, pending, e⟩ := f
      cases pending with
      | nil => exact ⟨⟨hm, hagree⟩, rfl, hrest⟩
      | cons i rest =>
        have hi := hseen _ i rest hf rfl
        refine ⟨⟨hok _ i rest m _ hf rfl hm (Frame.effect_changed m), Frame.effect_eqOn hagree hi⟩, ?_, hrest⟩
        exact congrArg (code.resume n) (Frame.next_congr (hagree.mono hi))

end AxisNorm.Code
