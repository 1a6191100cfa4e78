import AxisNorm.Proofs.Float.Half
import AxisNorm.Proofs.Memory
import AxisNorm.Proofs.Normalization.Element

/-!
# Results stored as halves

The code that stores a result in two bytes, run alone from wherever it may stand: whatever routine it is part
of, whatever the other registers and the other bytes hold.

* `HalfStore`: the machine in front of that code.
* `HalfStore.Stores`: the half that the code writes, and the sum that it takes the half from.
* `HalfStore.stores_isRounded`: **what is not a NaN is stored rounded to nearest, ties to even.**
* `HalfStore.stores_of_isNaN`: **a NaN is stored as a NaN, an infinity or a zero, by its payload.**
-/

namespace AxisNorm.Normalization

open Code

/-- The machine in front of the code that stores a result in two bytes: the result is in a register, and
the place that the other two registers give is mapped. -/
structure HalfStore where
  code : Routine Label Value
  registers : Registers Value
  rest : List (Instruction Value)
  terminator : Terminator Label Value
  memory : Memory
  /-- The register of the result. -/
  result : Value
  number : Single
  base : UInt64
  element : Nat
  get?_result : registers.get? result = some (.f32 number)
  get?_dst : registers.get? (.pointer .dst) = some (.i64 base)
  get?_element : registers.get? (.walk .normalize .element) = some (.ofNat element)
  mapped : memory.mapped (elementAddress base 2 element) 2 = true

namespace HalfStore

variable (s : HalfStore)

def address : UInt64 := elementAddress s.base 2 s.element

/-- The machine and memory when the code has run. -/
def after : Progress Label Value × Memory :=
  s.code.advance (storeResult .i16 s.result).length
    (.running ⟨s.registers, storeResult .i16 s.result ++ s.rest, s.terminator⟩) s.memory

/-- The code runs to its end, writes the half `h` and nothing else, and leaves the sum in its register. -/
def Stores (sum : UInt32) (h : Half) : Prop :=
  ∃ r : Registers Value, r.get? .roundSum = some (.i32 sum) ∧
    s.after = (.running ⟨r, s.rest, s.terminator⟩, s.memory.write s.address 2 h.bits.toNat)

variable {s} {sum sum' : UInt32} {g h : Half}

theorem stores_narrow (s : HalfStore) : s.Stores (s.number.bits + s.number.bias) ⟨s.number.narrow⟩ := by
  generalize hr : withAddress (withRounding s.registers s.number) s.base 1 s.element = r
  have ha₁ := withRounding_agree s.registers s.number
  have ha₂ := hr ▸ withAddress_agree (withRounding s.registers s.number) s.base 1 s.element
  have hassigns : s.registers.Assigns (roundToHalf s.result ++ dstAddress 1) r :=
    hr ▸ (roundToHalf_assigns s.get?_result).append (dstAddress_assigns rfl (by omega)
      (ha₁.get? s.get?_dst (by simp)) (ha₁.get? s.get?_element (by simp)))
  have hsum : r.get? .roundSum = some (.i32 (s.number.bits + s.number.bias)) :=
    (ha₂ .roundSum (by simp)).trans (by simp [withRounding, Single.bias, Registers.get?_set])
  have hrounded : r.typed? .i16 .rounded = some (.i16 s.number.narrow) :=
    Registers.typed?_eq ((ha₂ .rounded (by simp)).trans (Registers.get?_set_self _ _ _)) rfl
  have haddress : r.address? .dstAddress 0 = some s.address := by
    simp [← hr, withAddress, Registers.address?, address]
  refine ⟨r, hsum, ?_⟩
  rw [after, storeResult, if_neg (by decide), List.length_append, List.append_assoc _ _ s.rest,
    Routine.advance_assigns hassigns]
  exact (Routine.advance_store hrounded haddress s.mapped).trans (Routine.advance_zero _ _ _)

theorem Stores.unique (hg : s.Stores sum g) (hh : s.Stores sum' h) : sum = sum' ∧ g = h := by
  obtain ⟨r, hsum, hafter⟩ := hg
  obtain ⟨r', hsum', hafter'⟩ := hh
  simp only [hafter, Prod.mk.injEq, Progress.running.injEq, Frame.mk.injEq] at hafter'
  obtain ⟨⟨rfl, -, -⟩, hmemory⟩ := hafter'
  refine ⟨by simpa [hsum] using hsum', ?_⟩
  have hbits : h.bits.toNat = g.bits.toNat := by
    have hload := Memory.load?_write (m := s.memory) (a := s.address) (n := 2) (by norm_num) g.bits.toNat_lt
    rw [hmemory, Memory.load?_write (by norm_num) h.bits.toNat_lt] at hload
    exact Option.some.inj hload
  exact congrArg Half.mk (UInt16.toNat_inj.mp hbits.symm)

/-! ## What is stored -/

/-- The result `x` is stored at address zero, in a machine that holds nothing else. -/
def alone (x : Single) : HalfStore where
  code := ⟨"", "", [.i32], .done, fun _ => answer .ok, [.done]⟩
  registers :=
    ((Registers.empty.set (.pointer .dst) (.i64 0)).set (.walk .normalize .element) (.ofNat 0)).set .normal (.f32 x)
  rest := []
  terminator := .ret .rounded
  memory := Memory.empty.write 0 2 0
  result := .normal
  number := x
  base := 0
  element := 0
  get?_result := Registers.get?_set_self _ _ _
  get?_dst := by simp [Registers.get?_set]
  get?_element := by simp [Registers.get?_set]
  mapped := Memory.mapped_of_load? (Memory.load?_write (by norm_num) (by norm_num))

/-- The stored half of a result that is not a NaN: nearest with ties to even, infinite from the middle between
the largest half and `2 ^ 128` on. The sum does not wrap around, and its sign bit is that of the result. -/
theorem stores_isRounded (s : HalfStore) (hx : s.number.isNaN = false) :
    ∃ sum h, s.Stores sum h ∧
      sum.toNat = s.number.bits.toNat + (0x7fff + s.number.bits.toNat / 2 ^ 16 % 2) ∧
      (2 ^ 31 ≤ sum.toNat ↔ 2 ^ 31 ≤ s.number.bits.toNat) ∧ s.number.IsRounded h := by
  have hle : s.number.magnitude ≤ 0x7f800000 := not_lt.mp (of_decide_eq_false hx)
  obtain ⟨hsum, hsign⟩ := Single.toNat_add_bias (x := s.number) (by omega)
  refine ⟨_, _, s.stores_narrow, ?_, hsign, Single.isRounded_narrow hx⟩
  rw [hsum, Single.toNat_bias, Single.magnitude]
  omega

/-- A tie among the subnormal numbers that carries into the exponent. -/
theorem stores_isRounded_carry :
    (alone ⟨0x007f8000⟩).number.isNaN = false ∧
      ∃ sum h, (alone ⟨0x007f8000⟩).Stores sum h ∧
        sum.toNat = (0x007f8000 : UInt32).toNat + (0x7fff + (0x007f8000 : UInt32).toNat / 2 ^ 16 % 2) ∧
        (2 ^ 31 ≤ sum.toNat ↔ 2 ^ 31 ≤ (0x007f8000 : UInt32).toNat) ∧ Single.IsRounded ⟨0x007f8000⟩ h :=
  ⟨by decide, stores_isRounded (alone ⟨0x007f8000⟩) (by decide)⟩

/-- The stored half of a NaN is one only for the payloads in between: the first are rounded off, which leaves an
infinity, and the last carry into the sign, which leaves a zero of the other sign. -/
theorem stores_of_isNaN (s : HalfStore) (hx : s.number.isNaN = true) :
    ∃ sum h, s.Stores sum h ∧
      (h.isNaN = true ↔ 0x7f808000 < s.number.magnitude ∧ s.number.magnitude < 0x7fff8000) ∧
      (s.number.magnitude < 0x7fff8000 → h.isNegative = s.number.isNegative) ∧
      (s.number.magnitude ≤ 0x7f808000 → h = .infinite s.number.isNegative) ∧
      (0x7fff8000 ≤ s.number.magnitude → h = .zero !s.number.isNegative) := by
  refine ⟨_, _, s.stores_narrow, ?_, Single.isNegative_narrow, Single.narrow_of_isNaN_of_le hx, Single.narrow_of_le⟩
  by_cases hlt : s.number.magnitude < 0x7fff8000
  · rw [Single.isNaN_narrow_iff hlt, and_iff_left hlt]
  · rw [Single.narrow_of_le (not_lt.mp hlt), Half.isNaN_zero]
    simp [hlt]

theorem stores_of_isNaN_quiet :
    (alone ⟨0x7fc00000⟩).number.isNaN = true ∧
      ∃ sum h, (alone ⟨0x7fc00000⟩).Stores sum h ∧
        (h.isNaN = true ↔ 0x7f808000 < Single.magnitude ⟨0x7fc00000⟩ ∧ Single.magnitude ⟨0x7fc00000⟩ < 0x7fff8000) ∧
        (Single.magnitude ⟨0x7fc00000⟩ < 0x7fff8000 → h.isNegative = Single.isNegative ⟨0x7fc00000⟩) ∧
        (Single.magnitude ⟨0x7fc00000⟩ ≤ 0x7f808000 → h = .infinite (Single.isNegative ⟨0x7fc00000⟩)) ∧
        (0x7fff8000 ≤ Single.magnitude ⟨0x7fc00000⟩ → h = .zero !(Single.isNegative ⟨0x7fc00000⟩)) :=
  ⟨by decide, stores_of_isNaN (alone ⟨0x7fc00000⟩) (by decide)⟩

/-- The NaN with all payload bits set is stored as negative zero. -/
theorem nan_stored_as_zero :
    ∃ s : HalfStore, s.number.isNaN = true ∧ (∃ sum, s.Stores sum (.zero true)) ∧
      ¬ ∃ sum h, s.Stores sum h ∧ h.isNaN = true := by
  have hstores : (alone ⟨0x7fffffff⟩).Stores _ (.zero true) := stores_narrow (alone ⟨0x7fffffff⟩)
  refine ⟨alone ⟨0x7fffffff⟩, by decide, ⟨_, hstores⟩, ?_⟩
  rintro ⟨sum, h, hh, hnan⟩
  rw [← (hstores.unique hh).2, Half.isNaN_zero] at hnan
  cases hnan

end HalfStore

end AxisNorm.Normalization
