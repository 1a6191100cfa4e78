import AxisNorm.Float.Single
import AxisNorm.Proofs.Float.Format

/-!
# Single-precision numbers and their values

* `Single.Positive`: finite and above zero.
* `Single.IsNormal`: the hidden bit is set, and the number is finite.
* `Single.toExtended_ofMagnitude`: the value of the bits of a finite encoding.
-/

namespace AxisNorm

open Format

namespace Single

variable {x : Single} {n : Nat}

/-- The number is finite and above zero. -/
def Positive (x : Single) : Prop := ∃ q : Rat, 0 < q ∧ x.toExtended = .finite false q

/-- The hidden bit of the number is set, and it is finite. -/
def IsNormal (x : Single) : Prop := 2 ^ binary32.fractionBits ≤ x.magnitude ∧ x.isFinite = true

theorem toExtended_of_isFinite (hx : x.isFinite = true) :
    x.toExtended = .finite x.isNegative (binary32.value x.magnitude) := by
  have hnumber : ¬ x.isNaN = true := by
    rw [isNaN, decide_eq_true_iff]
    exact (of_decide_eq_true hx).not_gt
  rw [toExtended, if_neg hnumber, if_pos hx]

theorem positive_of_magnitude (hfinite : x.isFinite = true) (hsign : ¬ x.isNegative = true)
    (hzero : x.magnitude ≠ 0) : x.Positive := by
  refine ⟨binary32.value x.magnitude, ?_, ?_⟩
  · exact binary32.value_zero ▸ binary32.value_strictMono (Nat.pos_of_ne_zero hzero)
  · rw [toExtended_of_isFinite hfinite, Bool.not_eq_true _ |>.mp hsign]

theorem magnitude_ofMagnitude {s : Bool} (hn : n ≤ binary32.infinity) : (ofMagnitude s n).magnitude = n := by
  have hn : n ≤ 255 * 2 ^ 23 := hn
  rw [magnitude, ofMagnitude, UInt32.toNat_ofNat']
  split <;> omega

theorem isNegative_ofMagnitude {s : Bool} (hn : n ≤ binary32.infinity) : (ofMagnitude s n).isNegative = s := by
  have hn : n ≤ 255 * 2 ^ 23 := hn
  rw [isNegative, ofMagnitude, UInt32.toNat_ofNat']
  cases s with
  | false =>
    rw [if_neg Bool.false_ne_true, decide_eq_false_iff_not]
    omega
  | true =>
    rw [if_pos rfl, decide_eq_true_iff]
    omega

theorem ofMagnitude_inj {m : Nat} (hm : m ≤ binary32.infinity) (hn : n ≤ binary32.infinity) :
    ofMagnitude false m = ofMagnitude false n ↔ m = n := by
  constructor
  · intro h
    rw [← magnitude_ofMagnitude hm, h, magnitude_ofMagnitude hn]
  · rintro rfl
    rfl

theorem isFinite_ofMagnitude {s : Bool} (hn : n < binary32.infinity) : (ofMagnitude s n).isFinite = true := by
  rw [isFinite, magnitude_ofMagnitude hn.le]
  exact decide_eq_true hn

theorem toExtended_ofMagnitude {s : Bool} (hn : n < binary32.infinity) :
    (ofMagnitude s n).toExtended = .finite s (binary32.value n) := by
  rw [toExtended_of_isFinite (isFinite_ofMagnitude hn), isNegative_ofMagnitude hn.le, magnitude_ofMagnitude hn.le]

theorem toExtended_ofMagnitude_infinity (s : Bool) : (ofMagnitude s binary32.infinity).toExtended = .infinite s := by
  unfold toExtended
  rw [isNaN, isFinite, magnitude_ofMagnitude le_rfl, isNegative_ofMagnitude le_rfl, decide_eq_false (lt_irrefl _)]
  rfl

theorem ofMagnitude_magnitude (x : Single) : ofMagnitude x.isNegative x.magnitude = x := by
  have hlt := x.bits.toNat_lt
  have hbits : (if x.isNegative then 0x80000000 + x.magnitude else x.magnitude) = x.bits.toNat := by
    unfold isNegative magnitude
    split
    · next h =>
      have h := of_decide_eq_true h
      omega
    · next h =>
      rw [decide_eq_true_iff] at h
      omega
  rw [ofMagnitude, hbits, UInt32.ofNat_toNat]

end Single

/-! ## Powers of two -/

theorem Format.binary32_value (e : Nat) : binary32.value ((e + 1) * 2 ^ 23) = 2 ^ ((e : Int) - 126) := by
  have hexponent : binary32.minExponent + binary32.fractionBits + (e : Int) = e - 126 := by
    rw [show binary32.minExponent = -149 from rfl, show binary32.fractionBits = 23 from rfl]
    ring
  rw [← hexponent]
  exact binary32.value_mul_pow e

theorem Format.binary64_value (e : Nat) : binary64.value ((e + 1) * 2 ^ 52) = 2 ^ ((e : Int) - 1022) := by
  have hexponent : binary64.minExponent + binary64.fractionBits + (e : Int) = e - 1022 := by
    rw [show binary64.minExponent = -1074 from rfl, show binary64.fractionBits = 52 from rfl]
    ring
  rw [← hexponent]
  exact binary64.value_mul_pow e

theorem Format.binary32_value_one : binary32.value (127 * 2 ^ 23) = 1 := by
  simpa using binary32_value 126

theorem Format.binary64_value_one : binary64.value (1023 * 2 ^ 52) = 1 := by
  simpa using binary64_value 1022

theorem Single.toExtended_one : one.toExtended = .finite false 1 := by
  have hfinite : 127 * 2 ^ 23 < binary32.infinity := by decide
  rw [← binary32_value_one]
  exact toExtended_ofMagnitude (s := false) hfinite

end AxisNorm
