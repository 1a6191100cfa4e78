import AxisNorm.Decimal
import AxisNorm.Proofs.Float.Middle

/-!
# Decimal numbers rounded once

* `Decimal.toSingle_eq`: the exponents that decide the result by themselves decide it rightly.
* `Decimal.toSingle_positive_iff`: which numbers are finite and above zero after rounding.
* `Decimal.isNearest_iff`: **they become the nearest number, and no other is nearest.**
-/

namespace AxisNorm

open Format

theorem Format.binary32_middle_zero : binary32.middle 0 = 2 ^ (-150 : Int) := by
  have h := binary32.middle_encode (e := 0) (s := 0) (by decide) (.inl rfl)
  rw [show binary32.minExponent = -149 from rfl] at h
  rw [show (0 : Nat) = 0 * 2 ^ binary32.fractionBits + 0 from rfl, h]
  norm_num

theorem Format.binary32_middle_last : binary32.middle (binary32.infinity - 1) = 2 ^ 128 - 2 ^ 103 := by
  have h := binary32.middle_encode (e := 253) (s := 16777215) (by decide) (.inr (by decide))
  rw [show binary32.minExponent = -149 from rfl] at h
  rw [show binary32.infinity - 1 = 253 * 2 ^ binary32.fractionBits + 16777215 from rfl, h]
  norm_num

theorem Format.binary32_nearest_lt_infinity_iff {q : Rat} (hq : 0 ≤ q) :
    binary32.nearest q < binary32.infinity ↔ q < 2 ^ 128 - 2 ^ 103 := by
  rw [nearest_lt_infinity_iff binary32 (by decide) hq, binary32_middle_last]

theorem Format.binary32_nearest_pos_iff {q : Rat} (hq : 0 ≤ q) : 0 < binary32.nearest q ↔ 2 ^ (-150 : Int) < q := by
  rw [lt_nearest_iff binary32 (by decide) hq, binary32_middle_zero]
  simp

namespace Decimal

variable {d : Decimal} {x : Single}

theorem value_nonneg (d : Decimal) : 0 ≤ d.value := by
  unfold value
  positivity

/-! ## Exponents far outside the format -/

theorem lt_value_of_exponent (hcoefficient : d.coefficient ≠ 0) (h : 40 ≤ d.exponent) : 2 ^ 128 < d.value := by
  have hone : (1 : Rat) ≤ d.coefficient := by exact_mod_cast Nat.pos_of_ne_zero hcoefficient
  have hpow : (10 : Rat) ^ (40 : Int) ≤ 10 ^ d.exponent := zpow_le_zpow_right₀ (by norm_num) h
  calc (2 : Rat) ^ 128 < 1 * 10 ^ (40 : Int) := by norm_num
    _ ≤ d.value := mul_le_mul hone hpow (by positivity) (by positivity)

theorem value_lt_of_exponent (h : d.exponent + d.coefficient.log2 < -60) : d.value < 2 ^ (-150 : Int) := by
  have hcoefficient : (d.coefficient : Rat) < 2 ^ (d.coefficient.log2 + 1) := by
    exact_mod_cast Nat.lt_log2_self
  generalize d.coefficient.log2 = k at h hcoefficient
  have hpow : (10 : Rat) ^ d.exponent ≤ 10 ^ (-61 - (k : Int)) := zpow_le_zpow_right₀ (by norm_num) (by omega)
  have hratio : (2 : Rat) ^ k / 10 ^ k ≤ 1 :=
    div_le_one_of_le₀ (pow_le_pow_left₀ (by norm_num) (by norm_num) k) (by positivity)
  calc d.value ≤ d.coefficient * 10 ^ (-61 - (k : Int)) := mul_le_mul_of_nonneg_left hpow (Nat.cast_nonneg _)
    _ ≤ 2 ^ (k + 1) * 10 ^ (-61 - (k : Int)) := mul_le_mul_of_nonneg_right hcoefficient.le (by positivity)
    _ = 2 * 10 ^ (-61 : Int) * (2 ^ k / 10 ^ k) := by
      rw [zpow_sub₀ (by norm_num), zpow_natCast, pow_succ]
      ring
    _ ≤ 2 * 10 ^ (-61 : Int) * 1 := mul_le_mul_of_nonneg_left hratio (by positivity)
    _ < 2 ^ (-150 : Int) := by norm_num

theorem toSingle_eq (d : Decimal) : d.toSingle = .ofMagnitude d.negative (binary32.nearest d.value) := by
  unfold toSingle
  split
  · next hzero => rw [value, hzero, Nat.cast_zero, zero_mul, nearest_zero]
  split
  · next hcoefficient hexponent =>
    have hge : ¬ d.value < 2 ^ 128 - 2 ^ 103 := by
      have hlt := lt_value_of_exponent hcoefficient hexponent
      linarith
    have hinfinite := (binary32_nearest_lt_infinity_iff d.value_nonneg).not.mpr hge
    rw [Nat.le_antisymm (binary32.nearest_le_infinity _) (not_lt.mp hinfinite)]
  split
  · next hexponent =>
    have hzero := (binary32_nearest_pos_iff d.value_nonneg).not.mpr (value_lt_of_exponent hexponent).le.not_gt
    rw [Nat.eq_zero_of_not_pos hzero]
  · rfl

/-! ## Numbers above zero -/

/-- The number with its sign, exactly. -/
def exact (d : Decimal) : Rat := Extended.signed d.negative d.value

theorem exact_of_positive (h : 0 < d.exact) : d.negative = false ∧ d.exact = d.value := by
  have hnonneg := d.value_nonneg
  unfold exact Extended.signed at h ⊢
  split at h
  · linarith
  · next hsign => exact ⟨Bool.eq_false_iff.mpr hsign, if_neg hsign⟩

theorem toSingle_positive_iff :
    (d.toSingle.isFinite = true ∧ ¬ d.toSingle.isNegative = true ∧ d.toSingle.magnitude ≠ 0) ↔
      2 ^ (-150 : Int) < d.exact ∧ d.exact < 2 ^ 128 - 2 ^ 103 := by
  have hle := binary32.nearest_le_infinity d.value
  rw [toSingle_eq]
  cases hsign : d.negative with
  | false =>
    have hexact : d.exact = d.value := by rw [exact, hsign]; rfl
    rw [hexact, ← binary32_nearest_lt_infinity_iff d.value_nonneg, ← binary32_nearest_pos_iff d.value_nonneg,
      Single.isFinite, Single.magnitude_ofMagnitude hle, decide_eq_true_iff]
    constructor
    · rintro ⟨hfinite, -, hzero⟩
      exact ⟨Nat.pos_of_ne_zero hzero, hfinite⟩
    · rintro ⟨hpos, hfinite⟩
      exact ⟨hfinite, by rw [Single.isNegative_ofMagnitude hle]; decide, hpos.ne'⟩
  | true =>
    refine iff_of_false (fun h => h.2.1 (Single.isNegative_ofMagnitude hle)) fun h => ?_
    obtain ⟨hfalse, -⟩ := exact_of_positive (d := d) (lt_trans (by norm_num) h.1)
    rw [hsign] at hfalse
    cases hfalse

/-- **Numbers that are finite and above zero after rounding become the nearest number, and no other is nearest.** -/
theorem isNearest_iff (hlow : 2 ^ (-150 : Int) < d.exact) (hhigh : d.exact < 2 ^ 128 - 2 ^ 103) :
    x.IsNearest d.exact ↔ x = d.toSingle := by
  obtain ⟨hsign, hexact⟩ := exact_of_positive (d := d) (lt_trans (by norm_num) hlow)
  rw [hexact] at hlow hhigh ⊢
  rw [toSingle_eq, hsign]
  exact Single.isNearest_iff d.value_nonneg ((binary32_nearest_pos_iff d.value_nonneg).mpr hlow)
    ((binary32_nearest_lt_infinity_iff d.value_nonneg).mpr hhigh)

end Decimal

end AxisNorm
