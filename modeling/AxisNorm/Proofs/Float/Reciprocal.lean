import AxisNorm.Proofs.Float.Nearest
import AxisNorm.Proofs.Float.Single

/-!
# The reciprocal of a size

A size is rounded to double precision, the quotient is rounded to double precision, and the result is
rounded to single precision.

* `Single.divisor`, `Single.quotient`: the two numbers of double precision.
* `Single.reciprocal_spec`: **the reciprocal of a size of 64 bits is a normal number from `2 ^ -64` to one,
  and times the size it is one but for `2 ^ -23`.**
-/

namespace AxisNorm

open Format Single

theorem abs_mul_sub_one_le {n d q : Rat} (hd : 0 < d) (hdn : |d - n| ≤ n / 2 ^ 53)
    (hq : |q - 1 / d| ≤ 1 / d / 2 ^ 53) : |q * n - 1| ≤ 1 / 2 ^ 51 := by
  rw [abs_le] at hdn hq ⊢
  have hqd : 1 - 1 / 2 ^ 53 ≤ q * d ∧ q * d ≤ 1 + 1 / 2 ^ 53 := by
    have hone : 1 / d * d = 1 := div_mul_cancel₀ 1 hd.ne'
    constructor <;> nlinarith
  have hqn : q * n * (1 - 1 / 2 ^ 53) ≤ q * d ∧ q * d ≤ q * n * (1 + 1 / 2 ^ 53) := by
    have hpos : 0 ≤ q := by
      by_contra hneg
      nlinarith
    constructor <;> nlinarith
  constructor <;> linarith

namespace Single

variable {n : Nat} {q : Rat}

/-- A size in double precision. -/
def divisor (n : Nat) : Rat := binary64.value (binary64.nearest n)

/-- One divided by a size, in double precision. -/
def quotient (n : Nat) : Rat := binary64.value (binary64.nearest (1 / divisor n))

theorem reciprocal_eq (n : Nat) : reciprocal n = ofMagnitude false (binary32.nearest (quotient n)) := rfl

theorem divisor_spec (hpos : 0 < n) (hlt : n < 2 ^ 64) :
    1 ≤ divisor n ∧ divisor n ≤ 2 ^ 64 ∧ |divisor n - n| ≤ n / 2 ^ 53 := by
  have hmost : binary64.value (1087 * 2 ^ 52) = 2 ^ 64 := by
    rw [binary64_value 1086]
    norm_num
  have hlow : (1 : Rat) ≤ n := by exact_mod_cast hpos
  have hhigh : (n : Rat) ≤ 2 ^ 64 := by exact_mod_cast hlt.le
  obtain ⟨hdlow, hdhigh, hderror⟩ := binary64.nearest_between (by decide) (by decide)
    (binary64_value_one.trans_le hlow) (hhigh.trans_eq hmost.symm)
  exact ⟨binary64_value_one.symm.trans_le (binary64.value_strictMono.monotone hdlow),
    (binary64.value_strictMono.monotone hdhigh).trans_eq hmost, hderror⟩

theorem divisor_eq (hpos : 0 < n) (hlt : n < 2 ^ 53) : divisor n = n := by
  have hlow := Nat.log2_self_le hpos.ne'
  have hhigh := Nat.lt_log2_self (n := n)
  have hl : n.log2 ≤ 52 := by
    by_contra hlarge
    have := Nat.pow_le_pow_right Nat.two_pos (Nat.lt_of_not_le hlarge)
    omega
  generalize n.log2 = l at hlow hhigh hl
  obtain ⟨j, hj⟩ := Nat.exists_eq_add_of_le hl
  have hbits : 2 ^ 52 ≤ n * 2 ^ j ∧ n * 2 ^ j ≤ 2 ^ 53 := by
    rw [show 2 ^ 53 = 2 ^ (l + 1) * 2 ^ j by rw [← Nat.pow_add, Nat.add_right_comm, ← hj], hj, Nat.pow_add]
    exact ⟨Nat.mul_le_mul_right _ hlow, Nat.mul_le_mul_right _ hhigh.le⟩
  have hvalue := binary64.value_encode (e := 1022 + l) hbits.2 (.inr hbits.1)
  have hexponent : binary64.minExponent + ((1022 + l : Nat) : Int) = -(j : Int) := by
    rw [show binary64.minExponent = -1074 from rfl]
    omega
  rw [hexponent, zpow_neg, zpow_natCast, Nat.cast_mul, Nat.cast_pow, Nat.cast_ofNat,
    mul_inv_cancel_right₀ (by positivity)] at hvalue
  have hfinite : (1022 + l) * 2 ^ binary64.fractionBits + n * 2 ^ j ≤ binary64.infinity := by
    rw [show binary64.fractionBits = 52 from rfl, show binary64.infinity = 2047 * 2 ^ 52 from rfl]
    omega
  rw [divisor, ← hvalue, binary64.nearest_value hfinite]

theorem one_div_bounds {d : Rat} (hlow : 1 ≤ d) (hhigh : d ≤ 2 ^ 64) : 1 / 2 ^ 64 ≤ 1 / d ∧ 1 / d ≤ 1 :=
  ⟨one_div_le_one_div_of_le (one_pos.trans_le hlow) hhigh,
    (one_div_le_one_div_of_le one_pos hlow).trans_eq one_div_one⟩

theorem quotient_spec (hpos : 0 < n) (hlt : n < 2 ^ 64) :
    1 / 2 ^ 64 ≤ quotient n ∧ quotient n ≤ 1 ∧ |quotient n * n - 1| ≤ 1 / 2 ^ 51 := by
  have hleast : binary64.value (959 * 2 ^ 52) = 1 / 2 ^ 64 := by
    rw [binary64_value 958]
    norm_num
  obtain ⟨hdlow, hdhigh, hderror⟩ := divisor_spec hpos hlt
  obtain ⟨hlow, hhigh⟩ := one_div_bounds hdlow hdhigh
  obtain ⟨hqlow, hqhigh, hqerror⟩ := binary64.nearest_between (by decide) (by decide)
    (hleast.trans_le hlow) (hhigh.trans_eq binary64_value_one.symm)
  exact ⟨hleast.symm.trans_le (binary64.value_strictMono.monotone hqlow),
    (binary64.value_strictMono.monotone hqhigh).trans_eq binary64_value_one,
    abs_mul_sub_one_le (one_pos.trans_le hdlow) hderror hqerror⟩

/-- What lies between `2 ^ -64` and one is rounded to an encoding in between, with a small error. -/
theorem nearest_of_le_one (hlow : 1 / 2 ^ 64 ≤ q) (hhigh : q ≤ 1) : 63 * 2 ^ 23 ≤ binary32.nearest q ∧
    binary32.nearest q ≤ 127 * 2 ^ 23 ∧ |binary32.value (binary32.nearest q) - q| ≤ q / 2 ^ 24 := by
  have hleast : binary32.value (63 * 2 ^ 23) = 1 / 2 ^ 64 := by
    rw [binary32_value 62]
    norm_num
  exact binary32.nearest_between (by decide) (by decide) (hleast.trans_le hlow) (hhigh.trans_eq binary32_value_one.symm)

/-- **The reciprocal of a size of 64 bits.** -/
theorem reciprocal_spec (hpos : 0 < n) (hlt : n < 2 ^ 64) :
    (reciprocal n).IsNormal ∧ ∃ c : Rat, (reciprocal n).toExtended = .finite false c ∧
      0 < c ∧ c ≤ 1 ∧ |c * n - 1| ≤ 1 / 2 ^ 23 := by
  have hzero : (0 : Rat) < binary32.value (63 * 2 ^ 23) := by
    rw [binary32_value 62]
    positivity
  obtain ⟨hqlow, hqhigh, hqerror⟩ := quotient_spec hpos hlt
  obtain ⟨hclow, hchigh, hcerror⟩ := nearest_of_le_one hqlow hqhigh
  have hfinite : binary32.nearest (quotient n) < binary32.infinity := hchigh.trans_lt (by decide)
  rw [reciprocal_eq]
  refine ⟨⟨?_, isFinite_ofMagnitude hfinite⟩, _, toExtended_ofMagnitude hfinite, ?_, ?_, ?_⟩
  · rw [magnitude_ofMagnitude hfinite.le]
    exact le_trans (by decide) hclow
  · exact hzero.trans_le (binary32.value_strictMono.monotone hclow)
  · exact (binary32.value_strictMono.monotone hchigh).trans_eq binary32_value_one
  · -- The third rounding has relative error `2 ^ -24`.
    have hn : (0 : Rat) < n := Nat.cast_pos.mpr hpos
    rw [abs_le] at hqerror hcerror ⊢
    constructor <;> nlinarith

end Single

end AxisNorm
