import AxisNorm.Proofs.Float.Middle
import AxisNorm.Proofs.Float.Reciprocal
import Mathlib.NumberTheory.SumTwoSquares
import Mathlib.Tactic.NormNum.Prime

/-!
# When rounding twice is rounding once

The reciprocal of a size is a quotient of double precision, rounded once more. The two roundings give what one
rounding of the exact reciprocal gives, unless the first of them takes it into a middle between two numbers of
single precision or across it: in the middle nothing is left of the side that it came from.

* `Single.CrossesMiddle`: the sizes where that happens, said of products of natural numbers and of the divisor.
* `Single.nearest_quotient_eq_iff`: for all other sizes the two roundings agree with the one.
* `Single.not_crossesMiddle_of_lt`: **the first such size is 846731599.** Up to it the product of a size and an
  odd number of 25 bits would have to be `2 ^ 54 + 1`, which has no divisor with remainder three to four, or
  `2 ^ 54 - 1`, which has no divisor in the range that is left.
* `Single.reciprocal_nearest`: **the reciprocal is the nearest number, or else its neighbour.**
-/

namespace AxisNorm

open Format

namespace Single

variable {n M k : Nat}

/-- `M / 2 ^ k` is the middle between two numbers of single precision: an odd number of 25 bits over a power
of two. -/
structure IsMiddle (M k : Nat) : Prop where
  odd : M % 2 = 1
  low : 2 ^ 24 < M
  high : M < 2 ^ 25
  exponent : k ≤ 88

/-- The encoding of single precision below a middle. -/
def beforeMiddle (M k : Nat) : Nat := (150 - k) * 2 ^ 23 + M / 2

/-- The encoding of double precision that a middle has. -/
def middleDouble (M k : Nat) : Nat := (1046 - k) * 2 ^ 52 + M * 2 ^ 28

/-- One divided by `d`, rounded twice, ends past a middle. The first rounding takes what is too close to the
middle into it, and from there the second one goes on if the encoding before the middle is odd. -/
def GoesPast (M k : Nat) (d : Rat) : Prop :=
  if M % 4 = 3 then d * (2 ^ 29 * M - 1) ≤ 2 ^ (k + 29) else d * (2 ^ 29 * M + 1) < 2 ^ (k + 29)

/-- The exact reciprocal of a size and what becomes of it are on different sides of a middle. -/
def CrossesMiddle (n : Nat) : Prop :=
  ∃ M k, IsMiddle M k ∧ ¬ (n * M < 2 ^ k ↔ GoesPast M k (divisor n))

theorem middle_beforeMiddle (h : IsMiddle M k) : binary32.middle (beforeMiddle M k) = M / 2 ^ k := by
  obtain ⟨hodd, hlow, hhigh, hk⟩ := h
  have hbefore : 2 ^ 23 ≤ M / 2 ∧ M / 2 < 2 ^ 24 := by omega
  have hmiddle := binary32.middle_encode (e := 150 - k) hbefore.2 (.inr hbefore.1)
  have hexponent : binary32.minExponent + ((150 - k : Nat) : Int) - 1 = -(k : Int) := by
    rw [show binary32.minExponent = -149 from rfl]
    omega
  have hM : 2 * ((M / 2 : Nat) : Rat) + 1 = M := by
    exact_mod_cast (by omega : 2 * (M / 2) + 1 = M)
  rw [hexponent, hM, zpow_neg, zpow_natCast] at hmiddle
  exact hmiddle

theorem beforeMiddle_lt (h : IsMiddle M k) : beforeMiddle M k < binary32.infinity := by
  have hhigh := h.high
  have hinfinity : binary32.infinity = 255 * 2 ^ 23 := rfl
  unfold beforeMiddle
  omega

theorem beforeMiddle_mod_two (h : IsMiddle M k) : beforeMiddle M k % 2 = 1 ↔ M % 4 = 3 := by
  have hodd := h.odd
  unfold beforeMiddle
  omega

theorem value_middleDouble (h : IsMiddle M k) : binary64.value (middleDouble M k) = M / 2 ^ k := by
  obtain ⟨-, hlow, hhigh, hk⟩ := h
  have hbits : 2 ^ 52 ≤ M * 2 ^ 28 ∧ M * 2 ^ 28 ≤ 2 ^ 53 := by omega
  have hvalue := binary64.value_encode (e := 1046 - k) hbits.2 (.inr hbits.1)
  have hexponent : binary64.minExponent + ((1046 - k : Nat) : Int) = -((28 + k : Nat) : Int) := by
    rw [show binary64.minExponent = -1074 from rfl]
    omega
  rw [hexponent, zpow_neg, zpow_natCast, pow_add] at hvalue
  rw [middleDouble, show 2 ^ 52 = 2 ^ binary64.fractionBits from rfl, hvalue, Nat.cast_mul, Nat.cast_pow,
    Nat.cast_ofNat]
  field_simp

theorem middle_double {s : Nat} (hlow : 2 ^ 52 ≤ s) (hhigh : s < 2 ^ 53) (hk : k ≤ 88) :
    binary64.middle ((1046 - k) * 2 ^ 52 + s) = (2 * s + 1) / 2 ^ (k + 29) := by
  have hmiddle := binary64.middle_encode (e := 1046 - k) hhigh (.inr hlow)
  have hexponent : binary64.minExponent + ((1046 - k : Nat) : Int) - 1 = -((k + 29 : Nat) : Int) := by
    rw [show binary64.minExponent = -1074 from rfl]
    omega
  rw [hexponent, zpow_neg, zpow_natCast] at hmiddle
  exact hmiddle

theorem middle_middleDouble (h : IsMiddle M k) :
    binary64.middle (middleDouble M k) = (2 ^ 29 * M + 1) / 2 ^ (k + 29) := by
  have hlow := h.low
  have hhigh := h.high
  rw [middleDouble, middle_double (by omega) (by omega) h.exponent]
  push_cast
  ring

theorem middle_pred_middleDouble (h : IsMiddle M k) :
    binary64.middle (middleDouble M k - 1) = (2 ^ 29 * M - 1) / 2 ^ (k + 29) := by
  have hlow := h.low
  have hhigh := h.high
  have hpred : middleDouble M k - 1 = (1046 - k) * 2 ^ 52 + (M * 2 ^ 28 - 1) := by
    unfold middleDouble
    exact Nat.add_sub_assoc (by omega) _
  rw [hpred, middle_double (by omega) (by omega) h.exponent, Nat.cast_sub (by omega)]
  push_cast
  ring

/-- Every middle from `2 ^ -64` to one is one of these. -/
theorem exists_isMiddle {m : Nat} (hlow : 63 * 2 ^ 23 ≤ m) (hhigh : m < 127 * 2 ^ 23) :
    ∃ M k, IsMiddle M k ∧ beforeMiddle M k = m := by
  refine ⟨2 * (2 ^ 23 + m % 2 ^ 23) + 1, 151 - m / 2 ^ 23, ⟨?_, ?_, ?_, ?_⟩, ?_⟩
  · omega
  · omega
  · omega
  · omega
  · unfold beforeMiddle
    omega

/-! ## The sides of a middle -/

theorem IsMiddle.mul_ne_pow (h : IsMiddle M k) (n j : Nat) : n * M ≠ 2 ^ j := by
  intro heq
  obtain ⟨i, -, hi⟩ := (Nat.dvd_prime_pow Nat.prime_two).mp (Dvd.intro_left n heq)
  have hodd := h.odd
  have hlow := h.low
  cases i with
  | zero => omega
  | succ i =>
    rw [Nat.pow_succ] at hi
    omega

theorem beforeMiddle_lt_nearest_iff (h : IsMiddle M k) (hpos : 0 < n) :
    beforeMiddle M k < binary32.nearest (1 / n) ↔ n * M < 2 ^ k := by
  have hn : (0 : Rat) < n := Nat.cast_pos.mpr hpos
  have hne : (M : Rat) / 2 ^ k ≠ 1 / n := by
    rw [ne_eq, div_eq_div_iff (by positivity) hn.ne', one_mul, mul_comm]
    exact_mod_cast h.mul_ne_pow n k
  rw [binary32.lt_nearest_iff (beforeMiddle_lt h) (by positivity), middle_beforeMiddle h, or_iff_left (by tauto),
    div_lt_div_iff₀ (by positivity) hn, one_mul, mul_comm]
  exact_mod_cast Iff.rfl

theorem middleDouble_lt (h : IsMiddle M k) : middleDouble M k < binary64.infinity := by
  have hhigh := h.high
  have hinfinity : binary64.infinity = 2047 * 2 ^ 52 := rfl
  unfold middleDouble
  omega

theorem middle_lt_quotient_iff (h : IsMiddle M k) (hpos : 0 < n) (hlt : n < 2 ^ 64) :
    (M : Rat) / 2 ^ k < quotient n ↔ divisor n * (2 ^ 29 * M + 1) < 2 ^ (k + 29) := by
  have hd : 0 < divisor n := one_pos.trans_le (divisor_spec hpos hlt).1
  have heven : middleDouble M k % 2 ≠ 1 := by
    unfold middleDouble
    omega
  rw [← value_middleDouble h, quotient, binary64.value_strictMono.lt_iff_lt,
    binary64.lt_nearest_iff (middleDouble_lt h) (by positivity), middle_middleDouble h,
    or_iff_left (by tauto), div_lt_div_iff₀ (by positivity) hd, one_mul, mul_comm]

theorem middle_le_quotient_iff (h : IsMiddle M k) (hpos : 0 < n) (hlt : n < 2 ^ 64) :
    (M : Rat) / 2 ^ k ≤ quotient n ↔ divisor n * (2 ^ 29 * M - 1) ≤ 2 ^ (k + 29) := by
  have hd : 0 < divisor n := one_pos.trans_le (divisor_spec hpos hlt).1
  have hlow := h.low
  have hodd : (middleDouble M k - 1) % 2 = 1 := by
    unfold middleDouble
    omega
  have hpred : middleDouble M k - 1 < binary64.infinity := (Nat.sub_le _ _).trans_lt (middleDouble_lt h)
  have hsucc : middleDouble M k = middleDouble M k - 1 + 1 := by omega
  rw [← value_middleDouble h, quotient, binary64.value_strictMono.le_iff_le, hsucc, Nat.succ_le_iff,
    binary64.lt_nearest_iff hpred (by positivity), middle_pred_middleDouble h, and_iff_left hodd, ← le_iff_lt_or_eq,
    div_le_div_iff₀ (by positivity) hd, one_mul, mul_comm]

theorem beforeMiddle_lt_nearest_quotient_iff (h : IsMiddle M k) (hpos : 0 < n) (hlt : n < 2 ^ 64) :
    beforeMiddle M k < binary32.nearest (quotient n) ↔ GoesPast M k (divisor n) := by
  have hquotient : 0 ≤ quotient n := binary64.value_nonneg _
  rw [binary32.lt_nearest_iff (beforeMiddle_lt h) hquotient, middle_beforeMiddle h, beforeMiddle_mod_two h, GoesPast]
  split
  · next h3 => rw [and_iff_left h3, ← le_iff_lt_or_eq, middle_le_quotient_iff h hpos hlt]
  · next h3 => rw [or_iff_left (by tauto), middle_lt_quotient_iff h hpos hlt]

theorem nearest_quotient_bounds (hpos : 0 < n) (hlt : n < 2 ^ 64) :
    63 * 2 ^ 23 ≤ binary32.nearest (quotient n) ∧ binary32.nearest (quotient n) ≤ 127 * 2 ^ 23 := by
  obtain ⟨hlow, hhigh, -⟩ := quotient_spec hpos hlt
  obtain ⟨hnlow, hnhigh, -⟩ := nearest_of_le_one hlow hhigh
  exact ⟨hnlow, hnhigh⟩

theorem nearest_one_div_bounds (hpos : 0 < n) (hlt : n < 2 ^ 64) :
    63 * 2 ^ 23 ≤ binary32.nearest (1 / n) ∧ binary32.nearest (1 / n) ≤ 127 * 2 ^ 23 := by
  have hlow : (1 : Rat) ≤ n := by exact_mod_cast hpos
  have hhigh : (n : Rat) ≤ 2 ^ 64 := by exact_mod_cast hlt.le
  obtain ⟨hqlow, hqhigh⟩ := one_div_bounds hlow hhigh
  obtain ⟨hnlow, hnhigh, -⟩ := nearest_of_le_one hqlow hqhigh
  exact ⟨hnlow, hnhigh⟩

/-- The quotient and the exact reciprocal are rounded alike if no middle is between them. -/
theorem nearest_quotient_eq_iff (hpos : 0 < n) (hlt : n < 2 ^ 64) :
    binary32.nearest (quotient n) = binary32.nearest (1 / n) ↔ ¬ CrossesMiddle n := by
  have hquotient := nearest_quotient_bounds hpos hlt
  have hexact := nearest_one_div_bounds hpos hlt
  constructor
  · rintro heq ⟨M, k, h, hcross⟩
    apply hcross
    rw [← beforeMiddle_lt_nearest_iff h hpos, ← beforeMiddle_lt_nearest_quotient_iff h hpos hlt, heq]
  · -- Of two different encodings the smaller one is before a middle that only the other is past.
    intro hnone
    by_contra hne
    obtain ⟨M, k, h, hbefore⟩ := exists_isMiddle
      (m := min (binary32.nearest (quotient n)) (binary32.nearest (1 / n))) (by omega) (by omega)
    apply hnone
    refine ⟨M, k, h, fun hside => ?_⟩
    rw [← beforeMiddle_lt_nearest_iff h hpos, ← beforeMiddle_lt_nearest_quotient_iff h hpos hlt] at hside
    omega

theorem isNearest_reciprocal_iff (hpos : 0 < n) (hlt : n < 2 ^ 64) :
    (reciprocal n).IsNearest (1 / n) ↔ ¬ CrossesMiddle n := by
  have hquotient := nearest_quotient_bounds hpos hlt
  have hexact := nearest_one_div_bounds hpos hlt
  have hinfinity : binary32.infinity = 255 * 2 ^ 23 := rfl
  rw [Single.isNearest_iff (by positivity) (by omega) (by omega), reciprocal_eq,
    ofMagnitude_inj (by omega) (by omega), nearest_quotient_eq_iff hpos hlt]

theorem isFaithful_reciprocal (hpos : 0 < n) (hlt : n < 2 ^ 64) : (reciprocal n).IsFaithful (1 / n) := by
  obtain ⟨hlow, -, herror⟩ := quotient_spec hpos hlt
  have hn : (0 : Rat) < n := Nat.cast_pos.mpr hpos
  have hclose : |quotient n - 1 / n| * 2 ^ 26 ≤ 1 / n := by
    have hscale : quotient n - 1 / n = (quotient n * n - 1) * (1 / n) := by
      field_simp
    rw [hscale, abs_mul, abs_of_pos (one_div_pos.mpr hn), mul_right_comm]
    exact mul_le_of_le_one_left (by positivity) (by linarith)
  have hfinite : binary32.nearest (quotient n) < binary32.infinity :=
    (nearest_quotient_bounds hpos hlt).2.trans_lt (by decide)
  exact isFaithful_ofMagnitude (by positivity) (le_trans (by positivity) hlow) hfinite hclose

/-! ## Sizes that cross no middle -/

/-- A size that double precision has crosses a middle if its product with the odd number misses the power of
two by a part in `2 ^ 29` of the size, on the side of the odd encoding. -/
theorem crosses_iff_of_exact (h : IsMiddle M k) (n : Nat) : ¬ (n * M < 2 ^ k ↔ GoesPast M k n) ↔
    M % 4 = 3 ∧ 2 ^ k < n * M ∧ 2 ^ 29 * (n * M) ≤ 2 ^ 29 * 2 ^ k + n ∨
    M % 4 = 1 ∧ n * M < 2 ^ k ∧ 2 ^ 29 * 2 ^ k ≤ 2 ^ 29 * (n * M) + n := by
  have hodd := h.odd
  have hne := h.mul_ne_pow n k
  have hle : (n : Rat) * (2 ^ 29 * M - 1) ≤ 2 ^ (k + 29) ↔ 2 ^ 29 * (n * M) ≤ 2 ^ 29 * 2 ^ k + n := by
    rw [pow_add, ← @Nat.cast_le Rat]
    push_cast
    constructor <;> intro hle <;> linarith
  have hlt : (n : Rat) * (2 ^ 29 * M + 1) < 2 ^ (k + 29) ↔ 2 ^ 29 * (n * M) + n < 2 ^ 29 * 2 ^ k := by
    rw [pow_add, ← @Nat.cast_lt Rat]
    push_cast
    constructor <;> intro hlt <;> linarith
  unfold GoesPast
  rw [hle, hlt]
  split <;> omega

/-- No divisor of a square plus one leaves the remainder three to four. -/
theorem mod_four_ne_three_of_dvd {x : Nat} (h : M ∣ x ^ 2 + 1) : M % 4 ≠ 3 := by
  have hsquare : IsSquare (-1 : ZMod M) := by
    refine ⟨x, ?_⟩
    have hzero : ((x ^ 2 + 1 : Nat) : ZMod M) = 0 := (ZMod.natCast_eq_zero_iff _ _).mpr h
    push_cast at hzero
    linear_combination -hzero
  obtain ⟨a, b, rfl⟩ := Nat.eq_sq_add_sq_of_isSquare_mod_neg_one hsquare
  intro hmod
  have hsum : (a : ZMod 4) ^ 2 + (b : ZMod 4) ^ 2 = 3 := by
    exact_mod_cast (ZMod.natCast_eq_natCast_iff' (a ^ 2 + b ^ 2) 3 4).mpr hmod
  have hnever : ∀ a b : ZMod 4, a ^ 2 + b ^ 2 ≠ 3 := by decide
  exact hnever a b hsum

/-- The divisors of `2 ^ 54 - 1` up to `2 ^ 25` end with `81 * 262657 = 21275217`. -/
theorem not_dvd_pow_sub_one (hlow : 21275217 < M) (hhigh : M < 2 ^ 25) : ¬ M ∣ 2 ^ 54 - 1 := by
  intro hdvd
  have hp : Nat.Prime 87211 := by norm_num
  have hq : Nat.Prime 262657 := by norm_num
  rw [show 2 ^ 54 - 1 = 786429 * (87211 * 262657) by norm_num] at hdvd
  obtain ⟨a, b, ha, hb, rfl⟩ := Nat.dvd_mul.mp hdvd
  obtain ⟨c, d, hc, hd, rfl⟩ := Nat.dvd_mul.mp hb
  have hapos : 0 < a := Nat.pos_of_dvd_of_pos ha (by norm_num)
  have hale : a ≤ 786429 := Nat.le_of_dvd (by norm_num) ha
  have hnone : ∀ a < 385, 244 ≤ a ∨ 82 ≤ a ∧ a < 128 → ¬ a ∣ 786429 := by decide +kernel
  rcases (Nat.dvd_prime hp).mp hc with rfl | rfl <;> rcases (Nat.dvd_prime hq).mp hd with rfl | rfl
  · omega
  · exact hnone a (by omega) (by omega) ha
  · exact hnone a (by omega) (by omega) ha
  · omega

theorem not_crossesMiddle_of_lt (hpos : 0 < n) (hlt : n < 846731599) : ¬ CrossesMiddle n := by
  rintro ⟨M, k, h, hcross⟩
  rw [divisor_eq hpos (by omega), crosses_iff_of_exact h n] at hcross
  have hlow := h.low
  have hhigh := h.high
  -- A part in `2 ^ 29` of the size is one, so the product is next to the power of two, which is `2 ^ 54`.
  have hsize : 2 ^ 29 ≤ n := by omega
  have hmost : n * M ≤ 846731598 * (2 ^ 25 - 1) := Nat.mul_le_mul (by omega) (by omega)
  have hleast : 2 ^ 29 * (2 ^ 24 + 1) ≤ n * M := Nat.mul_le_mul hsize hlow
  have hk : 53 < k := (Nat.pow_lt_pow_iff_right Nat.one_lt_two).mp (by omega)
  have hk' : k < 55 := (Nat.pow_lt_pow_iff_right Nat.one_lt_two).mp (by omega)
  obtain rfl : k = 54 := by omega
  rcases hcross with ⟨hmod, hpast, hclose⟩ | ⟨-, hbefore, hclose⟩
  · have heq : (2 ^ 27) ^ 2 + 1 = n * M := by omega
    exact mod_four_ne_three_of_dvd (heq ▸ Nat.dvd_mul_left M n) hmod
  · have heq : 2 ^ 54 - 1 = n * M := by omega
    have hlarge : 21275217 < M := by
      by_contra hsmall
      have hshort : n * M ≤ 846731598 * 21275217 := Nat.mul_le_mul (by omega) (by omega)
      omega
    exact not_dvd_pow_sub_one hlarge hhigh (heq ▸ Nat.dvd_mul_left M n)

/-- **The reciprocal of a size is the number nearest to the exact one, unless the quotient crosses a middle.**
No size below 846731599 crosses one, and where one does the reciprocal is still a neighbour of the exact
one. -/
theorem reciprocal_nearest (hpos : 0 < n) (hlt : n < 2 ^ 64) :
    ((reciprocal n).IsNearest (1 / n) ↔ ¬ CrossesMiddle n) ∧
    (n < 846731599 → (reciprocal n).IsNearest (1 / n)) ∧
    (reciprocal n).IsFaithful (1 / n) := by
  refine ⟨isNearest_reciprocal_iff hpos hlt, ?_, isFaithful_reciprocal hpos hlt⟩
  intro hsmall
  exact (isNearest_reciprocal_iff hpos hlt).mpr (not_crossesMiddle_of_lt hpos hsmall)

/-- The largest size before the first that crosses a middle. -/
theorem reciprocal_nearest_before_first : 0 < 846731598 ∧ 846731598 < 2 ^ 64 ∧
    reciprocal 846731598 = ⟨0x30a25129⟩ ∧ (⟨0x30a25129⟩ : Single).IsNearest (1 / (846731598 : Nat)) := by
  have heq : reciprocal 846731598 = ⟨0x30a25129⟩ := by decide +kernel
  exact ⟨by decide, by decide, heq, heq ▸ (reciprocal_nearest (by decide) (by decide)).2.1 (by decide)⟩

/-- The first size that crosses a middle: its product with 21275217 is `2 ^ 54 - 1`, and the middle
`21275217 / 2 ^ 54` is what double precision makes of the quotient. -/
theorem reciprocal_not_nearest : 0 < 846731599 ∧ 846731599 < 2 ^ 64 ∧
    ¬ (reciprocal 846731599).IsNearest (1 / (846731599 : Nat)) := by
  refine ⟨by decide, by decide, fun h => ?_⟩
  have heq : reciprocal 846731599 = ⟨0x30a25128⟩ := by decide +kernel
  have hvalue : (⟨0x30a25128⟩ : Single).value = 10637608 / 2 ^ 53 := by decide +kernel
  have hnext : (⟨0x30a25129⟩ : Single).value = 10637609 / 2 ^ 53 := by decide +kernel
  have hleast := h.least ⟨0x30a25129⟩ (by decide)
  rw [heq, hvalue, hnext, abs_sub_le_iff_of_gt (by norm_num)] at hleast
  norm_num at hleast

end Single

end AxisNorm
