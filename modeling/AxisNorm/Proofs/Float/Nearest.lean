import AxisNorm.Proofs.Float.Format
import Mathlib.Tactic.FieldSimp
import Mathlib.Tactic.NormNum

/-!
# Rounding to the nearest encoding

* `Format.nearest_value`, `Format.nearest_mono`: rounding keeps what a format has, and the order.
  `Format.le_nearestRoot`: so does rounding of roots.
* `Format.abs_value_nearest_sub_le`: **the error is half a step at most**, and relative to the value
  `2 ^ -precision` where the hidden bit is set.
-/

namespace AxisNorm

variable {n : Nat} {x y middle : Rat}

theorem nearerOf_cases (n : Nat) (x middle : Rat) :
    nearerOf n x middle = n ∧ x ≤ middle ∨ nearerOf n x middle = n + 1 ∧ middle ≤ x := by
  unfold nearerOf
  split
  · next h => exact .inl ⟨rfl, h.le⟩
  split
  · next h => exact .inr ⟨rfl, h.le⟩
  · have heq : x = middle := le_antisymm (not_lt.mp ‹_›) (not_lt.mp ‹_›)
    rcases Nat.mod_two_eq_zero_or_one n with h | h
    · exact .inl ⟨by rw [h, Nat.add_zero], heq.le⟩
    · exact .inr ⟨by rw [h], heq.ge⟩

theorem le_nearerOf (n : Nat) (x middle : Rat) : n ≤ nearerOf n x middle := by
  rcases nearerOf_cases n x middle with ⟨h, -⟩ | ⟨h, -⟩ <;> omega

theorem nearerOf_le (n : Nat) (x middle : Rat) : nearerOf n x middle ≤ n + 1 := by
  rcases nearerOf_cases n x middle with ⟨h, -⟩ | ⟨h, -⟩ <;> omega

theorem nearerOf_mono (h : x ≤ y) : nearerOf n x middle ≤ nearerOf n y middle := by
  rcases nearerOf_cases n x middle with ⟨hx, -⟩ | ⟨hx, hmiddle⟩
  · rw [hx]
    exact le_nearerOf n y middle
  rcases nearerOf_cases n y middle with ⟨hy, hle⟩ | ⟨hy, -⟩
  · have : x = y := le_antisymm h (hle.trans hmiddle)
    rw [this]
  · rw [hx, hy]

namespace Format

variable (f : Format) {p q : Rat}

theorem below_mono (hp : 0 < p) (hpq : p ≤ q) : f.below p ≤ f.below q := by
  have hlow := (f.below_spec hp).1
  have hhigh := (f.below_spec (hp.trans_le hpq)).2
  exact Nat.lt_succ_iff.mp (f.value_strictMono.lt_iff_lt.mp ((hlow.trans hpq).trans_lt hhigh))

theorem below_value (hn : 0 < n) : f.below (f.value n) = n := by
  have hpos : 0 < f.value n := f.value_zero ▸ f.value_strictMono hn
  obtain ⟨hlow, hhigh⟩ := f.below_spec hpos
  exact Nat.le_antisymm (f.value_strictMono.le_iff_le.mp hlow)
    (Nat.lt_succ_iff.mp (f.value_strictMono.lt_iff_lt.mp hhigh))

theorem nearest_zero : f.nearest 0 = 0 := if_pos rfl

theorem nearest_of_pos (hq : 0 < q) : f.nearest q =
    min (nearerOf (f.below q) (2 * q) (f.value (f.below q) + f.value (f.below q + 1))) f.infinity :=
  if_neg hq.ne'

theorem nearest_le_infinity (q : Rat) : f.nearest q ≤ f.infinity := by
  unfold nearest
  split
  · exact Nat.zero_le _
  · exact min_le_right _ _

theorem nearest_mono (hp : 0 ≤ p) (hpq : p ≤ q) : f.nearest p ≤ f.nearest q := by
  rcases hp.eq_or_lt with rfl | hp
  · rw [nearest_zero]
    exact Nat.zero_le _
  rw [nearest_of_pos f hp, nearest_of_pos f (hp.trans_le hpq)]
  refine min_le_min_right _ ?_
  rcases (f.below_mono hp hpq).eq_or_lt with heq | hlt
  · rw [← heq]
    exact nearerOf_mono (by linarith)
  · exact (nearerOf_le _ _ _).trans (hlt.nat_succ_le.trans (le_nearerOf _ _ _))

theorem nearest_value (hn : n ≤ f.infinity) : f.nearest (f.value n) = n := by
  rcases Nat.eq_zero_or_pos n with rfl | hpos
  · rw [value_zero, nearest_zero]
  rw [nearest_of_pos f (f.value_zero ▸ f.value_strictMono hpos), f.below_value hpos, nearerOf, if_pos,
    min_eq_left hn]
  rw [two_mul, add_lt_add_iff_left]
  exact f.value_strictMono (Nat.lt_succ_self n)

theorem le_nearest (hn : n ≤ f.infinity) (h : f.value n ≤ q) : n ≤ f.nearest q := by
  have hmono := f.nearest_mono (f.value_nonneg n) h
  rwa [f.nearest_value hn] at hmono

theorem nearest_le (hn : n ≤ f.infinity) (hq : 0 ≤ q) (h : q ≤ f.value n) : f.nearest q ≤ n := by
  have hmono := f.nearest_mono hq h
  rwa [f.nearest_value hn] at hmono

theorem nearestRoot_le_infinity (q : Rat) : f.nearestRoot q ≤ f.infinity := by
  unfold nearestRoot
  split
  · exact Nat.zero_le _
  · exact min_le_right _ _

theorem le_nearestRoot (hn : n ≤ f.infinity) (hq : 0 < q) (h : f.value n ^ 2 ≤ q) : n ≤ f.nearestRoot q := by
  have hlt := lt_of_pow_lt_pow_left₀ 2 (f.value_nonneg _) (h.trans_lt (f.belowRoot_spec hq).2)
  have hbelow : n ≤ f.belowRoot q := Nat.lt_succ_iff.mp (f.value_strictMono.lt_iff_lt.mp hlt)
  rw [nearestRoot, if_neg hq.ne']
  exact le_min (hbelow.trans (le_nearerOf _ _ _)) hn

theorem abs_value_nearest_sub_le (hq : 0 < q) (hfinite : q < f.value f.infinity) :
    |f.value (f.nearest q) - q| ≤ f.step (f.below q) / 2 := by
  obtain ⟨hlow, hhigh⟩ := f.below_spec hq
  have hbelow : f.below q + 1 ≤ f.infinity := f.value_strictMono.lt_iff_lt.mp (hlow.trans_lt hfinite)
  rw [nearest_of_pos f hq, min_eq_left ((nearerOf_le _ _ _).trans hbelow)]
  have hstep := f.value_succ (f.below q)
  rcases nearerOf_cases (f.below q) (2 * q) (f.value (f.below q) + f.value (f.below q + 1)) with
    ⟨h, hside⟩ | ⟨h, hside⟩
  · rw [h, abs_le]
    constructor <;> linarith
  · rw [h, abs_le]
    constructor <;> linarith

theorem abs_value_nearest_sub_le_mul (hq : f.value (2 ^ f.fractionBits) ≤ q) (hfinite : q < f.value f.infinity) :
    |f.value (f.nearest q) - q| ≤ q / 2 ^ (f.fractionBits + 1) := by
  have hpos : 0 < q := (f.value_zero ▸ f.value_strictMono (Nat.two_pow_pos f.fractionBits)).trans_le hq
  obtain ⟨hlow, hhigh⟩ := f.below_spec hpos
  have hhidden : 2 ^ f.fractionBits ≤ f.below q :=
    Nat.lt_succ_iff.mp (f.value_strictMono.lt_iff_lt.mp (hq.trans_lt hhigh))
  have hstep := (f.step_mul_le hhidden).trans hlow
  refine (f.abs_value_nearest_sub_le hpos hfinite).trans ?_
  rw [pow_succ, div_mul_eq_div_div, div_le_div_iff_of_pos_right (by norm_num), le_div_iff₀ (by positivity)]
  exact hstep

/-- Between two encodings with their hidden bits rounding stays there, and its error is small. -/
theorem nearest_between {a b : Nat} (ha : 2 ^ f.fractionBits ≤ a) (hb : b < f.infinity) (hlow : f.value a ≤ q)
    (hhigh : q ≤ f.value b) :
    a ≤ f.nearest q ∧ f.nearest q ≤ b ∧ |f.value (f.nearest q) - q| ≤ q / 2 ^ (f.fractionBits + 1) := by
  have hab : a ≤ b := f.value_strictMono.le_iff_le.mp (hlow.trans hhigh)
  refine ⟨f.le_nearest (hab.trans hb.le) hlow, f.nearest_le hb.le ((f.value_nonneg a).trans hlow) hhigh, ?_⟩
  exact f.abs_value_nearest_sub_le_mul ((f.value_strictMono.monotone ha).trans hlow)
    (hhigh.trans_lt (f.value_strictMono hb))

end Format

end AxisNorm
