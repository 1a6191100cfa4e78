import AxisNorm.Proofs.Float.Operations

/-!
# Bounds through rounded operations

Rounding keeps the order and the values of the format, so that a bound which the format has is carried from
the operands to the result, also where the result overflows.

* `Format.Has`: the finite values of a format, powers of two among them (`Format.has_zpow`).
* `Extended.AtLeast`: a number from a bound on, or infinity. `Extended.Within`: a finite number of bounded
  magnitude.
* `Single.atLeast_sum`: **a sum without negative terms is not below any of them.**
* `Single.atLeast_sqrt`, `Single.div_spec`: roots of such numbers, and the quotient by one.
-/

namespace AxisNorm

open Format

namespace Format

/-- A finite value of the format. -/
def Has (f : Format) (q : Rat) : Prop := ∃ n < f.infinity, f.value n = q

theorem has_zero : binary32.Has 0 := ⟨0, by decide, binary32.value_zero⟩

theorem has_zpow {k : Int} (hlow : -126 ≤ k) (hhigh : k ≤ 127) : binary32.Has (2 ^ k) := by
  obtain ⟨e, he⟩ := Int.le.dest hlow
  refine ⟨(e + 1) * 2 ^ 23, ?_, ?_⟩
  · rw [show binary32.infinity = 255 * 2 ^ 23 from rfl]
    omega
  · rw [binary32_value, show (e : Int) - 126 = k by omega]

theorem binary32_value_least : binary32.value 1 = 2 ^ (-149 : Int) := by
  have hvalue := binary32.value_encode (e := 0) (s := 1) (by decide) (.inl rfl)
  rw [Nat.zero_mul, Nat.zero_add] at hvalue
  rw [hvalue, show binary32.minExponent = -149 from rfl]
  norm_num

end Format

/-! ## Extended numbers -/

namespace Extended

/-- A finite number from `q` on that is not negative, or positive infinity. -/
def AtLeast (e : Extended) (q : Rat) : Prop := e = .infinite false ∨ ∃ r, e = .finite false r ∧ q ≤ r

/-- A finite number whose magnitude is at most `q`. -/
def Within (e : Extended) (q : Rat) : Prop := ∃ s r, e = .finite s r ∧ 0 ≤ r ∧ r ≤ q

variable {d e : Extended} {p q r : Rat} {s : Bool}

theorem AtLeast.mono (h : e.AtLeast q) (hpq : p ≤ q) : e.AtLeast p :=
  h.imp_right fun ⟨r, hr, hle⟩ => ⟨r, hr, hpq.trans hle⟩

theorem Within.mono (h : e.Within p) (hpq : p ≤ q) : e.Within q := by
  obtain ⟨s, r, hr, hnonneg, hle⟩ := h
  exact ⟨s, r, hr, hnonneg, hle.trans hpq⟩

theorem ofRat_of_nonneg (hq : 0 ≤ q) : ofRat false q = .finite false q := by
  unfold ofRat
  split
  · next h => rw [h]
  · rw [decide_eq_false hq.not_gt]
    rw [Rat.abs_of_nonneg hq]

theorem atLeast_add (hd : d.AtLeast p) (he : e.AtLeast q) (hp : 0 ≤ p) (hq : 0 ≤ q) : (add d e).AtLeast (p + q) := by
  rcases hd with rfl | ⟨a, rfl, ha⟩
  · rcases he with rfl | ⟨b, rfl, hb⟩ <;> exact .inl rfl
  · rcases he with rfl | ⟨b, rfl, hb⟩
    · exact .inl rfl
    · exact .inr ⟨a + b, ofRat_of_nonneg (add_nonneg (hp.trans ha) (hq.trans hb)), add_le_add ha hb⟩

theorem atLeast_mul (hd : d.AtLeast p) (hq : 0 < q) : (mul d (.finite false q)).AtLeast (p * q) := by
  rcases hd with rfl | ⟨a, rfl, ha⟩
  · exact .inl (if_neg hq.ne')
  · exact .inr ⟨a * q, rfl, mul_le_mul_of_nonneg_right ha hq.le⟩

theorem within_mul (hd : d.Within p) (he : e.Within q) : (mul d e).Within (p * q) := by
  obtain ⟨s, a, rfl, ha, hap⟩ := hd
  obtain ⟨t, b, rfl, hb, hbq⟩ := he
  exact ⟨_, a * b, rfl, mul_nonneg ha hb, mul_le_mul hap hbq hb (ha.trans hap)⟩

theorem one_div_spec (he : e.AtLeast q) (hq : 0 < q) :
    (div (.finite false 1) e).AtLeast 0 ∧ (div (.finite false 1) e).Within (1 / q) := by
  rcases he with rfl | ⟨a, rfl, ha⟩
  · exact ⟨.inr ⟨0, rfl, le_rfl⟩, false, 0, rfl, le_rfl, by positivity⟩
  · have hpos : 0 < a := hq.trans_le ha
    have hdiv : div (.finite false 1) (.finite false a) = .finite false (1 / a) := if_neg hpos.ne'
    have hnonneg : 0 ≤ 1 / a := by positivity
    exact ⟨.inr ⟨_, hdiv, hnonneg⟩, false, _, hdiv, hnonneg, one_div_le_one_div_of_le hq ha⟩

/-! ### Rounding -/

theorem atLeast_ofMagnitude {m n : Nat} (hn : n ≤ binary32.infinity) (hmn : m ≤ n) :
    (Single.ofMagnitude false n).toExtended.AtLeast (binary32.value m) := by
  rcases hn.lt_or_eq with hlt | rfl
  · exact .inr ⟨_, Single.toExtended_ofMagnitude hlt, binary32.value_strictMono.monotone hmn⟩
  · exact .inl (Single.toExtended_ofMagnitude_infinity false)

theorem atLeast_rounded (he : e.AtLeast q) (hq : binary32.Has q) : e.rounded.AtLeast q := by
  obtain ⟨n, hn, rfl⟩ := hq
  rcases he with rfl | ⟨r, rfl, hr⟩
  · exact .inl (rounded_infinite false)
  · exact atLeast_ofMagnitude (binary32.nearest_le_infinity r) (binary32.le_nearest hn.le hr)

theorem within_rounded (he : e.Within q) (hq : binary32.Has q) : e.rounded.Within q := by
  obtain ⟨n, hn, rfl⟩ := hq
  obtain ⟨s, r, rfl, hnonneg, hr⟩ := he
  have hle := binary32.nearest_le hn.le hnonneg hr
  exact ⟨s, _, rounded_of_lt (hle.trans_lt hn), binary32.value_nonneg _, binary32.value_strictMono.monotone hle⟩

end Extended

/-! ## Operations -/

namespace Single

open Extended

variable {x y : Single} {p q r : Rat} {s : Bool}

theorem within_of_toExtended (hx : x.toExtended = .finite s r) (hr : r ≤ q) : x.toExtended.Within q :=
  ⟨s, r, hx, nonneg_of_toExtended hx, hr⟩

theorem isFinite_of_within (hx : x.toExtended.Within q) : x.isFinite = true := by
  obtain ⟨s, r, hr, -⟩ := hx
  exact isFinite_iff.mpr (hr ▸ trivial)

theorem Positive.atLeast (hx : x.Positive) : x.toExtended.AtLeast (2 ^ (-149 : Int)) := by
  obtain ⟨q, hq, hx⟩ := hx
  obtain ⟨-, rfl, -⟩ := eq_value_of_toExtended hx
  have hpos : 0 < x.magnitude := binary32.value_strictMono.lt_iff_lt.mp (binary32.value_zero ▸ hq)
  exact .inr ⟨_, hx, binary32_value_least ▸ binary32.value_strictMono.monotone hpos⟩

theorem atLeast_add (hx : x.toExtended.AtLeast p) (hy : y.toExtended.AtLeast q) (hp : 0 ≤ p) (hq : 0 ≤ q)
    (hr : binary32.Has r) (hle : r ≤ p + q) : (x + y).toExtended.AtLeast r := by
  rw [toExtended_add]
  exact atLeast_rounded ((Extended.atLeast_add hx hy hp hq).mono hle) hr

theorem atLeast_mul (hx : x.toExtended.AtLeast p) (hy : y.toExtended = .finite false q) (hq : 0 < q)
    (hr : binary32.Has r) (hle : r ≤ p * q) : (x * y).toExtended.AtLeast r := by
  rw [toExtended_mul, hy]
  exact atLeast_rounded ((Extended.atLeast_mul hx hq).mono hle) hr

theorem atLeast_square (hx : x.toExtended = .finite s q) (hr : binary32.Has r) (hle : r ≤ q * q) :
    (x * x).toExtended.AtLeast r := by
  rw [toExtended_mul, hx]
  refine atLeast_rounded (.inr ⟨q * q, ?_, hle⟩) hr
  rw [Extended.mul, Bool.xor_self]

theorem within_mul (hx : x.toExtended.Within p) (hy : y.toExtended.Within q) (hr : binary32.Has r)
    (hle : p * q ≤ r) : (x * y).toExtended.Within r := by
  rw [toExtended_mul]
  exact within_rounded ((Extended.within_mul hx hy).mono hle) hr

theorem atLeast_sqrt (hx : x.toExtended.AtLeast p) (hp : 0 < p) (hr : binary32.Has r) (hle : r ^ 2 ≤ p) :
    x.sqrt.toExtended.AtLeast r := by
  unfold sqrt
  rcases hx with h | ⟨a, h, ha⟩
  · rw [h]
    exact .inl h
  · obtain ⟨n, hn, rfl⟩ := hr
    have hpos : 0 < a := hp.trans_le ha
    rw [h]
    dsimp only
    rw [if_neg hpos.ne', if_neg Bool.false_ne_true]
    exact atLeast_ofMagnitude (binary32.nearestRoot_le_infinity a) (binary32.le_nearestRoot hn.le hpos (hle.trans ha))

theorem div_spec (hx : x.toExtended = .finite false 1) (hy : y.toExtended.AtLeast q) (hq : 0 < q)
    (hr : binary32.Has r) (hle : 1 / q ≤ r) : (x / y).toExtended.AtLeast 0 ∧ (x / y).toExtended.Within r := by
  obtain ⟨hnonneg, hwithin⟩ := one_div_spec hy hq
  rw [toExtended_div, hx]
  exact ⟨atLeast_rounded hnonneg has_zero, within_rounded (hwithin.mono hle) hr⟩

theorem atLeast_foldl {xs : List Single} {a : Single} (hq : binary32.Has q) (hnonneg : 0 ≤ q)
    (hxs : ∀ x ∈ xs, x.toExtended.AtLeast 0) (ha : a.toExtended.AtLeast 0)
    (h : a.toExtended.AtLeast q ∨ ∃ x ∈ xs, x.toExtended.AtLeast q) : (xs.foldl (· + ·) a).toExtended.AtLeast q := by
  induction xs generalizing a with
  | nil => exact h.resolve_right fun ⟨_, hx, _⟩ => absurd hx List.not_mem_nil
  | cons y ys ih =>
    have hy := hxs y List.mem_cons_self
    refine ih (fun x hx => hxs x (List.mem_cons_of_mem y hx))
      (atLeast_add ha hy le_rfl le_rfl has_zero (by norm_num)) ?_
    rcases h with ha' | ⟨x, hx, hxq⟩
    · exact .inl (atLeast_add ha' hy hnonneg le_rfl hq (by rw [add_zero]))
    rcases List.mem_cons.mp hx with rfl | hx
    · exact .inl (atLeast_add ha hxq le_rfl hnonneg hq (by rw [zero_add]))
    · exact .inr ⟨x, hx, hxq⟩

/-- **A sum without negative terms is not below any of them.** -/
theorem atLeast_sum {xs : List Single} (hq : binary32.Has q) (hnonneg : 0 ≤ q)
    (hxs : ∀ x ∈ xs, x.toExtended.AtLeast 0) (h : q = 0 ∨ ∃ x ∈ xs, x.toExtended.AtLeast q) :
    (Single.sum xs).toExtended.AtLeast q := by
  have hzero : Single.zero.toExtended.AtLeast 0 := .inr ⟨_, rfl, binary32.value_nonneg _⟩
  refine atLeast_foldl hq hnonneg hxs hzero (h.imp_left ?_)
  rintro rfl
  exact hzero

end Single

end AxisNorm
