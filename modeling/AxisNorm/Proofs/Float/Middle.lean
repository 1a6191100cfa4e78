import AxisNorm.Proofs.Float.Nearest
import AxisNorm.Proofs.Float.Single

/-!
# The nearest number, and the middles between neighbours

* `Format.lt_nearest_iff`: rounding goes past an encoding exactly past the middle between it and the next,
  or in the middle if it is odd.
* `Format.IsNearest`, `Single.IsNearest`: a number is nearest to a rational, said of the distances alone.
* `Single.isNearest_iff`: **rounding gives the nearest number, and no other number is nearest.**
-/

namespace AxisNorm

namespace Format

variable (f : Format) {m n : Nat} {p q : Rat}

/-- The middle between the value of an encoding and the next value. -/
def middle (n : Nat) : Rat := (f.value n + f.value (n + 1)) / 2

theorem value_lt_middle (n : Nat) : f.value n < f.middle n := by
  have hlt := f.value_strictMono (Nat.lt_succ_self n)
  unfold middle
  linarith

theorem middle_lt_value (n : Nat) : f.middle n < f.value (n + 1) := by
  have hlt := f.value_strictMono (Nat.lt_succ_self n)
  unfold middle
  linarith

theorem middle_encode {e s : Nat} (hs : s < 2 ^ (f.fractionBits + 1)) (he : e = 0 ∨ 2 ^ f.fractionBits ≤ s) :
    f.middle (e * 2 ^ f.fractionBits + s) = (2 * s + 1) * 2 ^ (f.minExponent + e - 1) := by
  have hsucc := f.value_encode (s := s + 1) hs (he.imp_right fun h => h.trans (Nat.le_succ s))
  rw [middle, Nat.add_assoc, hsucc, f.value_encode hs.le he, zpow_sub_one₀ (by norm_num)]
  push_cast
  ring

/-- Rounding goes past an encoding exactly past the middle between it and the next, or in the middle if the
next one is even. -/
theorem lt_nearest_iff (hm : m < f.infinity) (hq : 0 ≤ q) :
    m < f.nearest q ↔ f.middle m < q ∨ f.middle m = q ∧ m % 2 = 1 := by
  have hlow := f.value_lt_middle m
  have hhigh := f.middle_lt_value m
  have hnonneg := f.value_nonneg m
  rcases hq.eq_or_lt with rfl | hq
  · rw [nearest_zero]
    constructor
    · intro h
      omega
    · rintro (h | ⟨h, -⟩) <;> linarith
  obtain ⟨hbelow, habove⟩ := f.below_spec hq
  rw [nearest_of_pos f hq, lt_min_iff]
  have hcases : m < nearerOf (f.below q) (2 * q) (f.value (f.below q) + f.value (f.below q + 1)) ↔
      f.middle m < q ∨ f.middle m = q ∧ m % 2 = 1 := by
    rcases Nat.lt_trichotomy m (f.below q) with hlt | rfl | hgt
    · have hle : f.value (m + 1) ≤ f.value (f.below q) := f.value_strictMono.monotone hlt
      have hpast := le_nearerOf (f.below q) (2 * q) (f.value (f.below q) + f.value (f.below q + 1))
      exact iff_of_true (by omega) (.inl (by linarith))
    · unfold nearerOf middle
      split
      · next h =>
        refine iff_of_false (by omega) ?_
        rintro (h' | ⟨h', -⟩) <;> linarith
      split
      · next h => exact iff_of_true (by omega) (.inl (by linarith))
      · next hle hge =>
        have heq : (f.value (f.below q) + f.value (f.below q + 1)) / 2 = q := by linarith
        constructor
        · intro h
          exact .inr ⟨heq, by omega⟩
        · rintro (h | ⟨-, h⟩)
          · linarith
          · omega
    · have hle : f.value (f.below q + 1) ≤ f.value m := f.value_strictMono.monotone hgt
      have hshort := nearerOf_le (f.below q) (2 * q) (f.value (f.below q) + f.value (f.below q + 1))
      refine iff_of_false (by omega) ?_
      rintro (h | ⟨h, -⟩) <;> linarith
  rw [hcases]
  exact and_iff_left hm

theorem nearest_lt_infinity_iff (hodd : (f.infinity - 1) % 2 = 1) (hq : 0 ≤ q) :
    f.nearest q < f.infinity ↔ q < f.middle (f.infinity - 1) := by
  have hlast := f.lt_nearest_iff (m := f.infinity - 1) (q := q) (by omega) hq
  rw [and_iff_left hodd, ← le_iff_lt_or_eq] at hlast
  have hle := f.nearest_le_infinity q
  rw [← not_iff_not, not_lt, not_lt, ← hlast]
  omega

/-! ## Rounding what is close -/

theorem value_succ_le (n : Nat) : f.value (n + 1) ≤ f.step n * 2 ^ (f.fractionBits + 1) := by
  obtain ⟨s, hs, hn, he⟩ := f.exists_encode n
  have hsucc := f.value_encode (s := s + 1) hs (he.imp_right fun h => h.trans (Nat.le_succ s))
  rw [← Nat.add_assoc, ← hn] at hsucc
  rw [hsucc, step, mul_comm]
  exact mul_le_mul_of_nonneg_left (by exact_mod_cast hs) (by positivity)

theorem le_nearest_of_close (hq : 0 ≤ q) (hm : m ≤ f.infinity)
    (hclose : |q - p| * 2 ^ (f.fractionBits + 3) ≤ p) (hmp : f.value m ≤ p) : m ≤ f.nearest q := by
  by_contra hlt
  have hlt : f.nearest q < m := Nat.lt_of_not_le hlt
  generalize hn : f.nearest q = n at hlt
  have hmiddle : q ≤ f.middle n := by
    have hshort := (f.lt_nearest_iff (m := n) (hlt.trans_le hm) hq).not.mp (by omega)
    push Not at hshort
    exact hshort.1
  have hnext : f.value (n + 1) ≤ p := (f.value_strictMono.monotone hlt).trans hmp
  have hstep := f.value_succ n
  have hpos := f.step_pos n
  have hsize := f.value_succ_le n
  have hbits : (1 : Rat) ≤ 2 ^ (f.fractionBits + 1) := one_le_pow₀ (by norm_num)
  have hdistance : p - f.value (n + 1) + f.step n / 2 ≤ |q - p| := by
    rw [abs_sub_comm]
    refine le_trans ?_ (le_abs_self _)
    unfold middle at hmiddle
    linarith
  rw [show f.fractionBits + 3 = f.fractionBits + 1 + 2 from rfl, pow_add] at hclose
  generalize (2 : Rat) ^ (f.fractionBits + 1) = b at hclose hsize hbits
  nlinarith

theorem nearest_le_of_close (hq : 0 ≤ q) (hm : m < f.infinity)
    (hclose : |q - p| * 2 ^ (f.fractionBits + 3) ≤ p) (hpm : p ≤ f.value m) : f.nearest q ≤ m := by
  by_contra hlt
  have hmiddle : f.middle m ≤ q := by
    rcases (f.lt_nearest_iff hm hq).mp (Nat.lt_of_not_le hlt) with h | ⟨h, -⟩
    · exact h.le
    · exact h.le
  have hstep := f.value_succ m
  have hpos := f.step_pos m
  have hsize := f.value_succ_le m
  have hbits : (1 : Rat) ≤ 2 ^ (f.fractionBits + 1) := one_le_pow₀ (by norm_num)
  have hdistance : f.step m / 2 ≤ |q - p| := by
    refine le_trans ?_ (le_abs_self _)
    unfold middle at hmiddle
    linarith
  rw [show f.fractionBits + 3 = f.fractionBits + 1 + 2 from rfl, pow_add] at hclose
  generalize (2 : Rat) ^ (f.fractionBits + 1) = b at hclose hsize hbits
  nlinarith

/-! ## The nearest encoding -/

/-- The encoding is finite, none is closer to `q`, and it is even if another one is as close. -/
structure IsNearest (n : Nat) (q : Rat) : Prop where
  finite : n < f.infinity
  least : ∀ m < f.infinity, |f.value n - q| ≤ |f.value m - q|
  even : ∀ m < f.infinity, m ≠ n → |f.value n - q| = |f.value m - q| → n % 2 = 0

theorem abs_sub_le_iff_of_lt {a b : Rat} (hab : a < b) : |b - q| ≤ |a - q| ↔ a + b ≤ 2 * q := by
  rw [← sq_le_sq]
  constructor <;> intro h <;> nlinarith

theorem abs_sub_le_iff_of_gt {a b : Rat} (hab : a < b) : |a - q| ≤ |b - q| ↔ 2 * q ≤ a + b := by
  rw [← sq_le_sq]
  constructor <;> intro h <;> nlinarith

theorem isNearest_nearest (hq : 0 ≤ q) (hfinite : f.nearest q < f.infinity) :
    f.IsNearest (f.nearest q) q := by
  generalize hn : f.nearest q = n at hfinite
  -- Below `n` the middle before it is decisive, and above `n` the one after it.
  have hbelow (m : Nat) (hm : m < n) : f.value m + f.value n ≤ 2 * q ∧
      (f.value m + f.value n = 2 * q → n % 2 = 0) := by
    obtain ⟨p, rfl⟩ : ∃ p, n = p + 1 := Nat.exists_eq_succ_of_ne_zero (by omega)
    have hpast := (f.lt_nearest_iff (m := p) (by omega) hq).mp (by omega)
    have hle : f.value m ≤ f.value p := f.value_strictMono.monotone (Nat.le_of_lt_succ hm)
    unfold middle at hpast
    constructor
    · rcases hpast with h | ⟨h, -⟩ <;> linarith
    · intro heq
      rcases hpast with h | ⟨-, h⟩
      · linarith
      · omega
  have habove (m : Nat) (hm : n < m) : 2 * q ≤ f.value n + f.value m ∧
      (2 * q = f.value n + f.value m → n % 2 = 0) := by
    have hshort := (f.lt_nearest_iff (m := n) hfinite hq).not.mp (by omega)
    have hle : f.value (n + 1) ≤ f.value m := f.value_strictMono.monotone hm
    unfold middle at hshort
    push Not at hshort
    obtain ⟨hmiddle, htie⟩ := hshort
    constructor
    · linarith
    · intro heq
      have := htie (by linarith)
      omega
  constructor
  case finite => exact hfinite
  case least =>
    intro m _
    rcases Nat.lt_trichotomy m n with hm | rfl | hm
    · exact (abs_sub_le_iff_of_lt (f.value_strictMono hm)).mpr (hbelow m hm).1
    · exact le_refl _
    · exact (abs_sub_le_iff_of_gt (f.value_strictMono hm)).mpr (habove m hm).1
  case even =>
    intro m _ hne heq
    rcases Nat.lt_or_gt_of_ne hne with hm | hm
    · have hge := (abs_sub_le_iff_of_gt (f.value_strictMono hm)).mp heq.ge
      exact (hbelow m hm).2 (le_antisymm (hbelow m hm).1 hge)
    · have hge := (abs_sub_le_iff_of_lt (f.value_strictMono hm)).mp heq.ge
      exact (habove m hm).2 (le_antisymm (habove m hm).1 hge)

theorem IsNearest.le {n n' : Nat} (h : f.IsNearest n q) (h' : f.IsNearest n' q) : n' ≤ n := by
  by_contra hlt
  have hlt : n < n' := Nat.lt_of_not_le hlt
  have heq : |f.value n - q| = |f.value n' - q| := le_antisymm (h.least n' h'.finite) (h'.least n h.finite)
  have hle := (abs_sub_le_iff_of_lt (f.value_strictMono hlt)).mp heq.ge
  -- They are neighbours, since an encoding between them would be closer; one of them is odd.
  have hnext : n' = n + 1 := by
    by_contra hne
    have hbetween : f.value (n + 1) < f.value n' := f.value_strictMono (by omega)
    have hge := (abs_sub_le_iff_of_gt (f.value_strictMono (Nat.lt_succ_self n))).mp
      (h.least (n + 1) (by have := h'.finite; omega))
    linarith
  have heven := h.even n' h'.finite hlt.ne' heq
  have heven' := h'.even n h.finite hlt.ne heq.symm
  omega

theorem isNearest_iff (hq : 0 ≤ q) (hfinite : f.nearest q < f.infinity) :
    f.IsNearest n q ↔ n = f.nearest q := by
  have hnearest := f.isNearest_nearest hq hfinite
  constructor
  · intro h
    exact Nat.le_antisymm (hnearest.le f h) (h.le f hnearest)
  · rintro rfl
    exact hnearest

end Format

/-! ## The nearest number -/

namespace Single

open Format

variable {x : Single} {n : Nat} {q : Rat}

/-- The value of a finite number. -/
def value (x : Single) : Rat := Extended.signed x.isNegative (binary32.value x.magnitude)

/-- The number is finite, none is closer to `q`, and its bits are even if another one is as close. -/
structure IsNearest (x : Single) (q : Rat) : Prop where
  finite : x.isFinite = true
  least : ∀ y : Single, y.isFinite = true → |x.value - q| ≤ |y.value - q|
  even : ∀ y : Single, y.isFinite = true → y.value ≠ x.value → |x.value - q| = |y.value - q| →
    x.bits.toNat % 2 = 0

/-- The number is finite, and no finite number lies between it and `q`, `q` included: it is `q` itself or one
of its two neighbours. -/
structure IsFaithful (x : Single) (q : Rat) : Prop where
  finite : x.isFinite = true
  below : ∀ y : Single, y.isFinite = true → y.value ≤ q → y.value ≤ x.value
  above : ∀ y : Single, y.isFinite = true → q ≤ y.value → x.value ≤ y.value

theorem value_of_nonnegative (hx : x.isNegative = false) : x.value = binary32.value x.magnitude := by
  rw [value, hx]
  rfl

theorem value_ofMagnitude (hn : n < binary32.infinity) : (ofMagnitude false n).value = binary32.value n := by
  rw [value_of_nonnegative (isNegative_ofMagnitude hn.le), magnitude_ofMagnitude hn.le]

theorem value_of_negative (hx : x.isNegative = true) : x.value = -binary32.value x.magnitude := by
  rw [value, hx]
  rfl

theorem le_abs_value_sub (hx : x.isNegative = true) (hq : 0 ≤ q) :
    |binary32.value 0 - q| ≤ |x.value - q| := by
  have hnonneg := binary32.value_nonneg x.magnitude
  rw [value_of_negative hx, value_zero, abs_of_nonpos (by linarith), abs_of_nonpos (by linarith)]
  linarith

theorem bits_mod_two (x : Single) : x.bits.toNat % 2 = x.magnitude % 2 := by
  unfold magnitude
  omega

/-- The signs play no part: the encoding of the nearest number is the nearest one. -/
theorem isNearest_ofMagnitude (hq : 0 ≤ q) (hpos : 0 < n) (h : binary32.IsNearest n q) :
    (ofMagnitude false n).IsNearest q := by
  have hzero : 0 < binary32.infinity := hpos.trans h.finite
  constructor
  case finite => exact isFinite_ofMagnitude h.finite
  case least =>
    intro y hy
    rw [value_ofMagnitude h.finite]
    cases hsign : y.isNegative with
    | false =>
      rw [value_of_nonnegative hsign]
      exact h.least _ (of_decide_eq_true hy)
    | true => exact (h.least 0 hzero).trans (le_abs_value_sub hsign hq)
  case even =>
    intro y hy hne heq
    rw [value_ofMagnitude h.finite] at hne heq
    rw [bits_mod_two, magnitude_ofMagnitude h.finite.le]
    cases hsign : y.isNegative with
    | false =>
      rw [value_of_nonnegative hsign] at hne heq
      exact h.even _ (of_decide_eq_true hy) (fun hmagnitude => hne (by rw [hmagnitude])) heq
    | true =>
      have hle := heq ▸ le_abs_value_sub hsign hq
      exact h.even 0 hzero hpos.ne (le_antisymm (h.least 0 hzero) hle)

/-- **Rounding gives the nearest number, and no other number is nearest.** -/
theorem isNearest_iff (hq : 0 ≤ q) (hpos : 0 < binary32.nearest q)
    (hfinite : binary32.nearest q < binary32.infinity) :
    x.IsNearest q ↔ x = ofMagnitude false (binary32.nearest q) := by
  constructor
  · intro h
    have hleast (m : Nat) (hm : m < binary32.infinity) : |x.value - q| ≤ |binary32.value m - q| := by
      have hle := h.least (ofMagnitude false m) (isFinite_ofMagnitude hm)
      rwa [value_ofMagnitude hm] at hle
    cases hsign : x.isNegative with
    | false =>
      have hvalue := value_of_nonnegative hsign
      have hnearest : binary32.IsNearest x.magnitude q := by
        constructor
        case finite => exact of_decide_eq_true h.finite
        case least => exact hvalue ▸ hleast
        case even =>
          intro m hm hne heq
          rw [← bits_mod_two]
          refine h.even (ofMagnitude false m) (isFinite_ofMagnitude hm) ?_ ?_
          · rw [value_ofMagnitude hm, hvalue]
            exact fun heq => hne (binary32.value_strictMono.injective heq)
          · rw [value_ofMagnitude hm, hvalue, heq]
      rw [← (binary32.isNearest_iff hq hfinite).mp hnearest, ← hsign, ofMagnitude_magnitude]
    | true =>
      have hnearest : binary32.IsNearest 0 q :=
        ⟨hpos.trans hfinite, fun m hm => (le_abs_value_sub hsign hq).trans (hleast m hm), fun _ _ _ _ => rfl⟩
      exact absurd ((binary32.isNearest_iff hq hfinite).mp hnearest) hpos.ne
  · rintro rfl
    exact isNearest_ofMagnitude hq hpos (binary32.isNearest_nearest hq hfinite)

theorem isFaithful_ofMagnitude {p : Rat} (hp : 0 < p) (hq : 0 ≤ q) (hfinite : binary32.nearest q < binary32.infinity)
    (hclose : |q - p| * 2 ^ 26 ≤ p) : (ofMagnitude false (binary32.nearest q)).IsFaithful p := by
  constructor
  case finite => exact isFinite_ofMagnitude hfinite
  case below =>
    intro y hy hle
    rw [value_ofMagnitude hfinite]
    cases hsign : y.isNegative with
    | false =>
      rw [value_of_nonnegative hsign] at hle ⊢
      have hmagnitude := binary32.le_nearest_of_close hq (of_decide_eq_true hy).le hclose hle
      exact binary32.value_strictMono.monotone hmagnitude
    | true =>
      rw [value_of_negative hsign]
      exact (neg_nonpos.mpr (binary32.value_nonneg _)).trans (binary32.value_nonneg _)
  case above =>
    intro y hy hle
    rw [value_ofMagnitude hfinite]
    cases hsign : y.isNegative with
    | false =>
      rw [value_of_nonnegative hsign] at hle ⊢
      have hmagnitude := binary32.nearest_le_of_close hq (of_decide_eq_true hy) hclose hle
      exact binary32.value_strictMono.monotone hmagnitude
    | true =>
      rw [value_of_negative hsign] at hle
      exact absurd (hp.trans_le hle) (not_lt.mpr (neg_nonpos.mpr (binary32.value_nonneg _)))

end Single

end AxisNorm
