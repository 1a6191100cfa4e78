import AxisNorm.Float.Format
import Mathlib.Algebra.Order.Field.Power
import Mathlib.Algebra.Order.Floor.Ring
import Mathlib.Data.Rat.Floor
import Mathlib.Order.Monotone.Basic
import Mathlib.Tactic.Linarith
import Mathlib.Tactic.Positivity
import Mathlib.Tactic.Ring

/-!
# Values of a format

* `Format.value_encode`: the value of a significand at an exponent.
* `Format.value_strictMono`: encodings are in the order of their values, `Format.step` apart.
* `Format.below_spec`: **the last encoding whose value does not exceed a positive rational.**
  `Format.belowRoot_spec`: or its root.
-/

namespace AxisNorm

theorem zpow_log2 {n : Nat} (hn : n ≠ 0) :
    (2 : Rat) ^ (n.log2 : Int) ≤ n ∧ (n : Rat) < 2 ^ ((n.log2 : Int) + 1) := by
  constructor
  · exact_mod_cast Nat.log2_self_le hn
  · exact_mod_cast Nat.lt_log2_self (n := n)

/-- The exponents of numerator and denominator give that of the quotient, but for one. -/
theorem zpow_le_div {a b : Nat} (ha : a ≠ 0) (hb : b ≠ 0) :
    (2 : Rat) ^ ((a.log2 : Int) - b.log2 - 1) ≤ (a : Rat) / b ∧
      (a : Rat) / b < 2 ^ ((a.log2 : Int) - b.log2 + 1) := by
  obtain ⟨halow, hahigh⟩ := zpow_log2 ha
  obtain ⟨hblow, hbhigh⟩ := zpow_log2 hb
  have hpos : (0 : Rat) < b := Nat.cast_pos.mpr (Nat.pos_of_ne_zero hb)
  rw [le_div_iff₀ hpos, div_lt_iff₀ hpos]
  constructor
  · calc (2 : Rat) ^ ((a.log2 : Int) - b.log2 - 1) * b
        ≤ 2 ^ ((a.log2 : Int) - b.log2 - 1) * 2 ^ ((b.log2 : Int) + 1) :=
        mul_le_mul_of_nonneg_left hbhigh.le (by positivity)
      _ = 2 ^ (a.log2 : Int) := by
        rw [← zpow_add₀ (by norm_num)]
        congr 1
        ring
      _ ≤ a := halow
  · calc (a : Rat) < 2 ^ ((a.log2 : Int) + 1) := hahigh
      _ = 2 ^ ((a.log2 : Int) - b.log2 + 1) * 2 ^ (b.log2 : Int) := by
        rw [← zpow_add₀ (by norm_num)]
        congr 1
        ring
      _ ≤ 2 ^ ((a.log2 : Int) - b.log2 + 1) * b := mul_le_mul_of_nonneg_left hblow (by positivity)

theorem leadingExponent_spec {q : Rat} (hq : 0 < q) :
    (2 : Rat) ^ leadingExponent q ≤ q ∧ q < 2 ^ (leadingExponent q + 1) := by
  have hnum : q.num.toNat ≠ 0 := by
    have := Rat.num_pos.mpr hq
    omega
  have hquotient : (q.num.toNat : Rat) / q.den = q := by
    have hcast : ((q.num.toNat : Int) : Rat) = (q.num : Rat) := by
      rw [Int.toNat_of_nonneg (Rat.num_nonneg.mpr hq.le)]
    rw [← Int.cast_natCast, hcast, Rat.num_div_den]
  obtain ⟨hlow, hhigh⟩ := zpow_le_div hnum q.den_nz
  rw [hquotient] at hlow hhigh
  unfold leadingExponent
  dsimp only
  split
  · next hle => exact ⟨hle, hhigh⟩
  · next hlt => exact ⟨hlow, by rw [sub_add_cancel]; exact not_le.mp hlt⟩

theorem floor_toNat_spec {q : Rat} (hq : 0 ≤ q) : (q.floor.toNat : Rat) ≤ q ∧ q < (q.floor.toNat + 1 : Nat) := by
  have hfloor : ((q.floor.toNat : Int) : Rat) = q.floor := by
    rw [Int.toNat_of_nonneg (Rat.le_floor_iff.mpr (by exact_mod_cast hq))]
  rw [Int.cast_natCast] at hfloor
  rw [Nat.cast_succ, hfloor]
  exact ⟨Rat.floor_le _, by exact_mod_cast Rat.lt_floor_add_one _⟩

theorem sqrt_floor_spec {q : Rat} (hq : 0 ≤ q) :
    (q.floor.toNat.sqrt : Rat) ^ 2 ≤ q ∧ q < ((q.floor.toNat.sqrt + 1 : Nat) : Rat) ^ 2 := by
  obtain ⟨hle, hlt⟩ := floor_toNat_spec hq
  constructor
  · refine le_trans ?_ hle
    exact_mod_cast Nat.sqrt_le' _
  · refine hlt.trans_le ?_
    exact_mod_cast Nat.succ_le_of_lt (Nat.lt_succ_sqrt' _)

namespace Format

variable (f : Format)

/-- The distance from the value of an encoding to the next. -/
def step (n : Nat) : Rat := 2 ^ (f.minExponent + (n / 2 ^ f.fractionBits - 1 : Nat))

theorem step_pos (n : Nat) : 0 < f.step n := by
  unfold step
  positivity

theorem value_add (e : Nat) {m : Nat} (hm : m < 2 ^ f.fractionBits) :
    f.value (e * 2 ^ f.fractionBits + m) = if e = 0 then (m : Rat) * 2 ^ f.minExponent
      else ((m + 2 ^ f.fractionBits : Nat) : Rat) * 2 ^ (f.minExponent + (e - 1 : Nat)) := by
  have hdiv : (e * 2 ^ f.fractionBits + m) / 2 ^ f.fractionBits = e := by
    rw [Nat.add_comm, Nat.add_mul_div_right _ _ (by positivity), Nat.div_eq_of_lt hm, Nat.zero_add]
  have hmod : (e * 2 ^ f.fractionBits + m) % 2 ^ f.fractionBits = m := by
    rw [Nat.add_comm, Nat.add_mul_mod_self_right, Nat.mod_eq_of_lt hm]
  unfold value
  rw [Nat.shiftRight_eq_div_pow, Nat.one_shiftLeft, hdiv, hmod]

/-- The value of a significand at an exponent: it has its hidden bit unless the exponent is the
smallest, and it may be the first that is too large. -/
theorem value_encode {e s : Nat} (hs : s ≤ 2 ^ (f.fractionBits + 1)) (he : e = 0 ∨ 2 ^ f.fractionBits ≤ s) :
    f.value (e * 2 ^ f.fractionBits + s) = s * 2 ^ (f.minExponent + e) := by
  rw [Nat.pow_succ] at hs
  rcases Nat.lt_or_ge s (2 ^ f.fractionBits) with hlow | hlow
  · obtain rfl := he.resolve_right (Nat.not_le.mpr hlow)
    rw [value_add f 0 hlow, if_pos rfl, Nat.cast_zero, add_zero]
  rcases Nat.lt_or_ge s (2 ^ f.fractionBits * 2) with hlt | hge
  · obtain ⟨m, rfl⟩ := Nat.exists_eq_add_of_le hlow
    have hm : m < 2 ^ f.fractionBits := by omega
    have hn : e * 2 ^ f.fractionBits + (2 ^ f.fractionBits + m) = (e + 1) * 2 ^ f.fractionBits + m := by
      rw [Nat.succ_mul, Nat.add_assoc]
    rw [hn, value_add f (e + 1) hm, if_neg (Nat.succ_ne_zero e), Nat.add_sub_cancel, Nat.add_comm m]
  · obtain rfl := Nat.le_antisymm hs hge
    have hn : e * 2 ^ f.fractionBits + 2 ^ f.fractionBits * 2 = (e + 2) * 2 ^ f.fractionBits + 0 := by ring
    rw [hn, value_add f (e + 2) (by positivity), if_neg (by omega)]
    have hexponent : f.minExponent + (e + 2 - 1 : Nat) = f.minExponent + e + 1 := by push_cast; ring
    rw [hexponent, zpow_add_one₀ (by norm_num)]
    push_cast
    ring

theorem exists_encode (n : Nat) : ∃ s < 2 ^ (f.fractionBits + 1),
    n = (n / 2 ^ f.fractionBits - 1) * 2 ^ f.fractionBits + s ∧
      (n / 2 ^ f.fractionBits - 1 = 0 ∨ 2 ^ f.fractionBits ≤ s) := by
  have hdiv := Nat.div_add_mod' n (2 ^ f.fractionBits)
  have hmod : n % 2 ^ f.fractionBits < 2 ^ f.fractionBits := Nat.mod_lt n (by positivity)
  rw [Nat.pow_succ]
  cases he : n / 2 ^ f.fractionBits with
  | zero =>
    rw [he, Nat.zero_mul, Nat.zero_add] at hdiv
    exact ⟨n, by omega, by simp, .inl rfl⟩
  | succ e =>
    rw [he, Nat.succ_mul] at hdiv
    exact ⟨2 ^ f.fractionBits + n % 2 ^ f.fractionBits, by omega, by rw [Nat.add_sub_cancel]; omega,
      .inr (Nat.le_add_right _ _)⟩

theorem value_succ (n : Nat) : f.value (n + 1) = f.value n + f.step n := by
  obtain ⟨s, hs, hn, he⟩ := f.exists_encode n
  have hvalue := f.value_encode hs.le he
  have hsucc := f.value_encode (s := s + 1) hs (he.imp_right fun h => h.trans (Nat.le_succ s))
  rw [← hn] at hvalue
  rw [← Nat.add_assoc, ← hn] at hsucc
  rw [hvalue, hsucc, step]
  push_cast
  ring

theorem value_strictMono : StrictMono f.value :=
  strictMono_nat_of_lt_succ fun n => by
    rw [value_succ]
    exact lt_add_of_pos_right _ (f.step_pos n)

theorem value_zero : f.value 0 = 0 := by
  have h := f.value_encode (e := 0) (s := 0) (Nat.zero_le _) (.inl rfl)
  simpa using h

theorem value_mul_pow (e : Nat) :
    f.value ((e + 1) * 2 ^ f.fractionBits) = 2 ^ (f.minExponent + f.fractionBits + e) := by
  have h := f.value_encode (e := e)
    (s := 2 ^ f.fractionBits) (Nat.pow_le_pow_right Nat.two_pos (Nat.le_succ _))
    (.inr le_rfl)
  rw [Nat.succ_mul, h, Nat.cast_pow, Nat.cast_ofNat, ← zpow_natCast, ← zpow_add₀ (by norm_num)]
  congr 1
  ring

theorem value_nonneg (n : Nat) : 0 ≤ f.value n :=
  f.value_zero ▸ f.value_strictMono.monotone (Nat.zero_le n)

theorem step_mul_le {n : Nat} (hn : 2 ^ f.fractionBits ≤ n) : f.step n * 2 ^ f.fractionBits ≤ f.value n := by
  obtain ⟨s, hs, hsum, he⟩ := f.exists_encode n
  have hvalue := f.value_encode hs.le he
  rw [← hsum] at hvalue
  have hs' : 2 ^ f.fractionBits ≤ s := by
    rcases he with he | he
    · rw [he, Nat.zero_mul, Nat.zero_add] at hsum
      exact hsum ▸ hn
    · exact he
  rw [hvalue, step, mul_comm]
  exact mul_le_mul_of_nonneg_right (by exact_mod_cast hs') (by positivity)

theorem zpow_succ_le_lastExponent (l : Int) :
    (2 : Rat) ^ (l + 1) ≤ 2 ^ (f.fractionBits + 1) * 2 ^ f.lastExponent l := by
  have hexponent : l + 1 ≤ ((f.fractionBits + 1 : Nat) : Int) + f.lastExponent l := by
    have := le_max_right f.minExponent (l - f.fractionBits)
    unfold lastExponent
    omega
  rw [← zpow_natCast, ← zpow_add₀ (by norm_num)]
  exact zpow_le_zpow_right₀ (by norm_num) hexponent

theorem zpow_eq_lastExponent {l : Int} (h : f.minExponent < f.lastExponent l) :
    (2 : Rat) ^ l = 2 ^ f.fractionBits * 2 ^ f.lastExponent l := by
  have hexponent : l = (f.fractionBits : Int) + f.lastExponent l := by
    unfold lastExponent at h ⊢
    omega
  rw [← zpow_natCast, ← zpow_add₀ (by norm_num), ← hexponent]

theorem value_encode_lastExponent {l : Int} {s : Nat} (hlow : (2 : Rat) ^ l < (s + 1 : Nat) * 2 ^ f.lastExponent l)
    (hhigh : (s : Rat) * 2 ^ f.lastExponent l < 2 ^ (l + 1)) :
    f.value (f.encode (f.lastExponent l) s) = s * 2 ^ f.lastExponent l ∧
      f.value (f.encode (f.lastExponent l) s + 1) = (s + 1 : Nat) * 2 ^ f.lastExponent l := by
  obtain ⟨e, he⟩ : ∃ e : Nat, f.lastExponent l = f.minExponent + e :=
    Int.le.dest (le_max_left f.minExponent (l - f.fractionBits)) |>.imp fun e he => he.symm
  have hpos : (0 : Rat) < 2 ^ f.lastExponent l := by positivity
  -- The significand has `precision` bits at most, and it has its hidden bit above the smallest exponent.
  have hbits : s < 2 ^ (f.fractionBits + 1) := by
    have hpower := hhigh.trans_le (f.zpow_succ_le_lastExponent l)
    exact_mod_cast lt_of_mul_lt_mul_right hpower hpos.le
  have hhidden : e = 0 ∨ 2 ^ f.fractionBits ≤ s := by
    refine (Nat.eq_zero_or_pos e).imp_right fun hepos => Nat.lt_succ_iff.mp ?_
    rw [f.zpow_eq_lastExponent (by omega)] at hlow
    exact_mod_cast lt_of_mul_lt_mul_right hlow hpos.le
  have hencode : f.encode (f.lastExponent l) s = e * 2 ^ f.fractionBits + s := by
    rw [encode, he, add_sub_cancel_left, Int.toNat_natCast, Nat.shiftLeft_eq]
  rw [hencode, Nat.add_assoc, f.value_encode hbits.le hhidden,
    f.value_encode hbits (hhidden.imp_right fun h => h.trans (Nat.le_succ s)), ← he]
  exact ⟨rfl, rfl⟩

/-- **The last encoding whose value does not exceed a positive rational.** -/
theorem below_spec {q : Rat} (hq : 0 < q) : f.value (f.below q) ≤ q ∧ q < f.value (f.below q + 1) := by
  obtain ⟨hlow, hhigh⟩ := leadingExponent_spec hq
  unfold below
  dsimp only
  generalize leadingExponent q = l at hlow hhigh
  have hpos : (0 : Rat) < 2 ^ f.lastExponent l := by positivity
  obtain ⟨hle, hlt⟩ := floor_toNat_spec (div_nonneg hq.le hpos.le)
  rw [le_div_iff₀ hpos] at hle
  rw [div_lt_iff₀ hpos] at hlt
  obtain ⟨hvalue, hsucc⟩ := f.value_encode_lastExponent (hlow.trans_lt hlt) (hle.trans_lt hhigh)
  rw [hvalue, hsucc]
  exact ⟨hle, hlt⟩

/-- **The last encoding whose value does not exceed the root of a positive rational.** -/
theorem belowRoot_spec {q : Rat} (hq : 0 < q) :
    f.value (f.belowRoot q) ^ 2 ≤ q ∧ q < f.value (f.belowRoot q + 1) ^ 2 := by
  obtain ⟨hlow, hhigh⟩ := leadingExponent_spec hq
  unfold belowRoot
  dsimp only
  generalize leadingExponent q = l at hlow hhigh
  generalize hh : l.fdiv 2 = h
  have hl : 2 * h ≤ l ∧ l + 1 ≤ 2 * (h + 1) := by
    rw [Int.fdiv_eq_ediv_of_nonneg l (by norm_num)] at hh
    omega
  have hsquare (k : Int) : (2 : Rat) ^ (2 * k) = (2 ^ k) ^ 2 := by
    rw [mul_comm, zpow_mul]
    rfl
  rw [hsquare]
  have hscale : (0 : Rat) < (2 ^ f.lastExponent h) ^ 2 := by positivity
  obtain ⟨hroot, hnext⟩ := sqrt_floor_spec (div_nonneg hq.le hscale.le)
  rw [le_div_iff₀ hscale, ← mul_pow] at hroot
  rw [div_lt_iff₀ hscale, ← mul_pow] at hnext
  generalize (q / (2 ^ f.lastExponent h) ^ 2).floor.toNat.sqrt = s at hroot hnext
  have hleast : (2 : Rat) ^ h < (s + 1 : Nat) * 2 ^ f.lastExponent h := by
    refine lt_of_pow_lt_pow_left₀ 2 (by positivity) (lt_of_le_of_lt ?_ hnext)
    rw [← hsquare]
    exact (zpow_le_zpow_right₀ (by norm_num) hl.1).trans hlow
  have hmost : (s : Rat) * 2 ^ f.lastExponent h < 2 ^ (h + 1) := by
    refine lt_of_pow_lt_pow_left₀ 2 (by positivity) (hroot.trans_lt (hhigh.trans_le ?_))
    rw [← hsquare]
    exact zpow_le_zpow_right₀ (by norm_num) hl.2
  obtain ⟨hvalue, hsucc⟩ := f.value_encode_lastExponent hleast hmost
  rw [hvalue, hsucc]
  exact ⟨hroot, hnext⟩

end Format

end AxisNorm
