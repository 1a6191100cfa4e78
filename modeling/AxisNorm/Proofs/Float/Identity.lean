import AxisNorm.Proofs.Float.Operations

/-!
# Scaling by one and shifting by zero

A number times one is the number itself, and so is a number plus a zero, but for negative zero plus positive
zero. The results of operations keep their payloads, because these are quiet.

* `Single.isQuiet_mul`: a product that is a NaN is a quiet one.
* `Single.mul_one_of_isQuiet`, `Single.add_zero_of_isQuiet`, `Single.add_negativeZero_of_isQuiet`: **what scaling
  by one and shifting by a zero do to quiet numbers.**
-/

namespace AxisNorm

open Format

namespace Extended

theorem rounded_eq_nan_iff {e : Extended} : e.rounded = .nan ↔ e = .nan := by
  refine ⟨fun h => ?_, fun h => h ▸ rounded_nan⟩
  cases e with
  | nan => rfl
  | infinite s =>
    rw [rounded_infinite] at h
    cases h
  | finite s q =>
    rcases (binary32.nearest_le_infinity q).lt_or_eq with hlt | heq
    · rw [rounded_of_lt hlt] at h
      cases h
    · rw [rounded, Single.round, heq, Single.toExtended_ofMagnitude_infinity] at h
      cases h

end Extended

namespace Single

variable {x : Single}

def negativeZero : Single := ⟨0x80000000⟩

/-- A NaN of which nothing changes when it is made quiet. Any other number is quiet. -/
def IsQuiet (x : Single) : Prop := x.isNaN = true → x.quiet = x

theorem isQuiet_quiet (x : Single) : x.quiet.IsQuiet := fun _ =>
  congrArg mk ((UInt32.or_assoc _ _ _).trans (congrArg _ UInt32.or_self))

theorem isQuiet_round (e : Extended) : (round e).IsQuiet := by
  intro h
  obtain rfl := Extended.rounded_eq_nan_iff.mp (toExtended_eq_nan_iff.mpr h)
  decide

theorem isQuiet_rounded (op : Extended → Extended → Extended) (x y : Single) : (rounded op x y).IsQuiet := by
  unfold rounded
  split
  · exact isQuiet_quiet x
  split
  · exact isQuiet_quiet y
  · exact isQuiet_round _

theorem isQuiet_mul (x y : Single) : (x * y).IsQuiet := isQuiet_rounded .mul x y

/-! ## Values and their numbers -/

theorem isNaN_of_toExtended {s : Bool} {q : Rat} (h : x.toExtended = .finite s q) : x.isNaN = false := by
  rw [← Bool.not_eq_true, ← toExtended_eq_nan_iff, h]
  exact nofun

theorem round_toExtended (hx : x.isNaN = false) : round x.toExtended = x := by
  have hle : x.magnitude ≤ binary32.infinity := not_lt.mp (of_decide_eq_false hx)
  rcases hle.lt_or_eq with hlt | heq
  · rw [toExtended_of_isFinite (decide_eq_true hlt), round, binary32.nearest_value hle,
      ofMagnitude_magnitude]
  · have hinfinite : x.isFinite = false := decide_eq_false (heq ▸ lt_irrefl _)
    rw [toExtended, hx, hinfinite, if_neg Bool.false_ne_true, if_neg Bool.false_ne_true, round, ← heq,
      ofMagnitude_magnitude]

theorem rounded_eq_self {op : Extended → Extended → Extended} {y : Single} (hx : x.IsQuiet) (hy : y.isNaN = false)
    (hop : x.isNaN = false → op x.toExtended y.toExtended = x.toExtended) : rounded op x y = x := by
  unfold rounded
  cases hnan : x.isNaN with
  | true => rw [if_pos rfl, hx hnan]
  | false => rw [if_neg Bool.false_ne_true, hy, if_neg Bool.false_ne_true, hop hnan, round_toExtended hnan]

end Single

/-! ## One and zero -/

namespace Extended

variable {e : Extended}

theorem mul_finite_one (he : e ≠ .nan) : mul e (.finite false 1) = e := by
  cases e with
  | nan => exact absurd rfl he
  | infinite s => simp [mul]
  | finite s q => simp [mul]

theorem add_finite_zero {s t : Bool} {q : Rat} (hq : 0 < q) : add (.finite s q) (.finite t 0) = .finite s q := by
  have hzero : signed t 0 = 0 := by cases t <;> simp [signed]
  rw [add, hzero, add_zero]
  cases s with
  | false => simp [ofRat, signed, hq.ne', hq.le, Rat.abs]
  | true => simp [ofRat, signed, hq.ne', hq, Rat.abs]

/-- The sum of two zeros is negative only if both are. -/
theorem add_zeros (s t : Bool) : add (.finite s 0) (.finite t 0) = .finite (s && t) 0 := by
  cases s <;> cases t <;> simp [add, ofRat, signed]

end Extended

namespace Single

variable {x : Single}

theorem toExtended_zero : zero.toExtended = .finite false 0 := by decide +kernel

theorem toExtended_negativeZero : negativeZero.toExtended = .finite true 0 := by decide +kernel

theorem eq_negativeZero_of_toExtended (h : x.toExtended = .finite true 0) : x = negativeZero := by
  rw [← round_toExtended (isNaN_of_toExtended h), h, ← toExtended_negativeZero]
  exact round_toExtended (by decide)

theorem mul_one_of_isQuiet (hx : x.IsQuiet) : x * one = x :=
  rounded_eq_self hx (by decide) fun hnan => by
    rw [toExtended_one]
    exact Extended.mul_finite_one (mt toExtended_eq_nan_iff.mp (by rw [hnan]; exact Bool.false_ne_true))

theorem add_eq_self {y : Single} {t : Bool} (hx : x.IsQuiet) (hy : y.toExtended = .finite t 0)
    (hzero : ∀ s, x.toExtended = .finite s 0 → (s && t) = s) : x + y = x :=
  rounded_eq_self hx (isNaN_of_toExtended hy) fun hnan => by
    rw [hy]
    cases hvalue : x.toExtended with
    | nan => rfl
    | infinite s => rfl
    | finite s q =>
      rcases (nonneg_of_toExtended hvalue).eq_or_lt with rfl | hq
      · rw [Extended.add_zeros, hzero s hvalue]
      · exact Extended.add_finite_zero hq

theorem add_zero_of_isQuiet (hx : x.IsQuiet) : x + zero = if x = negativeZero then zero else x := by
  split
  · next h =>
    rw [h]
    decide +kernel
  · next h =>
    refine add_eq_self hx toExtended_zero fun s hs => ?_
    cases s with
    | false => rfl
    | true => exact absurd (eq_negativeZero_of_toExtended hs) h

theorem add_negativeZero_of_isQuiet (hx : x.IsQuiet) : x + negativeZero = x :=
  add_eq_self hx toExtended_negativeZero fun s _ => Bool.and_true s

end Single

end AxisNorm
