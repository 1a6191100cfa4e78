import AxisNorm.Normalization.Group
import AxisNorm.Proofs.Float.Nearest
import AxisNorm.Proofs.Float.Single

/-!
# What operations do to values

An operation on single-precision numbers is exact arithmetic on their values, rounded once. What has no
finite value stays without one.

* `Extended.rounded`: an extended number rounded to single precision.
* `Single.toExtended_add`, `Single.toExtended_sub`, `Single.toExtended_mul`, `Single.toExtended_div`: the
  value of a result is the rounded result of the exact operation, whatever payloads the operands have.
* `Single.not_isFinite_sum`: **a sum with a term that is not finite is not finite.**
* `Single.isNaN_mul_of_not_isFinite`: what is not finite, times zero, has no value.
-/

namespace AxisNorm

open Format

namespace Extended

/-- An extended number rounded to single precision. -/
def rounded (e : Extended) : Extended := (Single.round e).toExtended

/-- The number is neither infinite nor without a value. -/
def IsFinite : Extended → Prop
  | .finite _ _ => True
  | _ => False

end Extended

namespace Single

variable {x y : Single} {n : Nat}

/-! ## Kinds of numbers -/

theorem toExtended_eq_nan_iff : x.toExtended = .nan ↔ x.isNaN = true := by
  unfold toExtended
  split
  · simp [*]
  · split <;> simp [*]

theorem isFinite_iff : x.isFinite = true ↔ x.toExtended.IsFinite := by
  constructor
  · intro h
    rw [toExtended_of_isFinite h]
    trivial
  · intro h
    unfold toExtended at h
    split at h
    · exact h.elim
    · split at h
      · assumption
      · exact h.elim

theorem eq_value_of_toExtended {s : Bool} {q : Rat} (h : x.toExtended = .finite s q) :
    s = x.isNegative ∧ q = binary32.value x.magnitude ∧ x.magnitude < binary32.infinity := by
  have hfinite : x.isFinite = true := isFinite_iff.mpr (h ▸ trivial)
  rw [toExtended_of_isFinite hfinite] at h
  cases h
  exact ⟨rfl, rfl, of_decide_eq_true hfinite⟩

theorem nonneg_of_toExtended {s : Bool} {q : Rat} (h : x.toExtended = .finite s q) : 0 ≤ q :=
  (eq_value_of_toExtended h).2.1 ▸ binary32.value_nonneg _

end Single

/-! ## Rounding -/

namespace Extended

open Single

variable {s : Bool} {q : Rat}

@[simp] theorem rounded_nan : rounded .nan = .nan := toExtended_eq_nan_iff.mpr (by decide)

@[simp] theorem rounded_infinite (s : Bool) : rounded (.infinite s) = .infinite s :=
  toExtended_ofMagnitude_infinity s

theorem rounded_of_lt (h : binary32.nearest q < binary32.infinity) :
    rounded (.finite s q) = .finite s (binary32.value (binary32.nearest q)) := toExtended_ofMagnitude h

@[simp] theorem rounded_zero (s : Bool) : rounded (.finite s 0) = .finite s 0 := by
  have hzero : binary32.nearest 0 = 0 := binary32.nearest_zero
  rw [rounded_of_lt (by rw [hzero]; decide), hzero, value_zero]

theorem not_isFinite_rounded {e : Extended} (h : ¬ e.IsFinite) : ¬ e.rounded.IsFinite := by
  cases e with
  | nan => rwa [rounded_nan]
  | infinite s => rwa [rounded_infinite]
  | finite s q => exact absurd trivial h

/-! ### Without a finite value -/

section

variable {d e : Extended}

theorem not_isFinite_add (h : ¬ d.IsFinite ∨ ¬ e.IsFinite) : ¬ (add d e).IsFinite := by
  cases d with
  | nan => exact id
  | finite s q =>
    cases e with
    | finite t r => exact absurd trivial (h.resolve_left (not_not_intro trivial))
    | _ => exact id
  | infinite s =>
    cases e with
    | infinite t =>
      rw [add]
      split <;> exact id
    | _ => exact id

theorem not_isFinite_neg (h : ¬ e.IsFinite) : ¬ (neg e).IsFinite := by
  cases e <;> exact h

theorem not_isFinite_mul (h : ¬ d.IsFinite) (he : ∀ s, e ≠ .finite s 0) : ¬ (mul d e).IsFinite := by
  cases d with
  | nan => simp [mul, IsFinite]
  | finite s q => exact absurd trivial h
  | infinite s =>
    cases e with
    | finite t q =>
      have hq : q ≠ 0 := fun hq => he t (hq ▸ rfl)
      simp [mul, IsFinite, hq]
    | _ => simp [mul, IsFinite]

theorem mul_eq_nan (h : ¬ d.IsFinite) (he : e = .nan ∨ ∃ s, e = .finite s 0) : mul d e = .nan := by
  rcases he with rfl | ⟨s, rfl⟩
  · cases d <;> rfl
  · cases d with
    | finite t q => exact absurd trivial h
    | _ => simp [mul]

theorem div_of_not_isFinite (hd : d.IsFinite) (h : ¬ e.IsFinite) : div d e = .nan ∨ ∃ s, div d e = .finite s 0 := by
  cases d with
  | finite s q =>
    cases e with
    | nan => exact .inl rfl
    | infinite t => exact .inr ⟨_, rfl⟩
    | finite t r => exact absurd trivial h
  | _ => exact hd.elim

end

end Extended

/-! ## Operations -/

namespace Single

open Extended

variable {x y : Single}

theorem isNaN_quiet (h : x.isNaN = true) : x.quiet.isNaN = true := by
  have hle : x.magnitude ≤ x.quiet.magnitude := by
    unfold magnitude quiet
    rw [UInt32.toNat_or, show (0x80000000 : Nat) = 2 ^ 31 from rfl, Nat.or_mod_two_pow]
    exact Nat.left_le_or
  exact decide_eq_true ((of_decide_eq_true h).trans_le hle)

/-- The value of a result, for an operation that has no value where an operand has none. -/
theorem toExtended_rounded {op : Extended → Extended → Extended} (hleft : ∀ e, op .nan e = .nan)
    (hright : ∀ e, op e .nan = .nan) (x y : Single) :
    (Single.rounded op x y).toExtended = (op x.toExtended y.toExtended).rounded := by
  unfold Single.rounded
  split
  · next hx =>
    rw [toExtended_eq_nan_iff.mpr hx, hleft, rounded_nan, toExtended_eq_nan_iff]
    exact isNaN_quiet hx
  split
  · next hy =>
    rw [toExtended_eq_nan_iff.mpr hy, hright, rounded_nan, toExtended_eq_nan_iff]
    exact isNaN_quiet hy
  · rfl

theorem toExtended_add (x y : Single) : (x + y).toExtended = (x.toExtended.add y.toExtended).rounded :=
  toExtended_rounded (fun _ => rfl) (fun e => by cases e <;> rfl) x y

theorem toExtended_sub (x y : Single) : (x - y).toExtended = (x.toExtended.sub y.toExtended).rounded :=
  toExtended_rounded (fun _ => rfl) (fun e => by cases e <;> rfl) x y

theorem toExtended_mul (x y : Single) : (x * y).toExtended = (x.toExtended.mul y.toExtended).rounded :=
  toExtended_rounded (fun _ => rfl) (fun e => by cases e <;> rfl) x y

theorem toExtended_div (x y : Single) : (x / y).toExtended = (x.toExtended.div y.toExtended).rounded :=
  toExtended_rounded (fun _ => rfl) (fun e => by cases e <;> rfl) x y

/-! ### Without a finite value -/

theorem isNaN_add (h : x.isNaN = true) (y : Single) : (x + y).isNaN = true := by
  rw [← toExtended_eq_nan_iff] at h ⊢
  rw [toExtended_add, h]
  exact rounded_nan

theorem isNaN_mul (h : x.isNaN = true) (y : Single) : (x * y).isNaN = true := by
  rw [← toExtended_eq_nan_iff] at h ⊢
  rw [toExtended_mul, h]
  exact rounded_nan

theorem not_isFinite_add (h : ¬ x.isFinite = true ∨ ¬ y.isFinite = true) : ¬ (x + y).isFinite = true := by
  simp only [isFinite_iff, toExtended_add] at h ⊢
  exact not_isFinite_rounded (Extended.not_isFinite_add h)

theorem not_isFinite_sub (x : Single) (h : ¬ y.isFinite = true) : ¬ (x - y).isFinite = true := by
  simp only [isFinite_iff, toExtended_sub] at h ⊢
  exact not_isFinite_rounded (Extended.not_isFinite_add (.inr (not_isFinite_neg h)))

theorem not_isFinite_mul (h : ¬ x.isFinite = true) (hy : ∀ s, y.toExtended ≠ .finite s 0) :
    ¬ (x * y).isFinite = true := by
  simp only [isFinite_iff, toExtended_mul] at h ⊢
  exact not_isFinite_rounded (Extended.not_isFinite_mul h hy)

theorem not_isFinite_sqrt (h : ¬ x.isFinite = true) : ¬ x.sqrt.isFinite = true := by
  unfold sqrt
  split
  · next hx =>
    have hquiet := isNaN_quiet (toExtended_eq_nan_iff.mp hx)
    rw [isFinite_iff, toExtended_eq_nan_iff.mpr hquiet]
    exact id
  · split
    · decide
    · exact h
  · next hx =>
    rw [isFinite_iff, hx] at h
    exact absurd trivial h

theorem div_of_not_isFinite (hx : x.isFinite = true) (h : ¬ y.isFinite = true) :
    (x / y).toExtended = .nan ∨ ∃ s, (x / y).toExtended = .finite s 0 := by
  rw [isFinite_iff] at hx h
  rw [toExtended_div]
  rcases Extended.div_of_not_isFinite hx h with hdiv | ⟨s, hdiv⟩
  · exact .inl (hdiv ▸ rounded_nan)
  · exact .inr ⟨s, hdiv ▸ rounded_zero s⟩

theorem isNaN_mul_of_not_isFinite (h : ¬ x.isFinite = true)
    (hy : y.toExtended = .nan ∨ ∃ s, y.toExtended = .finite s 0) : (x * y).isNaN = true := by
  rw [isFinite_iff] at h
  rw [← toExtended_eq_nan_iff, toExtended_mul, mul_eq_nan h hy]
  exact rounded_nan

theorem not_isFinite_foldl {xs : List Single} {a : Single}
    (h : ¬ a.isFinite = true ∨ ∃ x ∈ xs, ¬ x.isFinite = true) : ¬ (xs.foldl (· + ·) a).isFinite = true := by
  induction xs generalizing a with
  | nil => exact h.resolve_right fun ⟨_, hx, _⟩ => absurd hx List.not_mem_nil
  | cons y ys ih =>
    refine ih ?_
    rcases h with ha | ⟨x, hx, hfinite⟩
    · exact .inl (not_isFinite_add (.inl ha))
    rcases List.mem_cons.mp hx with rfl | hx
    · exact .inl (not_isFinite_add (.inr hfinite))
    · exact .inr ⟨x, hx, hfinite⟩

/-- **A sum with a term that is not finite is not finite.** -/
theorem not_isFinite_sum {xs : List Single} (h : ∃ x ∈ xs, ¬ x.isFinite = true) : ¬ (Single.sum xs).isFinite = true :=
  not_isFinite_foldl (.inr h)

end Single

end AxisNorm
