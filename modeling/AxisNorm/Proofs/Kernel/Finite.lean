import AxisNorm.Proofs.Float.Bounds
import AxisNorm.Proofs.Float.Half
import AxisNorm.Proofs.Kernel.Launch

/-!
# Groups with finite deviations

Squares underflow and overflow, and so may their sum, but neither leads to a division by zero nor to an
infinite quotient. A small deviation stays small even when it is divided by the root of the least
stabilizing constant. A large deviation has a large square, which is one of the terms of the variance, so
that it is divided by a large number.

* `GroupConstants.positive_spread`: the spread is above zero.
* `GroupConstants.inverse_spec`: its reciprocal is finite.
* `GroupConstants.within_normalized`: normalized elements are at most `2 ^ 125`.
* `Launch.isFinite_output`: **a group with finite deviations has finite results.**
-/

namespace AxisNorm

open Format

namespace GroupConstants

variable {c : GroupConstants} (hc : c.Sound) {xs : List Single}
  (hxs : ∀ x ∈ xs, (x - c.mean xs).isFinite = true) {q r : Rat}

include hxs

theorem atLeast_square {x : Single} (hx : x ∈ xs) :
    ((x - c.mean xs) * (x - c.mean xs)).toExtended.AtLeast 0 :=
  Single.atLeast_square (Single.toExtended_of_isFinite (hxs x hx)) has_zero (mul_self_nonneg _)

include hc

/-- The mean square is at least `2 ^ -65` of any square. -/
theorem atLeast_variance (hq : binary32.Has q) (hr : binary32.Has r) (hnonneg : 0 ≤ q) (hle : r ≤ q * (1 / 2 ^ 65))
    (h : q = 0 ∨ ∃ x ∈ xs, ((x - c.mean xs) * (x - c.mean xs)).toExtended.AtLeast q) :
    (c.variance xs).toExtended.AtLeast r := by
  obtain ⟨u, hu, hlow, -⟩ := hc.reciprocal
  have hterms : ∀ y ∈ xs.map fun x => (x - c.mean xs) * (x - c.mean xs), y.toExtended.AtLeast 0 := by
    intro y hy
    obtain ⟨x, hx, rfl⟩ := List.mem_map.mp hy
    exact atLeast_square hxs hx
  have hsum := Single.atLeast_sum hq hnonneg hterms
    (h.imp_right fun ⟨x, hx, hsquare⟩ => ⟨_, List.mem_map_of_mem hx, hsquare⟩)
  exact Single.atLeast_mul hsum hu (lt_of_lt_of_le (by norm_num) hlow) hr
    (hle.trans (mul_le_mul_of_nonneg_left hlow hnonneg))

theorem atLeast_variance_zero : (c.variance xs).toExtended.AtLeast 0 :=
  atLeast_variance hc hxs has_zero has_zero le_rfl (by norm_num) (.inl rfl)

theorem atLeast_spread : (c.variance xs + c.epsilon).sqrt.toExtended.AtLeast (2 ^ (-75 : Int)) := by
  have hleast : binary32.Has (2 ^ (-149 : Int)) := ⟨1, by decide, binary32_value_least⟩
  have hsum := Single.atLeast_add (atLeast_variance_zero hc hxs) hc.epsilon.atLeast le_rfl (by positivity) hleast
    (by rw [zero_add])
  exact Single.atLeast_sqrt hsum (by positivity) (has_zpow (by norm_num) (by norm_num)) (by norm_num)

theorem positive_spread : (c.variance xs + c.epsilon).sqrt.toExtended = .infinite false ∨
    (c.variance xs + c.epsilon).sqrt.Positive :=
  (atLeast_spread hc hxs).imp_right fun ⟨q, hq, hle⟩ => ⟨q, lt_of_lt_of_le (by positivity) hle, hq⟩

theorem inverse_spec :
    (c.inverse xs).toExtended.AtLeast 0 ∧ (c.inverse xs).toExtended.Within (2 ^ (75 : Int)) :=
  Single.div_spec hc.one (atLeast_spread hc hxs) (by positivity) (has_zpow (by norm_num) (by norm_num)) (by norm_num)

/-- A large deviation makes the spread large. -/
theorem within_inverse {x : Single} (hx : x ∈ xs)
    (hlarge : 2 ^ (50 : Int) ≤ binary32.value (x - c.mean xs).magnitude) :
    (c.inverse xs).toExtended.Within (2 ^ (-17 : Int)) := by
  have hsquare : ((x - c.mean xs) * (x - c.mean xs)).toExtended.AtLeast (2 ^ (100 : Int)) := by
    refine Single.atLeast_square (Single.toExtended_of_isFinite (hxs x hx)) (has_zpow (by norm_num) (by norm_num)) ?_
    calc (2 : Rat) ^ (100 : Int) = 2 ^ (50 : Int) * 2 ^ (50 : Int) := by norm_num
      _ ≤ _ := mul_self_le_mul_self (by positivity) hlarge
  have hvariance : (c.variance xs).toExtended.AtLeast (2 ^ (35 : Int)) :=
    atLeast_variance hc hxs (has_zpow (by norm_num) (by norm_num)) (has_zpow (by norm_num) (by norm_num))
      (by positivity) (by norm_num) (.inr ⟨x, hx, hsquare⟩)
  have hsum := Single.atLeast_add hvariance (hc.epsilon.atLeast.mono (by positivity)) (by positivity) le_rfl
    (has_zpow (k := 35) (by norm_num) (by norm_num)) (by rw [add_zero])
  have hspread := Single.atLeast_sqrt (r := 2 ^ (17 : Int)) hsum (by positivity)
    (has_zpow (by norm_num) (by norm_num)) (by norm_num)
  exact (Single.div_spec hc.one hspread (by positivity) (has_zpow (by norm_num) (by norm_num)) (by norm_num)).2

theorem within_normalized {x : Single} (hx : x ∈ xs) :
    (c.normalized xs x).toExtended.Within (2 ^ (125 : Int)) := by
  have hbound : binary32.Has (2 ^ (125 : Int)) := has_zpow (by norm_num) (by norm_num)
  have hdeviation := Single.toExtended_of_isFinite (hxs x hx)
  rcases le_or_gt (binary32.value (x - c.mean xs).magnitude) (2 ^ (50 : Int)) with hsmall | hlarge
  · exact Single.within_mul (Single.within_of_toExtended hdeviation hsmall) (inverse_spec hc hxs).2 hbound
      (by norm_num)
  · have hrange : binary32.value (x - c.mean xs).magnitude ≤ 2 ^ (128 : Int) := by
      have hend : binary32.value binary32.infinity = 2 ^ (128 : Int) := binary32_value 254
      rw [← hend]
      exact binary32.value_strictMono.monotone (of_decide_eq_true (hxs x hx)).le
    exact Single.within_mul (Single.within_of_toExtended hdeviation hrange) (within_inverse hc hxs hx hlarge.le)
      hbound (by norm_num)

end GroupConstants

/-- The bits of an element of a destination are those of a finite number. -/
def ElementType.IsFinite : ElementType → Nat → Prop
  | .bfloat16, n => (⟨UInt16.ofNat n⟩ : Half).isFinite = true
  | _, n => (⟨UInt32.ofNat n⟩ : Single).isFinite = true

theorem ElementType.isFinite_stored (type : ElementType) {y : Single} (hy : y.toExtended.Within (2 ^ (125 : Int))) :
    type.IsFinite (type.stored y) := by
  have hfinite := Single.isFinite_of_within hy
  have hbits : (⟨UInt32.ofNat y.bits.toNat⟩ : Single).isFinite = true := by
    rwa [Normalization.ofNat_bits]
  have hnarrow : (⟨UInt16.ofNat y.narrow.toNat⟩ : Half).isFinite = true := by
    obtain ⟨s, q, hq, -, hle⟩ := hy
    obtain ⟨-, rfl, -⟩ := Single.eq_value_of_toExtended hq
    rw [UInt16.ofNat_toNat, Single.isFinite_narrow_iff hfinite, Single.abs_value]
    exact hle.trans_lt (by norm_num)
  cases type <;> first | exact hbits | exact hnarrow

theorem Inputs.result_of_none {i : Inputs} {s : Split} {b k : Nat} (h : i.factors = none) :
    i.result s b k = (i.constants b).normalized (i.group s b) (i.source (s.position b k)) := by
  rw [result, h]

namespace Launch

theorem factors_eq_none {d : Descriptor} (x : Launch d) (hplain : d.affine = false) : x.factors = none := by
  have haffine : x.factors.isSome = d.affine := x.placed.holds.affine
  rwa [hplain, Option.isSome_eq_false_iff, Option.isNone_iff_eq_none] at haffine

/-- **A group with finite deviations has finite results.** If all deviations of a group from its mean are
finite, and so are then its elements and their sum, the denominator is above zero and not a NaN, its
reciprocal is finite and not negative, and a kernel without scale and shift stores finite numbers of either
type. Nothing is asked of the stabilizing constant, nor of the squares. -/
theorem isFinite_output {op : Operator} {d : Descriptor} (hd : Descriptor.ofOperator op = .ok d)
    (hplain : d.affine = false) (x : Launch d) {b : Nat} (hb : b < d.split.batch)
    (hgroup : ∀ y ∈ (d.inputs x.source x.factors).group d.split b,
      (y - ((d.inputs x.source x.factors).constants b).mean
        ((d.inputs x.source x.factors).group d.split b)).isFinite = true) :
    let c := (d.inputs x.source x.factors).constants b
    let xs := (d.inputs x.source x.factors).group d.split b
    ((c.variance xs + c.epsilon).sqrt.toExtended = .infinite false ∨
        (c.variance xs + c.epsilon).sqrt.Positive) ∧
      (∃ q : Rat, 0 ≤ q ∧ (c.inverse xs).toExtended = .finite false q) ∧
      x.run.succeeded = true ∧ ∀ k < d.split.outer * d.split.inner, ∃ e n, d.split.offset b k = .ok e ∧
        x.output e = some n ∧ d.dstType.IsFinite n := by
  dsimp only
  have hc := Descriptor.sound_constants hd hb x.source x.factors
  obtain ⟨hnonneg, _, _, hinverse, -⟩ := GroupConstants.inverse_spec hc hgroup
  refine ⟨GroupConstants.positive_spread hc hgroup, ?_, x.succeeded, fun k hk => ?_⟩
  · rcases hnonneg with h | ⟨q, hq, hle⟩
    · rw [h] at hinverse
      cases hinverse
    · exact ⟨q, hle, hq⟩
  · refine ⟨_, _, (Kernel.descriptor_fits hd).offset_eq hb hk, x.output_position hb hk, ?_⟩
    rw [Inputs.result_of_none (x.factors_eq_none hplain)]
    exact ElementType.isFinite_stored _ (GroupConstants.within_normalized hc hgroup
      (List.mem_map_of_mem (List.mem_range.mpr hk)))

/-- Two equal numbers, and two whose squares overflow. -/
theorem isFinite_output_row : ∃ d, Descriptor.ofOperator (Kernel.matrix 1 2) = .ok d ∧
    (∃ x : Launch d, x.source 0 = .one ∧ x.source 1 = .one ∧
      ∃ n, x.output 0 = some n ∧ d.dstType.IsFinite n) ∧
    ∃ x : Launch d, x.source 0 = ⟨0x7f000000⟩ ∧ x.source 1 = ⟨0xff000000⟩ ∧
      ∃ n, x.output 0 = some n ∧ d.dstType.IsFinite n := by
  obtain ⟨d, hd, hp, hlaunch⟩ := exists_row
  have hsplit : d.split = ⟨1, 1, 2⟩ := congrArg Parameters.split hp
  have hrow (u v : Single) (h : ∀ y ∈ [u, v], (y - ((rowInputs u v).constants 0).mean [u, v]).isFinite = true) :
      ∃ x : Launch d, x.source 0 = u ∧ x.source 1 = v ∧ ∃ n, x.output 0 = some n ∧ d.dstType.IsFinite n := by
    obtain ⟨x, hu, hv, hgroup, hconstants⟩ := hlaunch u v
    obtain ⟨-, -, -, houtput⟩ := isFinite_output hd (congrArg Parameters.affine hp) x (b := 0)
      (by rw [hsplit]; decide) (by rw [hgroup, hconstants]; exact h)
    obtain ⟨e, n, he, hn, hfinite⟩ := houtput 0 (by rw [hsplit]; decide)
    rw [hsplit] at he
    cases he
    exact ⟨x, hu, hv, n, hn, hfinite⟩
  exact ⟨d, hd, hrow _ _ (by decide +kernel), hrow _ _ (by decide +kernel)⟩

end Launch

end AxisNorm
