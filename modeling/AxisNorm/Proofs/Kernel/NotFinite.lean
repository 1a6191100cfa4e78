import AxisNorm.Proofs.Float.Operations
import AxisNorm.Proofs.Kernel.Launch

/-!
# Groups without a finite sum

Without a finite sum there is no finite mean, and no deviation from it is finite, not even that of a finite
element. So neither is the variance, the reciprocal of the spread is zero or has no value, and a deviation
times that has none.

* `GroupConstants.isNaN_normalized`: no element of such a group has a value when it is normalized.
* `Launch.isNaN_output`: **of a group with an element that is not finite, or whose sum overflows, every
  result is a NaN.**
-/

namespace AxisNorm

namespace GroupConstants

variable {c : GroupConstants} (hc : c.Sound) {xs : List Single} (hsum : ¬ (Single.sum xs).isFinite = true)

include hc hsum

omit hsum in
theorem Sound.reciprocal_ne (s : Bool) : c.reciprocal.toExtended ≠ .finite s 0 := by
  obtain ⟨r, hr, hlow, -⟩ := hc.reciprocal
  intro hzero
  rw [hr] at hzero
  cases hzero
  norm_num at hlow

theorem not_isFinite_mean : ¬ (c.mean xs).isFinite = true :=
  Single.not_isFinite_mul hsum hc.reciprocal_ne

theorem not_isFinite_deviation (x : Single) : ¬ (x - c.mean xs).isFinite = true :=
  Single.not_isFinite_sub x (not_isFinite_mean hc hsum)

theorem not_isFinite_variance (hne : xs ≠ []) : ¬ (c.variance xs).isFinite = true := by
  obtain ⟨x, hx⟩ := List.exists_mem_of_ne_nil xs hne
  have hdeviation := not_isFinite_deviation hc hsum x
  have hsquare : ¬ ((x - c.mean xs) * (x - c.mean xs)).isFinite = true :=
    Single.not_isFinite_mul hdeviation fun s hzero => hdeviation (Single.isFinite_iff.mpr (hzero ▸ trivial))
  exact Single.not_isFinite_mul (Single.not_isFinite_sum ⟨_, List.mem_map_of_mem hx, hsquare⟩) hc.reciprocal_ne

theorem inverse_of_not_isFinite (hne : xs ≠ []) :
    (c.inverse xs).toExtended = .nan ∨ ∃ s, (c.inverse xs).toExtended = .finite s 0 := by
  have hone : c.one.isFinite = true := Single.isFinite_iff.mpr (hc.one ▸ trivial)
  have hsum : ¬ (c.variance xs + c.epsilon).isFinite = true :=
    Single.not_isFinite_add (.inl (not_isFinite_variance hc hsum hne))
  exact Single.div_of_not_isFinite hone (Single.not_isFinite_sqrt hsum)

theorem isNaN_normalized (hne : xs ≠ []) (x : Single) : (c.normalized xs x).isNaN = true :=
  Single.isNaN_mul_of_not_isFinite (not_isFinite_deviation hc hsum x) (inverse_of_not_isFinite hc hsum hne)

end GroupConstants

theorem Inputs.isNaN_result {i : Inputs} {s : Split} {b k : Nat} (hc : (i.constants b).Sound)
    (hsum : ¬ (Single.sum (i.group s b)).isFinite = true) (hk : k < s.outer * s.inner) :
    (i.result s b k).isNaN = true := by
  have hne : i.group s b ≠ [] := List.ne_nil_of_mem (List.mem_map_of_mem (List.mem_range.mpr hk))
  have hnormal := GroupConstants.isNaN_normalized hc hsum hne (i.source (s.position b k))
  unfold result
  cases i.factors with
  | none => exact hnormal
  | some f => exact Single.isNaN_add (Single.isNaN_mul hnormal _) _

namespace Launch

/-- **Of a group with an element that is not finite, or whose sum overflows, every result is a NaN**, whatever
the scale and the shift are, also where the element itself is finite. -/
theorem isNaN_output {op : Operator} {d : Descriptor} (hd : Descriptor.ofOperator op = .ok d)
    (htype : d.dstType = .float32) (x : Launch d) {b : Nat} (hb : b < d.split.batch)
    (hgroup : (∃ y ∈ (d.inputs x.source x.factors).group d.split b, ¬ y.isFinite = true) ∨
      ¬ (Single.sum (((d.inputs x.source x.factors).group d.split b).filter Single.isFinite)).isFinite = true) :
    x.run.succeeded = true ∧ ∀ k < d.split.outer * d.split.inner, ∃ e n, d.split.offset b k = .ok e ∧
      x.output e = some n ∧ (⟨UInt32.ofNat n⟩ : Single).isNaN = true := by
  have hsum : ¬ (Single.sum ((d.inputs x.source x.factors).group d.split b)).isFinite = true := by
    by_cases hfinite : ∀ y ∈ (d.inputs x.source x.factors).group d.split b, y.isFinite = true
    · rw [List.filter_eq_self.mpr hfinite] at hgroup
      exact hgroup.resolve_left fun ⟨y, hy, hy'⟩ => hy' (hfinite y hy)
    · push Not at hfinite
      exact Single.not_isFinite_sum hfinite
  refine ⟨x.succeeded, fun k hk => ⟨_, _, (Kernel.descriptor_fits hd).offset_eq hb hk, x.output_position hb hk, ?_⟩⟩
  rw [htype]
  change (⟨UInt32.ofNat ((d.inputs x.source x.factors).result d.split b k).bits.toNat⟩ : Single).isNaN = true
  rw [Normalization.ofNat_bits]
  exact Inputs.isNaN_result (Descriptor.sound_constants hd hb _ _) hsum hk

/-- A one beside an infinity, and two numbers whose sum overflows. -/
theorem isNaN_output_row : ∃ d, Descriptor.ofOperator (Kernel.matrix 1 2) = .ok d ∧
    (∃ x : Launch d, x.source 0 = .one ∧ x.source 1 = ⟨0x7f800000⟩ ∧
      ∃ n, x.output 0 = some n ∧ (⟨UInt32.ofNat n⟩ : Single).isNaN = true) ∧
    ∃ x : Launch d, x.source 0 = ⟨0x7f000000⟩ ∧ x.source 1 = ⟨0x7f000000⟩ ∧
      ∃ n, x.output 0 = some n ∧ (⟨UInt32.ofNat n⟩ : Single).isNaN = true := by
  obtain ⟨d, hd, hp, hlaunch⟩ := exists_row
  have hsplit : d.split = ⟨1, 1, 2⟩ := congrArg Parameters.split hp
  have hrow (u v : Single) (h : (∃ y ∈ [u, v], ¬ y.isFinite = true) ∨
      ¬ (Single.sum ([u, v].filter Single.isFinite)).isFinite = true) :
      ∃ x : Launch d, x.source 0 = u ∧ x.source 1 = v ∧
        ∃ n, x.output 0 = some n ∧ (⟨UInt32.ofNat n⟩ : Single).isNaN = true := by
    obtain ⟨x, hu, hv, hgroup, -⟩ := hlaunch u v
    obtain ⟨-, houtput⟩ := isNaN_output hd (congrArg Parameters.dstType hp) x (by rw [hsplit]; decide) (hgroup ▸ h)
    obtain ⟨e, n, he, hn, hnan⟩ := houtput 0 (by rw [hsplit]; decide)
    rw [hsplit] at he
    cases he
    exact ⟨x, hu, hv, n, hn, hnan⟩
  exact ⟨d, hd, hrow _ _ (.inl ⟨_, List.mem_cons_of_mem _ List.mem_cons_self, by decide⟩),
    hrow _ _ (.inr (by decide +kernel))⟩

end Launch

end AxisNorm
