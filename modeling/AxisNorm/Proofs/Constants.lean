import AxisNorm.Proofs.Descriptor
import AxisNorm.Proofs.Float.Reciprocal

/-!
# The constants of a descriptor

Generated code reads three buffers of constants by the number of the group, whatever the constants come
from.

* `Descriptor.Constants`: what the buffers hold, and what kernels are made from.
* `Descriptor.constants_of_ofOperator`: **every descriptor has these constants.**
-/

namespace AxisNorm.Descriptor

/-- What a descriptor has of a description with this source and this destination. -/
structure Constants (d : Descriptor) (op : Operator) (src dst : Tensor) : Prop where
  operator : d.operator = op
  split : Split.ofShape src.shape op.batchAxis = .ok d.split
  /-- One constant of each sort per group. -/
  length : ∀ buffer ∈ [d.reciprocals, d.epsilons, d.ones], src.shape[op.batchAxis]? = some buffer.length
  /-- All groups have the same reciprocal: normal, not above one, and times the size of a group one but for
  `2 ^ -23`. -/
  reciprocal : ∃ x : Single, (∀ y ∈ d.reciprocals, y = x) ∧ x.IsNormal ∧
    ∃ c : Rat, x.toExtended = .finite false c ∧ 0 < c ∧ c ≤ 1 ∧ |c * op.groupSize src - 1| ≤ 1 / 2 ^ 23
  epsilon : ∀ x ∈ d.epsilons, x.Positive
  one : ∀ x ∈ d.ones, x.toExtended = .finite false 1
  affine : d.affine = true ↔ op.tensors.length = 4
  parameters : ∀ home, d.parameters home = ⟨d.split, .float32, dst.type, d.affine, home⟩
  slotCount : ∀ home, (d.parameters home).slotCount = if d.affine then 4 else 2

variable {op : Operator} {src dst : Tensor} {d : Descriptor}

theorem reciprocals_eq (h : ofOperator op = .ok d) :
    d.reciprocals = List.replicate d.split.batch (Single.reciprocal (d.split.outer * d.split.inner)) := by
  obtain ⟨src, dst, -, -, hs, -, -, hcomplete⟩ := exists_complete h
  obtain ⟨e, n, -, hn, hd⟩ := eq_of_complete hcomplete
  rw [(Split.fits_of_ofShape hs).groupSize_eq] at hn
  cases hn
  rw [hd]
  rfl

theorem epsilons_spec (h : ofOperator op = .ok d) :
    d.epsilons.length = d.split.batch ∧ ∀ x ∈ d.epsilons, x.Positive := by
  obtain ⟨src, dst, -, -, -, -, -, hcomplete⟩ := exists_complete h
  obtain ⟨e, n, he, -, hd⟩ := eq_of_complete hcomplete
  rw [hd]
  exact Epsilon.values_of_ofAttribute he

theorem epsilons_of_none (h : ofOperator op = .ok d) (hnone : op.attribute? Operator.epsilonAttribute = none) :
    d.epsilons = List.replicate d.split.batch Epsilon.standard := by
  obtain ⟨src, dst, -, -, -, -, -, hcomplete⟩ := exists_complete h
  obtain ⟨e, n, he, -, hd⟩ := eq_of_complete hcomplete
  rw [hnone] at he
  rw [hd, Epsilon.eq_of_fill he]
  rfl

theorem ones_eq (h : ofOperator op = .ok d) : d.ones = List.replicate d.split.batch .one := by
  obtain ⟨src, dst, -, -, -, -, -, hcomplete⟩ := exists_complete h
  obtain ⟨e, n, -, -, hd⟩ := eq_of_complete hcomplete
  rw [hd]
  rfl

/-- **Every descriptor has one constant of each sort per group**: the same reciprocal of the group size for
all, a stabilizing constant above zero, and one. -/
theorem constants_of_ofOperator (h : ofOperator op = .ok d) : ∃ src dst : Tensor,
    op.tensor? .src = some src ∧ op.tensor? .dst = some dst ∧ d.Constants op src dst := by
  obtain ⟨src, dst, hsrc, hdst, hs, htype, hcount, hcomplete⟩ := exists_complete h
  have hfits := Split.fits_of_ofShape hs
  have hreciprocals := reciprocals_eq h
  obtain ⟨hepsilons, hpositive⟩ := epsilons_spec h
  have hones := ones_eq h
  obtain ⟨hsplits, hbatch, -, -⟩ := Split.ofShape_eq_ok_iff.mp hs
  have hsize := Operator.groupSize_eq hs
  refine ⟨src, dst, hsrc, hdst, ?_⟩
  exact {
    operator := operator_of_ofOperator h
    split := hs
    length := by
      simp [hreciprocals, hepsilons, hones, hbatch]
    reciprocal := by
      rw [hreciprocals, hsize]
      exact ⟨_, fun y hy => List.eq_of_mem_replicate hy,
        Single.reciprocal_spec (Nat.mul_pos hfits.outer hfits.inner) hfits.groupSize_lt⟩
    epsilon := hpositive
    one := by
      rw [hones]
      exact fun x hx => List.eq_of_mem_replicate hx ▸ Single.toExtended_one
    affine := by
      rw [hcount]
      cases d.affine <;> simp
    parameters := by
      obtain ⟨e, n, -, -, hd⟩ := eq_of_complete hcomplete
      intro home
      rw [parameters]
      congr 1
      rw [hd]
    slotCount := by
      intro home
      rw [Parameters.slotCount, parameters]
      cases d.affine <;> rfl }

/-- Two groups of three elements, with a scale and a shift. -/
theorem constants_of_ofOperator_sample : ∃ d, ofOperator (sample ⟨[3, 1], .float32⟩ .float32) = .ok d ∧
    ∃ src dst : Tensor, (sample ⟨[3, 1], .float32⟩ .float32).tensor? .src = some src ∧
      (sample ⟨[3, 1], .float32⟩ .float32).tensor? .dst = some dst ∧
      d.Constants (sample ⟨[3, 1], .float32⟩ .float32) src dst := by
  have hchecks := ofOperator_checks (sample ⟨[3, 1], .float32⟩ .float32)
  unfold Operator.Checks at hchecks
  have hmet : (Requirement.all.find? fun r => ¬ (sample ⟨[3, 1], .float32⟩ .float32).Meets r) = none := by
    decide
  rw [hmet] at hchecks
  have hroom : (sample ⟨[3, 1], .float32⟩ .float32).HasRoom := by
    rintro src ⟨⟩ groups ⟨⟩
    decide
  obtain ⟨d, hd⟩ := hchecks hroom
  exact ⟨d, hd, constants_of_ofOperator hd⟩

end AxisNorm.Descriptor
