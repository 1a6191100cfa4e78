import AxisNorm.Normalization.Routine
import AxisNorm.Proofs.Split

/-!
# Parameters that have code

* `Parameters.Accepted`: what the parameters of a kernel have to satisfy.
* `Parameters.accepted_iff`: **these are the parameters that have code.**
-/

namespace AxisNorm.Parameters

open Code Normalization

/-- The element types are known, no extent is zero, and byte offsets are positive signed numbers. -/
structure Accepted (p : Parameters) : Prop where
  src : p.srcType = .float32
  dst : ∃ storage, storageType? p.dstType = some storage
  outer : 0 < p.split.outer
  batch : 0 < p.split.batch
  inner : 0 < p.split.inner
  count : p.split.outer * p.split.batch * p.split.inner ≤ countLimit

theorem checkExtents_eq_ok_iff {s : Split} :
    checkExtents s = .ok () ↔
      (0 < s.outer ∧ 0 < s.batch ∧ 0 < s.inner) ∧ s.outer * s.batch * s.inner ≤ countLimit := by
  have hlimit : countLimit < sizeLimit := by decide
  unfold checkExtents
  by_cases hzero : s.outer = 0 ∨ s.batch = 0 ∨ s.inner = 0
  · rw [if_pos hzero]
    simp only [reduceCtorEq, false_iff, not_and]
    omega
  rw [if_neg hzero]
  have hpos : 0 < s.outer ∧ 0 < s.batch ∧ 0 < s.inner := by omega
  rw [Split.count]
  by_cases hcount : s.outer * s.batch * s.inner < sizeLimit
  · have hrow : s.outer * s.batch < sizeLimit :=
      Nat.lt_of_le_of_lt (Nat.le_mul_of_pos_right _ hpos.2.2) hcount
    simp only [Checked.multiply, hrow, hcount, if_true, bind, Except.bind]
    split <;> simp_all
  · have herror : ∃ e, (Checked.multiply s.outer s.batch).bind (Checked.multiply · s.inner) =
        .error e := by
      unfold Checked.multiply
      split
      · exact ⟨.multiplyOverflow, if_neg hcount⟩
      · exact ⟨.multiplyOverflow, rfl⟩
    obtain ⟨e, he⟩ := herror
    simp only [bind, he, reduceCtorEq, false_iff]
    omega

variable {p : Parameters} {name convention : String}

theorem routine?_eq_ok_iff {code : Routine Label Value} :
    p.routine? name convention .i64 = .ok code ↔
      p.Accepted ∧ ∃ storage, storageType? p.dstType = some storage ∧
        code = ⟨name, convention, [.i32], .entry, block p storage, layout⟩ := by
  unfold routine?
  rw [if_neg (fun h => h rfl)]
  by_cases hsrc : p.srcType = .float32
  · rw [if_neg (fun h => h hsrc)]
    cases hdst : storageType? p.dstType with
    | none => simp
    | some storage =>
      have hextents := checkExtents_eq_ok_iff (s := p.split)
      have haccepted : p.Accepted ↔ checkExtents p.split = .ok () := by
        rw [hextents]
        exact ⟨fun h => ⟨⟨h.outer, h.batch, h.inner⟩, h.count⟩,
          fun h => ⟨hsrc, ⟨storage, hdst⟩, h.1.1, h.1.2.1, h.1.2.2, h.2⟩⟩
      cases hcheck : checkExtents p.split with
      | error e => simp [haccepted, hcheck]
      | ok _ => simp [haccepted, hcheck, eq_comm]
  · rw [if_pos hsrc]
    simp only [reduceCtorEq, false_iff]
    exact fun h => hsrc h.1.src

theorem pointerType_eq {pointerType : ValueType} {code : Routine Label Value}
    (h : p.routine? name convention pointerType = .ok code) : pointerType = .i64 := by
  by_contra hne
  rw [routine?, if_pos hne] at h
  cases h

/-- **These are the parameters that have code.** -/
theorem accepted_iff : p.Accepted ↔ ∃ code, p.routine? name convention .i64 = .ok code := by
  constructor
  · intro h
    obtain ⟨storage, hstorage⟩ := h.dst
    exact ⟨_, routine?_eq_ok_iff.mpr ⟨h, storage, hstorage, rfl⟩⟩
  · rintro ⟨code, hcode⟩
    exact (routine?_eq_ok_iff.mp hcode).1

namespace Accepted

variable (h : p.Accepted)

include h

theorem row_pos : 0 < p.split.outer * p.split.batch := Nat.mul_pos h.outer h.batch

theorem fits : p.split.Fits := by
  have hcount := h.count
  have hlimit : countLimit < sizeLimit := by decide
  exact ⟨h.outer, h.batch, h.inner, by omega⟩

theorem count_lt : 4 * (p.split.outer * p.split.batch * p.split.inner) < 2 ^ 63 := by
  have hcount := h.count
  have hlimit : countLimit = 0x1fffffffffffffff := rfl
  omega

theorem inner_lt : p.split.inner < 2 ^ 63 := by
  have hcount := h.count_lt
  have hle := Nat.le_mul_of_pos_left p.split.inner h.row_pos
  omega

theorem outer_lt : p.split.outer < 2 ^ 63 := by
  have hcount := h.count_lt
  have hle := Nat.le_mul_of_pos_right (p.split.outer * p.split.batch) h.inner
  have hle' := Nat.le_mul_of_pos_right p.split.outer h.batch
  omega

theorem batch_lt : p.split.batch < 2 ^ 63 := by
  have hcount := h.count_lt
  have hle := Nat.le_mul_of_pos_right (p.split.outer * p.split.batch) h.inner
  have hle' := Nat.le_mul_of_pos_left p.split.batch h.outer
  omega

theorem bytes_le : p.dstType.bytes ≤ 4 := by
  obtain ⟨storage, hstorage⟩ := h.dst
  cases htype : p.dstType <;> simp_all [storageType?, ElementType.bytes]

theorem stored_lt (y : Single) : p.dstType.stored y < 256 ^ p.dstType.bytes := by
  obtain ⟨storage, hstorage⟩ := h.dst
  have hbits := y.bits.toNat_lt
  have hnarrow := y.narrow.toNat_lt
  cases htype : p.dstType <;> simp_all [storageType?, ElementType.bytes, ElementType.stored]

end Accepted

end AxisNorm.Parameters
