import AxisNorm.Normalization.Group
import AxisNorm.Proofs.Arithmetic

/-!
# Positions of a split

A split that comes from a shape has positive extents and an element count that is a size.

* `Split.Fits`: what holds of the extents.
* `Split.Fits.offset_eq`: the offset of an element of a group is computed without overflow.
* `Split.position_eq_iff`: **every position of the tensor belongs to one element of one group.**
-/

namespace AxisNorm.Split

variable {s : Split} {b k f : Nat}

/-- Positive extents whose product is a size. -/
structure Fits (s : Split) : Prop where
  outer : 0 < s.outer
  batch : 0 < s.batch
  inner : 0 < s.inner
  count : s.outer * s.batch * s.inner < sizeLimit

theorem ofShape_eq_ok {shape : Shape} {axis : Nat} (h : ofShape shape axis = .ok s) :
    shape[axis]? = some s.batch ∧ (∀ d ∈ shape, 0 < d) ∧ shape.prod < sizeLimit ∧
      s.outer = (shape.take axis).prod ∧ s.inner = (shape.drop (axis + 1)).prod := by
  unfold ofShape at h
  split at h
  · cases h
  split at h
  · cases h
  next batch hbatch =>
  split at h
  · cases h
  next hzero =>
  split at h
  · cases h
  next count hcount =>
  have hpos : ∀ d ∈ shape, 0 < d := by
    rw [List.findIdx?_eq_none_iff] at hzero
    intro d hd
    simpa [Nat.pos_iff_ne_zero] using hzero d hd
  have hlt : shape.prod < sizeLimit := by
    unfold Shape.count? at hcount
    cases hproduct : Checked.product shape with
    | error e => rw [hproduct] at hcount; cases hcount
    | ok n => exact ((Checked.product_eq_ok_iff hpos).mp hproduct).2
  obtain ⟨outer, houter, h⟩ := bind_eq_ok_iff.mp h
  obtain ⟨inner, hinner, h⟩ := bind_eq_ok_iff.mp h
  cases h
  have houter' := (Checked.product_eq_ok_iff fun d hd => hpos d (List.mem_of_mem_take hd)).mp
    (checked_eq_ok_iff.mp houter)
  have hinner' := (Checked.product_eq_ok_iff fun d hd => hpos d (List.mem_of_mem_drop hd)).mp
    (checked_eq_ok_iff.mp hinner)
  exact ⟨hbatch, hpos, hlt, houter'.1, hinner'.1⟩

theorem prod_of_ofShape {shape : Shape} {axis : Nat} (h : ofShape shape axis = .ok s) :
    s.outer * s.batch * s.inner = shape.prod := by
  obtain ⟨hbatch, -, -, houter, hinner⟩ := ofShape_eq_ok h
  obtain ⟨haxis, hbatch⟩ := List.getElem?_eq_some_iff.mp hbatch
  calc s.outer * s.batch * s.inner = s.outer * (s.batch * s.inner) := Nat.mul_assoc _ _ _
    _ = (shape.take axis ++ shape.drop axis).prod := by
      rw [List.prod_append, List.drop_eq_getElem_cons haxis, List.prod_cons, hbatch, houter, hinner]
    _ = shape.prod := by rw [List.take_append_drop]

theorem fits_of_ofShape {shape : Shape} {axis : Nat} (h : ofShape shape axis = .ok s) : s.Fits := by
  obtain ⟨-, hpos, hlt, -, -⟩ := ofShape_eq_ok h
  have hprod_pos := List.prod_pos_iff_forall_pos_nat.mpr hpos
  rw [← prod_of_ofShape h] at hprod_pos hlt
  have hrow := Nat.pos_of_mul_pos_right hprod_pos
  exact ⟨Nat.pos_of_mul_pos_right hrow, Nat.pos_of_mul_pos_left hrow,
    Nat.pos_of_mul_pos_left hprod_pos, hlt⟩

/-! ## Positions -/

theorem position_row (s : Split) {i : Nat} (b o : Nat) (hi : i < s.inner) :
    s.position b (o * s.inner + i) = (o * s.batch + b) * s.inner + i := by
  have hpos : 0 < s.inner := by omega
  rw [position, Nat.mul_comm o, Nat.mul_add_div hpos, Nat.mul_add_mod, Nat.div_eq_of_lt hi,
    Nat.mod_eq_of_lt hi, Nat.add_zero]

theorem position_group (hb : b < s.batch) (hinner : 0 < s.inner) :
    s.position b k / s.inner % s.batch = b := by
  rw [position, Nat.mul_comm, Nat.mul_add_div hinner, Nat.div_eq_of_lt (Nat.mod_lt k hinner),
    Nat.add_zero, Nat.mul_comm, Nat.mul_add_mod, Nat.mod_eq_of_lt hb]

theorem position_index (hb : b < s.batch) (hinner : 0 < s.inner) :
    s.position b k / (s.batch * s.inner) * s.inner + s.position b k % s.inner = k := by
  have hrow : s.position b k / (s.batch * s.inner) = k / s.inner := by
    rw [Nat.mul_comm s.batch, ← Nat.div_div_eq_div_mul, position, Nat.mul_comm _ s.inner,
      Nat.mul_add_div hinner, Nat.div_eq_of_lt (Nat.mod_lt k hinner), Nat.add_zero,
      Nat.mul_comm _ s.batch, Nat.mul_add_div (Nat.zero_lt_of_lt hb), Nat.div_eq_of_lt hb, Nat.add_zero]
  rw [hrow, position, Nat.mul_add_mod_self_right, Nat.mod_mod, Nat.mul_comm, Nat.div_add_mod]

theorem position_of_index (hinner : 0 < s.inner) :
    s.position (f / s.inner % s.batch) (f / (s.batch * s.inner) * s.inner + f % s.inner) = f := by
  have hrow : f / (s.batch * s.inner) = f / s.inner / s.batch := by
    rw [Nat.mul_comm, Nat.div_div_eq_div_mul]
  have hmod : f % s.inner < s.inner := Nat.mod_lt f hinner
  rw [position_row s _ _ hmod, hrow, Nat.mul_comm (f / s.inner / s.batch), Nat.div_add_mod, Nat.mul_comm,
    Nat.div_add_mod]

/-- **Every position of the tensor belongs to one element of one group.** -/
theorem position_eq_iff (hb : b < s.batch) (hinner : 0 < s.inner) :
    s.position b k = f ↔
      b = f / s.inner % s.batch ∧ k = f / (s.batch * s.inner) * s.inner + f % s.inner := by
  constructor
  · rintro rfl
    exact ⟨(position_group hb hinner).symm, (position_index hb hinner).symm⟩
  · rintro ⟨rfl, rfl⟩
    exact position_of_index hinner

theorem position_injective {b' k' : Nat} (hb : b < s.batch) (hb' : b' < s.batch) (hinner : 0 < s.inner)
    (h : s.position b k = s.position b' k') : b = b' ∧ k = k' := by
  obtain ⟨hgroup, hindex⟩ := (position_eq_iff hb hinner).mp h
  rw [position_group hb' hinner] at hgroup
  rw [position_index hb' hinner] at hindex
  exact ⟨hgroup, hindex⟩

theorem position_lt (hb : b < s.batch) (hk : k < s.outer * s.inner) :
    s.position b k < s.outer * s.batch * s.inner := by
  have hinner : 0 < s.inner := Nat.pos_of_mul_pos_left (Nat.zero_lt_of_lt hk)
  have hrow : k / s.inner * s.batch + b < s.outer * s.batch := by
    have ho : k / s.inner + 1 ≤ s.outer := Nat.div_lt_of_lt_mul (by rwa [Nat.mul_comm])
    have hle := Nat.mul_le_mul_right s.batch ho
    rw [Nat.succ_mul] at hle
    omega
  have hle := Nat.mul_le_mul_right s.inner (Nat.succ_le_of_lt hrow)
  have hmod := Nat.mod_lt k hinner
  rw [Nat.succ_mul] at hle
  unfold position
  omega

theorem index_lt (hf : f < s.outer * s.batch * s.inner) :
    f / (s.batch * s.inner) * s.inner + f % s.inner < s.outer * s.inner := by
  have hinner : 0 < s.inner := Nat.pos_of_mul_pos_left (Nat.zero_lt_of_lt hf)
  have ho : f / (s.batch * s.inner) + 1 ≤ s.outer :=
    Nat.div_lt_of_lt_mul (by rwa [Nat.mul_comm, ← Nat.mul_assoc])
  have hle := Nat.mul_le_mul_right s.inner ho
  have hmod := Nat.mod_lt f hinner
  rw [Nat.succ_mul] at hle
  omega

theorem exists_position (hf : f < s.outer * s.batch * s.inner) :
    ∃ b < s.batch, ∃ k < s.outer * s.inner, s.position b k = f := by
  have hinner : 0 < s.inner := Nat.pos_of_mul_pos_left (Nat.zero_lt_of_lt hf)
  have hbatch : 0 < s.batch := Nat.pos_of_mul_pos_left (Nat.pos_of_mul_pos_right (Nat.zero_lt_of_lt hf))
  exact ⟨_, Nat.mod_lt _ hbatch, _, index_lt hf, position_of_index hinner⟩

/-! ## Checked sizes -/

namespace Fits

variable (h : s.Fits)

include h

theorem count_eq : s.count = .ok (s.outer * s.batch * s.inner) := by
  have hrow : s.outer * s.batch < sizeLimit :=
    Nat.lt_of_le_of_lt (Nat.le_mul_of_pos_right _ h.inner) h.count
  rw [Split.count, Checked.multiply_eq_ok hrow]
  exact Checked.multiply_eq_ok h.count

theorem groupSize_lt : s.outer * s.inner < sizeLimit := by
  have hle : s.outer * s.inner ≤ s.outer * s.batch * s.inner :=
    Nat.mul_le_mul_right _ (Nat.le_mul_of_pos_right _ h.batch)
  exact Nat.lt_of_le_of_lt hle h.count

theorem groupSize_eq : s.groupSize = .ok (s.outer * s.inner) := Checked.multiply_eq_ok h.groupSize_lt

theorem batch_lt : s.batch < sizeLimit := by
  have hle : s.batch ≤ s.outer * s.batch := Nat.le_mul_of_pos_left _ h.outer
  have hle' : s.outer * s.batch ≤ s.outer * s.batch * s.inner := Nat.le_mul_of_pos_right _ h.inner
  have hcount := h.count
  omega

theorem offset_eq (hb : b < s.batch) (hk : k < s.outer * s.inner) :
    s.offset b k = .ok (s.position b k) := by
  have hposition := Nat.lt_trans (position_lt hb hk) h.count
  unfold position at hposition
  have hrow : k / s.inner * s.batch + b < sizeLimit := by
    have hle := Nat.le_mul_of_pos_right (k / s.inner * s.batch + b) h.inner
    omega
  have hstart : k / s.inner * s.batch < sizeLimit := by omega
  have hlow : (k / s.inner * s.batch + b) * s.inner < sizeLimit := by omega
  rw [offset, Checked.divide, if_neg (Nat.ne_of_gt h.inner)]
  simp only [bind, Except.bind, Checked.multiply_eq_ok hstart, Checked.add_eq_ok hrow,
    Checked.multiply_eq_ok hlow]
  exact Checked.add_eq_ok hposition

end Fits

end AxisNorm.Split
