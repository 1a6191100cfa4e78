import AxisNorm.Proofs.Split
import Mathlib.Data.List.Forall2
import Mathlib.Tactic.Ring

/-!
# The split of a shape as its row-major layout

A multi-index names an element of the tensor. Without its coordinate on the batch axis it names an
element of a group, in the shape without that axis.

* `Shape.flatIndex_append`: the axes before and after a place contribute apart.
* `Split.offset_rowMajor`: **an element lies where the row-major order of the whole shape has it, if the
  elements of its group are counted in the row-major order of the other axes.**
-/

namespace AxisNorm

namespace Shape

variable {shape shape' : Shape} {index index' : List Nat} {axis : Nat}

theorem flatIndex_cons (d : Nat) (shape : Shape) (j : Nat) (index : List Nat) :
    flatIndex (d :: shape) (j :: index) = j * shape.prod + flatIndex shape index := by
  rw [flatIndex, List.prod_eq_foldr]

theorem flatIndex_append (h : index.length = shape.length) :
    flatIndex (shape ++ shape') (index ++ index') =
      flatIndex shape index * shape'.prod + flatIndex shape' index' := by
  induction shape generalizing index with
  | nil =>
    obtain rfl := List.length_eq_zero_iff.mp h
    show flatIndex shape' index' = 0 * shape'.prod + flatIndex shape' index'
    rw [Nat.zero_mul, Nat.zero_add]
  | cons d shape ih =>
    cases index with
    | nil => cases h
    | cons j index =>
      rw [List.cons_append, List.cons_append, flatIndex_cons, flatIndex_cons, ih (Nat.succ.inj h),
        List.prod_append]
      ring

theorem flatIndex_lt (h : List.Forall₂ (· < ·) index shape) : flatIndex shape index < shape.prod := by
  induction h with
  | nil => exact Nat.one_pos
  | @cons j d index shape hj _ ih =>
    have hle : (j + 1) * shape.prod ≤ d * shape.prod := Nat.mul_le_mul_right _ hj
    rw [Nat.succ_mul] at hle
    rw [flatIndex_cons, List.prod_cons]
    omega

section

variable (h : index.length = shape.length) (haxis : axis < shape.length) (haxis' : axis < index.length)

include h

theorem length_take_eq : (index.take axis).length = (shape.take axis).length := by
  rw [List.length_take, List.length_take, h]

theorem flatIndex_eq_around : flatIndex shape index =
    (flatIndex (shape.take axis) (index.take axis) * shape[axis] + index[axis]) *
      (shape.drop (axis + 1)).prod + flatIndex (shape.drop (axis + 1)) (index.drop (axis + 1)) := by
  conv_lhs => rw [← List.take_append_drop axis shape, ← List.take_append_drop axis index]
  rw [flatIndex_append (length_take_eq h), List.drop_eq_getElem_cons haxis,
    List.drop_eq_getElem_cons haxis', flatIndex_cons, List.prod_cons]
  ring

theorem flatIndex_eraseIdx : flatIndex (shape.eraseIdx axis) (index.eraseIdx axis) =
    flatIndex (shape.take axis) (index.take axis) * (shape.drop (axis + 1)).prod +
      flatIndex (shape.drop (axis + 1)) (index.drop (axis + 1)) := by
  rw [List.eraseIdx_eq_take_drop_succ, List.eraseIdx_eq_take_drop_succ, flatIndex_append (length_take_eq h)]

end

end Shape

namespace Split

variable {shape : Shape} {axis : Nat} {s : Split}

/-- **An element lies where the row-major order of its shape has it.** Its group is its coordinate on the
batch axis, and its number in the group is its place in the row-major order of the other axes. -/
theorem offset_rowMajor (h : ofShape shape axis = .ok s) {index : List Nat}
    (hindex : List.Forall₂ (· < ·) index shape) : ∃ b, index[axis]? = some b ∧
      s.offset b (Shape.flatIndex (shape.eraseIdx axis) (index.eraseIdx axis)) =
        .ok (Shape.flatIndex shape index) := by
  obtain ⟨hbatch, -, -, houter, hinner⟩ := ofShape_eq_ok h
  obtain ⟨haxis, hbatch⟩ := List.getElem?_eq_some_iff.mp hbatch
  have hfits := fits_of_ofShape h
  have hlength : index.length = shape.length := hindex.length_eq
  have haxis' : axis < index.length := hlength ▸ haxis
  have hb : index[axis] < s.batch := hbatch ▸ hindex.get haxis' haxis
  have hrow : Shape.flatIndex (shape.take axis) (index.take axis) < s.outer :=
    houter ▸ Shape.flatIndex_lt (List.forall₂_take axis hindex)
  have hplace : Shape.flatIndex (shape.drop (axis + 1)) (index.drop (axis + 1)) < s.inner :=
    hinner ▸ Shape.flatIndex_lt (List.forall₂_drop (axis + 1) hindex)
  have hk : Shape.flatIndex (shape.eraseIdx axis) (index.eraseIdx axis) < s.outer * s.inner := by
    have hle := Nat.mul_le_mul_right s.inner hrow
    rw [Nat.succ_mul] at hle
    rw [Shape.flatIndex_eraseIdx hlength, ← hinner]
    omega
  refine ⟨index[axis], List.getElem?_eq_getElem haxis', ?_⟩
  rw [hfits.offset_eq hb hk, Shape.flatIndex_eraseIdx hlength, ← hinner, position_row s _ _ hplace,
    Shape.flatIndex_eq_around hlength haxis haxis', hbatch, hinner]

/-- An element of a tensor of rank four, with two axes before the batch axis and one after it. -/
theorem offset_rowMajor_rank_four :
    ofShape [2, 3, 4, 5] 2 = .ok ⟨6, 4, 5⟩ ∧ List.Forall₂ (· < ·) [1, 2, 3, 4] [2, 3, 4, 5] ∧
      Shape.flatIndex [2, 3, 5] [1, 2, 4] = 29 ∧ Shape.flatIndex [2, 3, 4, 5] [1, 2, 3, 4] = 119 ∧
      offset ⟨6, 4, 5⟩ 3 29 = .ok 119 := by
  have hshape : ofShape [2, 3, 4, 5] 2 = .ok ⟨6, 4, 5⟩ := rfl
  have hindex : List.Forall₂ (· < ·) [1, 2, 3, 4] [2, 3, 4, 5] := by simp
  obtain ⟨b, hb, hoffset⟩ := offset_rowMajor hshape hindex
  obtain rfl : 3 = b := Option.some.inj hb
  exact ⟨hshape, hindex, rfl, rfl, hoffset⟩

end Split

end AxisNorm
