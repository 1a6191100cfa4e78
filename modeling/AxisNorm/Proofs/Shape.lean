import AxisNorm.Proofs.Split
import Mathlib.Algebra.BigOperators.Group.List.Lemmas

/-!
# Shapes that have a split

* `Shape.Splits`: what a shape has to satisfy to be split at an axis.
* `Shape.SplitFault`: the first thing that is wrong with another one.
* `Split.ofShape_eq_ok_iff`, `Split.ofShape_fault`: **`Split.ofShape` splits exactly these shapes, and
  says of the others what is wrong.**
* `Split.Divides`: the extents of a split are exact, and no product that is formed of them overflows.
-/

namespace AxisNorm

theorem Checked.eq_of_productFrom {start n : Nat} {ds : List Nat} (h : productFrom start ds = .ok n) :
    n = start * ds.prod := by
  induction ds generalizing start with
  | nil =>
    cases h
    rw [List.prod_nil, Nat.mul_one]
  | cons d ds ih =>
    obtain ⟨m, hm, h⟩ := bind_eq_ok_iff.mp h
    obtain ⟨rfl, -⟩ := multiply_eq_ok_iff.mp hm
    rw [ih h, List.prod_cons, Nat.mul_assoc]

namespace Shape

variable {shape : Shape} {axis n : Nat}

theorem count?_eq_some_iff (hpos : ∀ d ∈ shape, 0 < d) :
    shape.count? = some n ↔ n = shape.prod ∧ shape.prod < sizeLimit := by
  rw [← Checked.product_eq_ok_iff hpos, count?]
  cases Checked.product shape <;> simp [Except.toOption]

/-- Of positive counts the exact one is the checked one, if it is a size. Zero extents may hide an
overflow, but they make no count positive. -/
theorem count?_eq_some_pos_iff (hn : 0 < n) (hlt : n < sizeLimit) :
    shape.count? = some n ↔ shape.prod = n := by
  constructor
  · intro h
    unfold count? at h
    cases hproduct : Checked.product shape with
    | error e => rw [hproduct] at h; cases h
    | ok m =>
      rw [hproduct] at h
      cases h
      rw [Checked.eq_of_productFrom hproduct, Nat.one_mul]
  · rintro rfl
    have hpos : ∀ d ∈ shape, 0 < d := List.prod_pos_iff_forall_pos_nat.mp hn
    exact (count?_eq_some_iff hpos).mpr ⟨rfl, hlt⟩

/-- A shape that can be split at an axis. -/
structure Splits (shape : Shape) (axis : Nat) : Prop where
  rank : 2 ≤ shape.length
  axis : axis < shape.length
  pos : ∀ d ∈ shape, 0 < d
  count : shape.prod < sizeLimit

/-- The first thing that is wrong with a shape that cannot be split at an axis. -/
inductive SplitFault (shape : Shape) (axis : Nat) : ShapeError → Prop
  | rank (hrank : shape.length < 2) : SplitFault shape axis (.rankTooSmall shape.length)
  | axis (hrank : 2 ≤ shape.length) (haxis : shape.length ≤ axis) :
    SplitFault shape axis (.batchAxisOutOfRange axis shape.length)
  | zero (hrank : 2 ≤ shape.length) (haxis : axis < shape.length) (i : Nat) (hzero : shape[i]? = some 0)
    (hfirst : ∀ j < i, shape[j]? ≠ some 0) : SplitFault shape axis (.zeroExtent i shape)
  | overflow (hrank : 2 ≤ shape.length) (haxis : axis < shape.length) (hpos : ∀ d ∈ shape, 0 < d)
    (hcount : sizeLimit ≤ shape.prod) : SplitFault shape axis (.overflow shape)

theorem Splits.product_eq {ds : List Nat} (h : shape.Splits axis) (hds : ds.Sublist shape) :
    Checked.product ds = .ok ds.prod := by
  have hprod : 0 < shape.prod := List.prod_pos_iff_forall_pos_nat.mpr h.pos
  have hle : ds.prod ≤ shape.prod := Nat.le_of_dvd hprod hds.prod_dvd_prod
  exact (Checked.product_eq_ok_iff fun d hd => h.pos d (hds.mem hd)).mpr ⟨rfl, Nat.lt_of_le_of_lt hle h.count⟩

theorem Splits.perm {shape' : Shape} {axis' : Nat} (h : shape.Splits axis) (hp : shape'.Perm shape)
    (haxis : axis' < shape'.length) : shape'.Splits axis' where
  rank := hp.length_eq ▸ h.rank
  axis := haxis
  pos d hd := h.pos d (hp.mem_iff.mp hd)
  count := hp.prod_eq ▸ h.count

theorem eraseIdx_prod : (shape.eraseIdx axis).prod = (shape.take axis).prod * (shape.drop (axis + 1)).prod := by
  rw [List.eraseIdx_eq_take_drop_succ, List.prod_append]

end Shape

namespace Split

variable {shape : Shape} {axis : Nat} {s : Split}

theorem ofShape_of_splits (h : shape.Splits axis) : ∃ s, ofShape shape axis = .ok s := by
  have hrank : ¬ shape.length < 2 := by
    have hrank := h.rank
    omega
  have hzero : shape.findIdx? (· == 0) = none := by
    rw [List.findIdx?_eq_none_iff]
    intro d hd
    have hpos := h.pos d hd
    simpa using Nat.ne_of_gt hpos
  have hcount : shape.count? = some shape.prod := (Shape.count?_eq_some_iff h.pos).mpr ⟨rfl, h.count⟩
  unfold ofShape
  rw [if_neg hrank]
  simp only [List.getElem?_eq_getElem h.axis, hzero, hcount, h.product_eq (List.take_sublist _ _),
    h.product_eq (List.drop_sublist _ _)]
  exact ⟨_, rfl⟩

/-- **The shapes that are split.** -/
theorem ofShape_eq_ok_iff : ofShape shape axis = .ok s ↔ shape.Splits axis ∧ shape[axis]? = some s.batch ∧
    s.outer = (shape.take axis).prod ∧ s.inner = (shape.drop (axis + 1)).prod := by
  constructor
  · intro h
    obtain ⟨hbatch, hpos, hlt, houter, hinner⟩ := ofShape_eq_ok h
    obtain ⟨haxis, -⟩ := List.getElem?_eq_some_iff.mp hbatch
    have hrank : 2 ≤ shape.length := by
      unfold ofShape at h
      split at h
      · cases h
      · omega
    exact ⟨⟨hrank, haxis, hpos, hlt⟩, hbatch, houter, hinner⟩
  · rintro ⟨h, hbatch, houter, hinner⟩
    obtain ⟨s', hs'⟩ := ofShape_of_splits h
    obtain ⟨hbatch', -, -, houter', hinner'⟩ := ofShape_eq_ok hs'
    rw [hs']
    obtain ⟨outer, batch, inner⟩ := s
    obtain ⟨outer', batch', inner'⟩ := s'
    dsimp only at hbatch houter hinner hbatch' houter' hinner'
    rw [hbatch'] at hbatch
    rw [houter, hinner, houter', hinner', Option.some.inj hbatch]

/-- **What is wrong with the other shapes.** -/
theorem ofShape_fault (h : ¬ shape.Splits axis) :
    ∃ cause, shape.SplitFault axis cause ∧ ofShape shape axis = .error (.error cause) := by
  unfold ofShape
  by_cases hrank : shape.length < 2
  · rw [if_pos hrank]
    exact ⟨_, .rank hrank, rfl⟩
  rw [if_neg hrank]
  have hrank : 2 ≤ shape.length := by omega
  cases hbatch : shape[axis]? with
  | none => exact ⟨_, .axis hrank (List.getElem?_eq_none_iff.mp hbatch), rfl⟩
  | some batch =>
    obtain ⟨haxis, -⟩ := List.getElem?_eq_some_iff.mp hbatch
    dsimp only
    cases hzero : shape.findIdx? (· == 0) with
    | some i =>
      obtain ⟨hi, hat, hbefore⟩ := List.findIdx?_eq_some_iff_getElem.mp hzero
      refine ⟨_, .zero hrank haxis i ?_ fun j hj hat' => ?_, rfl⟩
      · rw [List.getElem?_eq_getElem hi]
        simpa using hat
      · obtain ⟨hj', hat'⟩ := List.getElem?_eq_some_iff.mp hat'
        exact absurd hat' (by simpa using hbefore j hj)
    | none =>
      have hpos : ∀ d ∈ shape, 0 < d := by
        rw [List.findIdx?_eq_none_iff] at hzero
        intro d hd
        simpa [Nat.pos_iff_ne_zero] using hzero d hd
      have hcount : sizeLimit ≤ shape.prod := by
        by_contra hlt
        exact h ⟨hrank, haxis, hpos, by omega⟩
      have hnone : shape.count? = none := by
        cases hsome : shape.count? with
        | none => rfl
        | some n =>
          have hlt := ((Shape.count?_eq_some_iff hpos).mp hsome).2
          omega
      rw [hnone]
      exact ⟨_, .overflow hrank haxis hpos hcount, rfl⟩

/-! ## The extents of a split -/

/-- The extents are the products before, at and after the axis, and no product that is formed of them
overflows. -/
structure Divides (s : Split) (shape : Shape) (axis : Nat) : Prop where
  outer : s.outer = (shape.take axis).prod
  batch : shape[axis]? = some s.batch
  inner : s.inner = (shape.drop (axis + 1)).prod
  pos : 0 < s.outer ∧ 0 < s.batch ∧ 0 < s.inner
  product : s.outer * s.batch * s.inner = shape.prod
  whole : Checked.product shape = .ok shape.prod
  before : Checked.product (shape.take axis) = .ok s.outer
  after : Checked.product (shape.drop (axis + 1)) = .ok s.inner
  groupSize : s.groupSize = .ok (s.outer * s.inner)
  count : s.count = .ok shape.prod

theorem divides_of_ofShape (h : ofShape shape axis = .ok s) : s.Divides shape axis := by
  have hfits := fits_of_ofShape h
  obtain ⟨hsplits, hbatch, houter, hinner⟩ := ofShape_eq_ok_iff.mp h
  have hproduct : s.outer * s.batch * s.inner = shape.prod := prod_of_ofShape h
  exact {
    outer := houter
    batch := hbatch
    inner := hinner
    pos := ⟨hfits.outer, hfits.batch, hfits.inner⟩
    product := hproduct
    whole := hsplits.product_eq (List.Sublist.refl shape)
    before := houter ▸ hsplits.product_eq (List.take_sublist axis shape)
    after := hinner ▸ hsplits.product_eq (List.drop_sublist (axis + 1) shape)
    groupSize := hfits.groupSize_eq
    count := hproduct ▸ hfits.count_eq }

/-- **A shape is split at an axis exactly if it has two axes, that axis among them, no zero extent, and a
number of elements that is a size; of any other shape the first thing that is wrong with it is reported.**
No arithmetic stops, and the order of the extents bears neither on this nor on the number of elements. -/
theorem ofShape_outcome (shape : Shape) (axis : Nat) :
    ((∃ s, ofShape shape axis = .ok s) ↔ shape.Splits axis) ∧
    (¬ shape.Splits axis → ∃ cause, shape.SplitFault axis cause ∧ ofShape shape axis = .error (.error cause)) ∧
    (∀ s, ofShape shape axis = .ok s → s.Divides shape axis) ∧
    ∀ (shape' : Shape) (axis' : Nat), shape'.Perm shape → (axis' < shape'.length ↔ axis < shape.length) →
      ((∃ s', ofShape shape' axis' = .ok s') ↔ ∃ s, ofShape shape axis = .ok s) ∧
      ∀ s s', ofShape shape axis = .ok s → ofShape shape' axis' = .ok s' → s'.count = s.count := by
  have hiff (shape : Shape) (axis : Nat) : (∃ s, ofShape shape axis = .ok s) ↔ shape.Splits axis :=
    ⟨fun ⟨_, hs⟩ => (ofShape_eq_ok_iff.mp hs).1, ofShape_of_splits⟩
  refine ⟨hiff shape axis, ofShape_fault, fun s hs => divides_of_ofShape hs, ?_⟩
  intro shape' axis' hp haxis
  constructor
  · rw [hiff, hiff]
    exact ⟨fun h => h.perm hp.symm (haxis.mp h.axis), fun h => h.perm hp (haxis.mpr h.axis)⟩
  · intro s s' hs hs'
    rw [(divides_of_ofShape hs).count, (divides_of_ofShape hs').count, hp.prod_eq]

/-- A shape whose number of elements is the largest size, in two orders; one more is too many. -/
theorem ofShape_outcome_largest :
    (∃ s, ofShape [4294967297, 1, 4294967295] 1 = .ok s ∧ s.count = .ok (2 ^ 64 - 1)) ∧
      (∃ s, ofShape [4294967295, 4294967297, 1] 0 = .ok s ∧ s.count = .ok (2 ^ 64 - 1)) ∧
      ofShape [4294967296, 1, 4294967296] 1 = .error (.error (.overflow [4294967296, 1, 4294967296])) := by
  obtain ⟨hiff, -, hdivides, hperm⟩ := ofShape_outcome [4294967297, 1, 4294967295] 1
  have hsplits : Shape.Splits [4294967297, 1, 4294967295] 1 := ⟨by decide, by decide, by decide, by decide⟩
  obtain ⟨s, hs⟩ := hiff.mpr hsplits
  have hcount : s.count = .ok (2 ^ 64 - 1) := (hdivides s hs).count
  have hp : List.Perm [4294967295, 4294967297, 1] [4294967297, 1, 4294967295] := by decide
  obtain ⟨hsame, hcounts⟩ := hperm _ 0 hp (by decide)
  obtain ⟨s', hs'⟩ := hsame.mpr ⟨s, hs⟩
  refine ⟨⟨s, hs, hcount⟩, ⟨s', hs', (hcounts s s' hs hs').trans hcount⟩, ?_⟩
  obtain ⟨-, hfault, -, -⟩ := ofShape_outcome [4294967296, 1, 4294967296] 1
  obtain ⟨cause, hcause, herror⟩ := hfault fun h => absurd h.count (by decide)
  cases hcause with
  | rank hrank => exact absurd hrank (by decide)
  | axis _ haxis => exact absurd haxis (by decide)
  | zero _ _ i hzero => exact absurd (List.mem_of_getElem? hzero) (by decide)
  | overflow => exact herror

end Split

end AxisNorm
