import AxisNorm.Proofs.Float.Identity
import AxisNorm.Proofs.Kernel.Finite
import AxisNorm.Proofs.Kernel.Groups

/-!
# Scale one and shift zero

With these an affine kernel computes what the kernel of the same description without scale and shift computes.
Its code reads four pointers and not two, and it rounds twice more.

* `Operator.plain`, `Descriptor.plain`: the description without scale and shift, and its descriptor
  (`Descriptor.ofOperator_plain`).
* `Inputs.result_of_factors`: a result is made of the plain result, a scale and a shift.
* `Launch.output_identity`: **a scale of one and a shift of zero leave all bits alone, except that a positive zero
  turns a negative one positive.**
-/

namespace AxisNorm

open Code Memory Normalization

/-- The same description without scale and shift. -/
def Operator.plain (op : Operator) : Operator := { op with tensors := op.tensors.take 2 }

namespace Descriptor

/-- The descriptor without scale and shift. -/
def plain (d : Descriptor) : Descriptor := { d with operator := d.operator.plain, affine := false }

variable {op : Operator} {d : Descriptor}

theorem complete_plain {s : Split} {type : ElementType} (h : complete op s type true = .ok d) :
    complete op.plain s type false = .ok d.plain := by
  obtain ⟨e, he, h⟩ := bind_eq_ok_iff.mp h
  obtain ⟨n, hn, h⟩ := bind_eq_ok_iff.mp h
  obtain ⟨u, hu, h⟩ := bind_eq_ok_iff.mp h
  cases h
  exact bind_eq_ok_iff.mpr ⟨e, he, bind_eq_ok_iff.mpr ⟨n, hn, bind_eq_ok_iff.mpr ⟨u, hu, rfl⟩⟩⟩

theorem ofOperator_plain (h : ofOperator op = .ok d) (haffine : d.affine = true) :
    ofOperator op.plain = .ok d.plain := by
  obtain ⟨u, hkind, h⟩ := bind_eq_ok_iff.mp h
  obtain ⟨v, hmode, h⟩ := bind_eq_ok_iff.mp h
  refine bind_eq_ok_iff.mpr ⟨u, hkind, bind_eq_ok_iff.mpr ⟨v, hmode, ?_⟩⟩
  split at h
  · obtain ⟨_, -, h⟩ := bind_eq_ok_iff.mp h
    obtain ⟨_, _, -, -, rfl⟩ := eq_of_complete h
    cases haffine
  · next src dst alpha beta htensors =>
    obtain ⟨s, hs, h⟩ := bind_eq_ok_iff.mp h
    obtain ⟨n, -, h⟩ := bind_eq_ok_iff.mp h
    obtain ⟨-, -, h⟩ := bind_eq_ok_iff.mp h
    obtain ⟨-, -, h⟩ := bind_eq_ok_iff.mp h
    have hplain : op.plain.tensors = [src, dst] := congrArg (List.take 2) htensors
    rw [hplain]
    exact bind_eq_ok_iff.mpr ⟨s, hs, complete_plain h⟩
  · cases h

end Descriptor

namespace Inputs

variable {i : Inputs} {s : Split} {b k : Nat}

theorem result_of_factors {f : Nat → Single × Single} (h : i.factors = some f) :
    i.result s b k = { i with factors := none }.result s b k * (f k).1 + (f k).2 := by
  rw [result, h]
  rfl

theorem isQuiet_result (h : i.factors = none) : (i.result s b k).IsQuiet :=
  result_of_none h ▸ Single.isQuiet_mul _ _

end Inputs

namespace Launch

variable {d : Descriptor}

theorem exists_factors (x : Launch d) (haffine : d.affine = true) : ∃ f, x.factors = some f := by
  have hsome : x.factors.isSome = d.affine := x.placed.holds.affine
  exact Option.isSome_iff_exists.mp (hsome.trans haffine)

theorem result_eq {x : Launch d.plain} {y : Launch d} {f : Nat → Single × Single} (hf : y.factors = some f)
    (hsource : ∀ e < d.split.outer * d.split.batch * d.split.inner, y.source e = x.source e) {b k : Nat}
    (hb : b < d.split.batch) (hk : k < d.split.outer * d.split.inner) :
    (d.inputs y.source y.factors).result d.split b k =
      (d.plain.inputs x.source x.factors).result d.split b k * (f k).1 + (f k).2 := by
  rw [Inputs.result_of_factors hf]
  congr 2
  refine Inputs.result_congr rfl (fun j hj => hsource _ (Split.position_lt hb hj)) hk ?_
  exact congrArg (Option.map (· k)) (x.factors_eq_none rfl).symm

/-- **A scale of one and a shift of zero leave all bits alone, except that a positive zero turns a negative one
positive.** The launches may differ in everything but the description and the source; only one of them has scale
and shift. -/
theorem output_identity {op : Operator} (hd : Descriptor.ofOperator op = .ok d) (haffine : d.affine = true) :
    Descriptor.ofOperator op.plain = .ok d.plain ∧ ∀ (x : Launch d.plain) (y : Launch d),
      (∀ e < d.split.outer * d.split.batch * d.split.inner, y.source e = x.source e) →
      x.run.succeeded = true ∧ y.run.succeeded = true ∧
      ∀ b < d.split.batch, ∀ k < d.split.outer * d.split.inner, ∃ e, d.split.offset b k = .ok e ∧
        let r := (d.plain.inputs x.source x.factors).result d.split b k
        x.output e = some (d.dstType.stored r) ∧
        ((∀ f ∈ y.factors, ∀ k < d.split.outer * d.split.inner, f k = (.one, .zero)) →
          y.output e = some (d.dstType.stored (if r = .negativeZero then .zero else r))) ∧
        ((∀ f ∈ y.factors, ∀ k < d.split.outer * d.split.inner, f k = (.one, .negativeZero)) →
          y.output e = x.output e) := by
  refine ⟨Descriptor.ofOperator_plain hd haffine, fun x y hsource => ⟨x.succeeded, y.succeeded, fun b hb k hk => ?_⟩⟩
  obtain ⟨f, hf⟩ := y.exists_factors haffine
  have hx := x.output_position (b := b) (k := k) hb hk
  have hy := y.output_position hb hk
  rw [result_eq hf hsource hb hk] at hy
  have hquiet := Inputs.isQuiet_result (s := d.split) (b := b) (k := k)
    (show (d.plain.inputs x.source x.factors).factors = none from x.factors_eq_none rfl)
  refine ⟨_, (Kernel.descriptor_fits hd).offset_eq hb hk, hx, fun hfactors => ?_, fun hfactors => ?_⟩
  · rw [hy, hfactors f hf k hk, Single.mul_one_of_isQuiet hquiet, Single.add_zero_of_isQuiet hquiet]
  · rw [hy, hfactors f hf k hk, Single.mul_one_of_isQuiet hquiet, Single.add_negativeZero_of_isQuiet hquiet]
    exact hx.symm

/-! ### A group of two negative zeros -/

/-- The small case with scale and shift. -/
def affineRow : Operator :=
  { Kernel.matrix 1 2 with tensors := (Kernel.matrix 1 2).tensors ++ [⟨[2], .float32⟩, ⟨[2], .float32⟩] }

/-- The runtime data of a run with scale and shift. -/
def affineRowData : RuntimeData := ⟨0x1020, [0x3000, 0x2000, 0x7000, 0x8000]⟩

/-- The inputs of a group of two negative zeros, with a scale of one and a given shift. -/
def affineRowInputs (shift : Single) : Inputs :=
  { rowInputs .negativeZero .negativeZero with factors := some fun _ => (.one, shift) }

def affineRowCells (shift : Single) : List Cell :=
  rowCells .negativeZero .negativeZero ++
    [⟨0x1020, 8, 0x3000⟩, ⟨0x1028, 8, 0x2000⟩, ⟨0x1030, 8, 0x7000⟩, ⟨0x1038, 8, 0x8000⟩,
     ⟨0x7000, 4, 0x3f800000⟩, ⟨0x7004, 4, 0x3f800000⟩, ⟨0x8000, 4, shift.bits.toNat⟩,
     ⟨0x8004, 4, shift.bits.toNat⟩]

theorem load?_affineRow {shift : Single} {a : UInt64} {n v : Nat} (h : ⟨a, n, v⟩ ∈ affineRowCells shift) :
    (ofCells (affineRowCells shift)).load? a n = some v := by
  refine load?_ofCells (fun c hc => ?_) (of_decide_eq_true rfl) h
  have hshift := shift.bits.toNat_lt
  rcases List.mem_append.mp hc with hc | hc
  · exact (by decide : ∀ c ∈ rowCells .negativeZero .negativeZero, c.Fits) c hc
  · simp only [List.mem_cons, List.not_mem_nil, or_false] at hc
    rcases hc with rfl | rfl | rfl | rfl | rfl | rfl | rfl | rfl <;> simp [Cell.Fits] <;> omega

theorem mem_affineRow {shift : Single} {c : Cell} (h : c ∈ rowCells .negativeZero .negativeZero) :
    c ∈ affineRowCells shift := List.mem_append_left _ h

theorem placed_affineRow (shift : Single) : Placed { row with affine := true } affineRowData
    (affineRowInputs shift) (ofCells (affineRowCells shift)) where
  pointers role hrole v hv := by
    have hcells : ∀ role ∈ Role.used true, ∀ v, affineRowData.pointers[role.index]? = some v →
        (⟨0x1020 + UInt64.ofNat (8 * role.index), 8, v.toNat⟩ : Cell) ∈ affineRowCells shift := by
      simp [Role.used, Role.index, affineRowData, affineRowCells]
    exact load?_affineRow (hcells role hrole v hv)
  holds := {
    source := fun e he => load?_affineRow (mem_affineRow ((by decide : ∀ e < 2,
      (⟨elementAddress (affineRowData.pointer .src) 4 e, 4,
          ((rowInputs .negativeZero .negativeZero).source e).bits.toNat⟩ : Cell) ∈
        rowCells .negativeZero .negativeZero) e he))
    affine := rfl
    factors := fun f hf k hk => by
      cases hf
      rcases (by decide : ∀ k < 2, k = 0 ∨ k = 1) k hk with rfl | rfl
      · exact ⟨load?_affineRow (a := 0x7000) (by simp [affineRowCells, Single.one]),
          load?_affineRow (a := 0x8000) (by simp [affineRowCells])⟩
      · exact ⟨load?_affineRow (a := 0x7004) (by simp [affineRowCells, Single.one]),
          load?_affineRow (a := 0x8004) (by simp [affineRowCells])⟩
    reciprocal := fun b hb => load?_affineRow (mem_affineRow ((by decide : ∀ b < 1,
      (⟨elementAddress 0x4000 4 b, 4, 0x3f000000⟩ : Cell) ∈ rowCells .negativeZero .negativeZero) b hb))
    epsilon := fun b hb => load?_affineRow (mem_affineRow ((by decide : ∀ b < 1,
      (⟨elementAddress 0x5000 4 b, 4, 0x3727c5ac⟩ : Cell) ∈ rowCells .negativeZero .negativeZero) b hb))
    one := fun b hb => load?_affineRow (mem_affineRow ((by decide : ∀ b < 1,
      (⟨elementAddress 0x6000 4 b, 4, 0x3f800000⟩ : Cell) ∈ rowCells .negativeZero .negativeZero) b hb))
    destination := fun e he => mapped_of_load? (load?_affineRow (mem_affineRow ((by decide : ∀ e < 2,
      (⟨elementAddress 0x2000 4 e, 4, 7⟩ : Cell) ∈ rowCells .negativeZero .negativeZero) e he))) }
  apart := {
    source := fun e he e' he' _ => source_apart_row he he'
    factor := fun _ k hk e he => ⟨disjoint_row (.inr ((by decide : ∀ k < 2,
        0x2008 ≤ (elementAddress 0x7000 4 k).toNat ∧ (elementAddress 0x7000 4 k).toNat + 4 ≤ 2 ^ 64) k hk)) he,
      disjoint_row (.inr ((by decide : ∀ k < 2,
        0x2008 ≤ (elementAddress 0x8000 4 k).toNat ∧ (elementAddress 0x8000 4 k).toNat + 4 ≤ 2 ^ 64) k hk)) he⟩
    constant := fun c b hb e he => by
      obtain rfl : b = 0 := Nat.lt_one_iff.mp hb
      exact disjoint_row (.inr (by cases c <;> decide)) he }
  pointersApart role hrole e he := disjoint_row (.inl ((by decide : ∀ role ∈ Role.used true,
    ((0x1020 : UInt64) + UInt64.ofNat (8 * role.index)).toNat + 8 ≤ 0x2000) role hrole)) he

theorem exists_affineRow : ∃ d, Descriptor.ofOperator affineRow = .ok d ∧
    d.parameters row.constants = { row with affine := true } ∧ ∀ shift, ∃ y : Launch d,
      (∀ e < 2, y.source e = .negativeZero) ∧ ∀ f ∈ y.factors, ∀ k, f k = (.one, shift) := by
  obtain ⟨d, hd, hp⟩ : ∃ d, Descriptor.ofOperator affineRow = .ok d ∧
      d.parameters row.constants = { row with affine := true } := ⟨_, rfl, rfl⟩
  have hsplit : d.split = ⟨1, 1, 2⟩ := congrArg Parameters.split hp
  have haffine : d.affine = true := congrArg Parameters.affine hp
  obtain ⟨e, he, -, hconstants⟩ := exists_descriptor_row
  obtain rfl : e = d.plain := Except.ok.inj (he.symm.trans (Descriptor.ofOperator_plain hd haffine))
  refine ⟨d, hd, hp, fun shift => ?_⟩
  have hm : Placed (d.parameters row.constants) affineRowData
      (d.inputs (affineRowInputs shift).source (affineRowInputs shift).factors) (ofCells (affineRowCells shift)) := by
    rw [hp]
    exact (placed_affineRow shift).congr rfl rfl fun b hb => hconstants b hb (affineRowInputs shift).source none
      .zero .zero
  have hone : effectiveThreads 1 d.split.groupCount = 1 := by rw [hsplit]; decide
  obtain ⟨y, -, -, hsource, hfactors⟩ := exists_of_placed hd (hone ▸ (Workers.sequential 1 false).starts_one)
    (by rw [hone]; decide) (by rw [hsplit]; decide) hm (by rw [haffine]; decide) (by rw [haffine]; decide) []
  refine ⟨y, fun e _ => ?_, fun f hf k => ?_⟩
  · rw [hsource]
    exact ite_self _
  · rw [hfactors] at hf
    cases hf
    rfl

/-- Two negative zeros stay negative without scale and shift and with a shift of a negative zero, and turn
positive with a shift of a positive one. -/
theorem output_identity_row : ∃ d, Descriptor.ofOperator affineRow = .ok d ∧ d.affine = true ∧
    ∃ x : Launch d.plain, x.output 0 = some 0x80000000 ∧
      (∃ y : Launch d, (∀ f ∈ y.factors, ∀ k, f k = (.one, .zero)) ∧ y.output 0 = some 0) ∧
      ∃ y : Launch d, (∀ f ∈ y.factors, ∀ k, f k = (.one, .negativeZero)) ∧ y.output 0 = some 0x80000000 := by
  obtain ⟨d, hd, hp, hlaunch⟩ := exists_affineRow
  have hsplit : d.split = ⟨1, 1, 2⟩ := congrArg Parameters.split hp
  have htype : d.dstType = .float32 := congrArg Parameters.dstType hp
  have haffine : d.affine = true := congrArg Parameters.affine hp
  obtain ⟨hplain, houtput⟩ := output_identity hd haffine
  obtain ⟨e, he, -, hrow⟩ := exists_row
  obtain rfl : e = d.plain := Except.ok.inj (he.symm.trans hplain)
  obtain ⟨x, hx, hx', hgroup, hconstants⟩ := hrow .negativeZero .negativeZero
  have hresult : (d.plain.inputs x.source x.factors).result d.split 0 0 = .negativeZero := by
    have hsource : (d.plain.inputs x.source x.factors).source (d.split.position 0 0) = .negativeZero := by
      rw [hsplit]
      exact hx
    rw [Inputs.result_of_none (x.factors_eq_none rfl), hconstants, hsource,
      show Inputs.group _ d.split 0 = [.negativeZero, .negativeZero] from hgroup]
    decide +kernel
  have hidentity (y : Launch d) (hy : ∀ e < 2, y.source e = .negativeZero) := by
    refine (houtput x y fun e he => ?_).2.2 0 (by rw [hsplit]; decide) 0 (by rw [hsplit]; decide)
    rw [hsplit] at he
    rcases (by decide : ∀ e < 2, e = 0 ∨ e = 1) e he with rfl | rfl
    · exact (hy 0 (by decide)).trans hx.symm
    · exact (hy 1 (by decide)).trans hx'.symm
  have hzero : d.split.offset 0 0 = .ok 0 := by
    rw [hsplit]
    rfl
  obtain ⟨y, hy, hfactors⟩ := hlaunch .zero
  obtain ⟨y', hy', hfactors'⟩ := hlaunch .negativeZero
  obtain ⟨e, he, hplain, hpositive, -⟩ := hidentity y hy
  obtain ⟨e', he', -, -, hnegative⟩ := hidentity y' hy'
  cases hzero.symm.trans he
  cases hzero.symm.trans he'
  rw [hresult, htype] at hplain hpositive
  refine ⟨d, hd, haffine, x, hplain, ⟨y, hfactors, hpositive fun f hf k _ => hfactors f hf k⟩, y', hfactors', ?_⟩
  exact (hnegative fun f hf k _ => hfactors' f hf k).trans hplain

end Launch

end AxisNorm
