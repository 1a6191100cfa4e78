import AxisNorm.Proofs.Constants
import AxisNorm.Proofs.Kernel.Executable
import AxisNorm.Proofs.Kernel.Outcome

/-!
# Launches of kernels

* `Descriptor.inputs`: what the kernels of a descriptor read, with sound constants
  (`Descriptor.sound_constants`).
* `Launch`: a kernel of a descriptor, in a memory that is ready for it, under a schedule.
* `Launch.succeeded`, `Launch.output_position`: **a launch succeeds, and leaves the results of all groups.**
* `Launch.exists_of_placed`: there are launches; `Launch.exists_row` has one for any group of two numbers.
-/

namespace AxisNorm

open Code Memory Normalization

/-- What the kernels of a descriptor read: source, scale and shift come from the caller, the constants from
the descriptor. -/
def Descriptor.inputs (d : Descriptor) (source : Nat → Single) (factors : Option (Nat → Single × Single)) :
    Inputs where
  source := source
  factors := factors
  constants b := ⟨d.reciprocals.getD b .zero, d.epsilons.getD b .zero, d.ones.getD b .zero⟩

/-- Constants that a descriptor has: a reciprocal that is neither zero nor tiny, a stabilizing constant above
zero, and one. -/
structure GroupConstants.Sound (c : GroupConstants) : Prop where
  reciprocal : ∃ r : Rat, c.reciprocal.toExtended = .finite false r ∧ 1 / 2 ^ 65 ≤ r ∧ r ≤ 1
  epsilon : c.epsilon.Positive
  one : c.one.toExtended = .finite false 1

theorem Descriptor.sound_constants {op : Operator} {d : Descriptor} (hd : ofOperator op = .ok d) {b : Nat}
    (hb : b < d.split.batch) (source : Nat → Single) (factors : Option (Nat → Single × Single)) :
    ((d.inputs source factors).constants b).Sound := by
  have hfits := Kernel.descriptor_fits hd
  obtain ⟨hlength, hpositive⟩ := epsilons_spec hd
  obtain ⟨-, r, hr, hpos, hone, herror⟩ :=
    Single.reciprocal_spec (Nat.mul_pos hfits.outer hfits.inner) hfits.groupSize_lt
  refine ⟨⟨r, ?_, ?_, hone⟩, ?_, ?_⟩
  · simpa [inputs, reciprocals_eq hd, List.getElem?_replicate, hb] using hr
  · -- The group has less than `2 ^ 64` elements.
    have hsize : ((d.split.outer * d.split.inner : Nat) : Rat) ≤ 2 ^ 64 := by
      exact_mod_cast hfits.groupSize_lt.le
    have hmul := mul_le_mul_of_nonneg_left hsize hpos.le
    rw [abs_le] at herror
    linarith
  · have hmem := List.getElem_mem (hlength.symm ▸ hb : b < d.epsilons.length)
    simpa [inputs, hlength, hb] using hpositive _ hmem
  · simpa [inputs, ones_eq hd, List.getElem?_replicate, hb] using Single.toExtended_one

theorem Placed.congr {p : Parameters} {data : RuntimeData} {i i' : Inputs} {m : Memory}
    (hm : Placed p data i m) (hsource : i'.source = i.source) (hfactors : i'.factors = i.factors)
    (hconstants : ∀ b < p.split.batch, i'.constants b = i.constants b) : Placed p data i' m :=
  { hm with
    holds := {
      source := hsource ▸ hm.holds.source
      affine := hfactors ▸ hm.holds.affine
      factors := hfactors ▸ hm.holds.factors
      reciprocal := fun b hb => hconstants b hb ▸ hm.holds.reciprocal b hb
      epsilon := fun b hb => hconstants b hb ▸ hm.holds.epsilon b hb
      one := fun b hb => hconstants b hb ▸ hm.holds.one b hb
      destination := hm.holds.destination } }

/-- A kernel of a descriptor for any number of threads, compiled by any workers, with runtime data in a
memory that holds what it reads, and a schedule. -/
structure Launch (d : Descriptor) where
  level : OptLevel
  workers : Workers
  home : ConstantAddresses
  requested : Nat
  kernel : Kernel Memory
  events : List Event
  built : Kernel.build (Backend.native level) workers home d requested = (.ok kernel, events)
  data : RuntimeData
  source : Nat → Single
  factors : Option (Nat → Single × Single)
  memory : Memory
  placed : Placed (d.parameters home) data (d.inputs source factors) memory
  slots : Role.count d.affine ≤ data.pointers.length
  nonnull : ∀ role ∈ Role.used d.affine, data.pointer role ≠ 0
  schedule : List Nat

namespace Launch

variable {d : Descriptor} (x : Launch d)

def run : Kernel.Execution Memory := x.kernel.execute x.data x.schedule x.memory

/-- The bits of element `e` of the destination after the run. -/
def output (e : Nat) : Option Nat :=
  x.run.state.load? (elementAddress (x.data.pointer .dst) d.dstType.bytes e) d.dstType.bytes

theorem stores : x.run.succeeded = true ∧ Stored (d.parameters x.home) x.data.pointer
    (d.inputs x.source x.factors) 0 d.split.batch x.run.state := by
  obtain ⟨hok, hstored, -⟩ := Kernel.stores_of_placed x.built (Kernel.accepted_of_build x.built) x.placed
    x.slots x.nonnull x.schedule
  exact ⟨hok, hstored⟩

theorem succeeded : x.run.succeeded = true := x.stores.1

/-- **A launch leaves the results of all groups.** -/
theorem output_position {b k : Nat} (hb : b < d.split.batch) (hk : k < d.split.outer * d.split.inner) :
    x.output (d.split.position b k) =
      some (d.dstType.stored ((d.inputs x.source x.factors).result d.split b k)) :=
  x.stores.2 b k ⟨Nat.zero_le b, hb, hk⟩

theorem exists_of_placed {op : Operator} (hd : Descriptor.ofOperator op = .ok d) {workers : Workers}
    {requested : Nat} (hstarts : workers.Starts (effectiveThreads requested d.split.groupCount))
    (hroom : effectiveThreads requested d.split.groupCount * WorkUnit.bytes < 2 ^ 63)
    (hcount : d.split.outer * d.split.batch * d.split.inner ≤ 2 ^ 61 - 1) {home : ConstantAddresses}
    {data : RuntimeData} {source : Nat → Single} {factors : Option (Nat → Single × Single)} {m : Memory}
    (hm : Placed (d.parameters home) data (d.inputs source factors) m)
    (hslots : Role.count d.affine ≤ data.pointers.length)
    (hnonnull : ∀ role ∈ Role.used d.affine, data.pointer role ≠ 0) (schedule : List Nat) :
    ∃ x : Launch d, x.requested = requested ∧ x.data = data ∧ x.source = source ∧ x.factors = factors := by
  obtain ⟨k, hk⟩ : ∃ k, (Kernel.build (Backend.native .speed) workers home d requested).1 = .ok k :=
    Kernel.build_native_ok hd hstarts hroom hcount
  exact ⟨⟨.speed, workers, home, requested, k, _, Prod.ext hk rfl, data, source, factors, m, hm, hslots,
    hnonnull, schedule⟩, rfl, rfl, rfl, rfl⟩

/-! ### A small case: one group of two elements -/

/-- The parameters of one group of two elements. -/
def row : Parameters := { pair with split := ⟨1, 1, 2⟩ }

/-- A group is divided by two. -/
def rowInputs (x y : Single) : Inputs where
  source e := if e = 0 then x else y
  factors := none
  constants _ := ⟨⟨0x3f000000⟩, ⟨0x3727c5ac⟩, ⟨0x3f800000⟩⟩

/-- The runtime data of a run in place and, at `0x1010`, of a run with a destination of its own. -/
def rowCells (x y : Single) : List Cell :=
  [⟨0x1000, 8, 0x3000⟩, ⟨0x1008, 8, 0x3000⟩, ⟨0x1010, 8, 0x3000⟩, ⟨0x1018, 8, 0x2000⟩, ⟨0x2000, 4, 7⟩,
   ⟨0x2004, 4, 7⟩, ⟨0x4000, 4, 0x3f000000⟩, ⟨0x5000, 4, 0x3727c5ac⟩, ⟨0x6000, 4, 0x3f800000⟩,
   ⟨0x3000, 4, x.bits.toNat⟩, ⟨0x3004, 4, y.bits.toNat⟩]

theorem load?_row {x y : Single} {a : UInt64} {n v : Nat} (h : ⟨a, n, v⟩ ∈ rowCells x y) :
    (ofCells (rowCells x y)).load? a n = some v := by
  refine load?_ofCells (fun c hc => ?_) (of_decide_eq_true rfl) h
  have hx := x.bits.toNat_lt
  have hy := y.bits.toNat_lt
  simp only [rowCells, List.mem_cons, List.not_mem_nil, or_false] at hc
  rcases hc with rfl | rfl | rfl | rfl | rfl | rfl | rfl | rfl | rfl | rfl | rfl <;>
    simp [Cell.Fits] <;> omega

theorem holds_row {x y : Single} {pointer : Role → UInt64} (hsrc : pointer .src = 0x3000)
    (hdst : ∀ e < 2, (ofCells (rowCells x y)).mapped (elementAddress (pointer .dst) 4 e) 4 = true) :
    Holds row pointer (rowInputs x y) (ofCells (rowCells x y)) where
  source e he := by
    rw [hsrc]
    have hcases : e = 0 ∨ e = 1 := (by decide : ∀ e < 2, e = 0 ∨ e = 1) e he
    rcases hcases with rfl | rfl
    · exact load?_row (a := 0x3000) (by simp [rowCells, rowInputs])
    · exact load?_row (a := 0x3004) (by simp [rowCells, rowInputs])
  affine := rfl
  factors f hf := by cases hf
  reciprocal b hb := by
    obtain rfl : b = 0 := Nat.lt_one_iff.mp hb
    exact load?_row (a := 0x4000) (by simp [rowCells, rowInputs])
  epsilon b hb := by
    obtain rfl : b = 0 := Nat.lt_one_iff.mp hb
    exact load?_row (a := 0x5000) (by simp [rowCells, rowInputs])
  one b hb := by
    obtain rfl : b = 0 := Nat.lt_one_iff.mp hb
    exact load?_row (a := 0x6000) (by simp [rowCells, rowInputs])
  destination e he := hdst e he

/-- The runtime data of the run with a destination of its own. -/
def rowData : RuntimeData := ⟨0x1010, [0x3000, 0x2000]⟩

theorem disjoint_row {a : UInt64} {n e : Nat}
    (h : a.toNat + n ≤ 0x2000 ∨ 0x2008 ≤ a.toNat ∧ a.toNat + n ≤ 2 ^ 64) (he : e < 2) :
    Disjoint (span a n) (resultSpan row rowData.pointer e) :=
  disjoint_elementSpan (by decide : (0x2000 : UInt64).toNat + 4 * 2 ≤ 2 ^ 64) h he

theorem source_apart_row {e e' : Nat} (he : e < 2) (he' : e' < 2) :
    Disjoint (elementSpan (rowData.pointer .src) 4 e) (resultSpan row rowData.pointer e') :=
  disjoint_row (.inr ((by decide : ∀ e < 2, 0x2008 ≤ (elementAddress 0x3000 4 e).toNat ∧
    (elementAddress 0x3000 4 e).toNat + 4 ≤ 2 ^ 64) e he)) he'

theorem prepared_row (x y : Single) : Prepared row rowData (rowInputs x y) (ofCells (rowCells x y)) where
  pointers role hrole v hv := by
    have hcells : ∀ role ∈ Role.used false, ∀ v, rowData.pointers[role.index]? = some v →
        (⟨0x1010 + UInt64.ofNat (8 * role.index), 8, v.toNat⟩ : Cell) ∈ rowCells x y := by
      simp [Role.used, Role.index, rowData, rowCells]
    exact load?_row (hcells role hrole v hv)
  holds := by
    refine holds_row rfl fun e he => mapped_of_load? (v := 7) (load?_row ?_)
    rcases (by decide : ∀ e < 2, e = 0 ∨ e = 1) e he with rfl | rfl <;>
      simp [rowCells, rowData, RuntimeData.pointer, Role.index, elementAddress]
  apart := by
    refine ⟨⟨fun h => (by cases h), fun c b hb e he => ?_⟩, fun e he e' he' _ => source_apart_row he he'⟩
    obtain rfl : b = 0 := Nat.lt_one_iff.mp hb
    exact disjoint_row (.inr (by cases c <;> decide)) he
  source e he := source_apart_row he he
  pointersApart role hrole e he := disjoint_row (.inl ((by decide : ∀ role ∈ Role.used false,
    ((0x1010 : UInt64) + UInt64.ofNat (8 * role.index)).toNat + 8 ≤ 0x2000) role hrole)) he

theorem exists_descriptor_row : ∃ d, Descriptor.ofOperator (Kernel.matrix 1 2) = .ok d ∧
    d.parameters row.constants = row ∧
      ∀ b < 1, ∀ source factors x y, (d.inputs source factors).constants b = (rowInputs x y).constants b := by
  obtain ⟨d, hd, hp⟩ : ∃ d, Descriptor.ofOperator (Kernel.matrix 1 2) = .ok d ∧
      d.parameters row.constants = row := ⟨_, rfl, rfl⟩
  have hreciprocal : Single.reciprocal (1 * 2) = ⟨0x3f000000⟩ := by decide +kernel
  have hsplit : d.split = ⟨1, 1, 2⟩ := congrArg Parameters.split hp
  refine ⟨d, hd, hp, fun b hb source factors x y => ?_⟩
  simp only [Descriptor.inputs, Descriptor.reciprocals_eq hd, Descriptor.epsilons_of_none hd rfl,
    Descriptor.ones_eq hd, hsplit, hreciprocal, List.getD_eq_getElem?_getD, List.getElem?_replicate, hb,
    if_true, Option.getD_some]
  rfl

theorem exists_row : ∃ d, Descriptor.ofOperator (Kernel.matrix 1 2) = .ok d ∧
    d.parameters row.constants = row ∧ ∀ x y, ∃ l : Launch d, l.source 0 = x ∧ l.source 1 = y ∧
      (d.inputs l.source l.factors).group d.split 0 = [x, y] ∧
      (d.inputs l.source l.factors).constants 0 = (rowInputs x y).constants 0 := by
  obtain ⟨d, hd, hp, hconstants⟩ := exists_descriptor_row
  have hsplit : d.split = ⟨1, 1, 2⟩ := congrArg Parameters.split hp
  have haffine : d.affine = false := congrArg Parameters.affine hp
  refine ⟨d, hd, hp, fun x y => ?_⟩
  have hm : Placed (d.parameters row.constants) rowData (d.inputs (rowInputs x y).source none)
      (ofCells (rowCells x y)) := by
    rw [hp]
    exact (prepared_row x y).toPlaced.congr rfl rfl fun b hb => hconstants b hb (rowInputs x y).source none x y
  have hone : effectiveThreads 1 d.split.groupCount = 1 := by rw [hsplit]; decide
  obtain ⟨l, -, -, hsource, -⟩ := exists_of_placed hd (hone ▸ (Workers.sequential 1 false).starts_one)
    (by rw [hone]; decide) (by rw [hsplit]; decide) hm (by rw [haffine]; decide) (by rw [haffine]; decide) []
  refine ⟨l, congrFun hsource 0, congrFun hsource 1, ?_, hconstants 0 (by decide) _ _ x y⟩
  rw [hsplit, Descriptor.inputs, hsource]
  rfl

end Launch

end AxisNorm
