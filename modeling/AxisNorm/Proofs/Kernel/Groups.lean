import AxisNorm.Proofs.Kernel.Executable
import AxisNorm.Proofs.Kernel.Launch
import Mathlib.Logic.Equiv.Defs

/-!
# Groups by themselves

* `Split.SameGroup`: a group of one tensor has the elements of a group of another.
* `Launch.output_sameGroup`: **the results of a group depend on its elements and its constants alone**:
  neither on the other groups nor on its place, nor on who computes them.
-/

namespace AxisNorm

open Memory Normalization

/-- Group `b` of `f` has the elements of group `b'` of `g`. -/
def Split.SameGroup {α : Type} (s : Split) (f : Nat → α) (b : Nat) (g : Nat → α) (b' : Nat) : Prop :=
  ∀ k < s.outer * s.inner, ∀ e e', s.offset b k = .ok e → s.offset b' k = .ok e' → f e = g e'

namespace Split

variable {α : Type} {s : Split} {f g : Nat → α} {b b' : Nat}

theorem Fits.sameGroup_iff (h : s.Fits) (hb : b < s.batch) (hb' : b' < s.batch) :
    s.SameGroup f b g b' ↔
      ∀ k < s.outer * s.inner, f (s.position b k) = g (s.position b' k) := by
  constructor
  · intro hsame k hk
    exact hsame k hk _ _ (h.offset_eq hb hk) (h.offset_eq hb' hk)
  · intro hsame k hk e e' he he'
    rw [eq_position_of_offset he, eq_position_of_offset he']
    exact hsame k hk

end Split

theorem Inputs.result_congr {i i' : Inputs} {s : Split} {b b' k : Nat}
    (hconstants : i.constants b = i'.constants b')
    (hsource : ∀ j < s.outer * s.inner, i.source (s.position b j) = i'.source (s.position b' j))
    (hk : k < s.outer * s.inner) (hfactors : i.factors.map (· k) = i'.factors.map (· k)) :
    i.result s b k = i'.result s b' k := by
  have hgroup : i.group s b = i'.group s b' :=
    List.map_congr_left fun j hj => hsource j (List.mem_range.mp hj)
  unfold result
  rw [hconstants, hgroup, hsource k hk]
  cases hf : i.factors with
  | none =>
    rw [hf, Option.map_none] at hfactors
    rw [Option.map_eq_none_iff.mp hfactors.symm]
  | some f =>
    rw [hf, Option.map_some] at hfactors
    obtain ⟨f', hf', hk'⟩ := Option.map_eq_some_iff.mp hfactors.symm
    rw [hf']
    dsimp only
    rw [hk']

theorem Descriptor.constants_eq {op op' : Operator} {d d' : Descriptor} (hd : ofOperator op = .ok d)
    (hd' : ofOperator op' = .ok d') (hsplit : d'.split = d.split) {b b' : Nat} (hb : b < d.split.batch)
    (hb' : b' < d.split.batch) (hepsilon : d'.epsilons[b]? = d.epsilons[b']?)
    (source source' : Nat → Single) (factors factors' : Option (Nat → Single × Single)) :
    (d'.inputs source' factors').constants b = (d.inputs source factors).constants b' := by
  simp only [inputs, List.getD_eq_getElem?_getD, hepsilon, reciprocals_eq hd, reciprocals_eq hd', ones_eq hd,
    ones_eq hd', hsplit, List.getElem?_replicate, hb, hb', if_true]

namespace Launch

variable {op op' : Operator} {d d' : Descriptor}

theorem output_eq (hd : Descriptor.ofOperator op = .ok d) (hd' : Descriptor.ofOperator op' = .ok d')
    (hsplit : d'.split = d.split) (htype : d'.dstType = d.dstType) (x : Launch d) (y : Launch d')
    (hfactors : ∀ k < d.split.outer * d.split.inner, y.factors.map (· k) = x.factors.map (· k)) {b b' : Nat}
    (hb : b < d.split.batch) (hb' : b' < d.split.batch) (hepsilon : d'.epsilons[b]? = d.epsilons[b']?)
    (hsource : d.split.SameGroup y.source b x.source b') :
    d.split.SameGroup y.output b x.output b' := by
  have hfits := Kernel.descriptor_fits hd
  rw [hfits.sameGroup_iff hb hb'] at hsource ⊢
  intro k hk
  have houtput := y.output_position (b := b) (k := k) (hsplit ▸ hb) (hsplit ▸ hk)
  rw [hsplit, htype] at houtput
  rw [houtput, x.output_position hb' hk]
  congr 2
  exact Inputs.result_congr (Descriptor.constants_eq hd hd' hsplit hb hb' hepsilon _ _ _ _) hsource hk
    (hfactors k hk)

/-- **The results of a group depend on its elements and its constants alone.** A launch succeeds and has a
result for every element of every group. Two launches of one descriptor that agree on a group, whatever
its other groups are, leave the same bits for it. And if the groups, and the constants that stabilize them,
change their places, so do the results. -/
theorem output_sameGroup (hd : Descriptor.ofOperator op = .ok d) (x : Launch d) :
    (x.run.succeeded = true ∧ ∀ b < d.split.batch, ∀ k < d.split.outer * d.split.inner,
      ∃ e, d.split.offset b k = .ok e ∧ (x.output e).isSome = true) ∧
    (∀ y : Launch d, (∀ k < d.split.outer * d.split.inner, y.factors.map (· k) = x.factors.map (· k)) →
      ∀ b < d.split.batch, d.split.SameGroup y.source b x.source b →
        d.split.SameGroup y.output b x.output b) ∧
    ∀ op' d', Descriptor.ofOperator op' = .ok d' → d'.split = d.split → d'.dstType = d.dstType →
      ∀ y : Launch d', (∀ k < d.split.outer * d.split.inner, y.factors.map (· k) = x.factors.map (· k)) →
        ∀ place : Equiv.Perm (Fin d.split.batch),
          (∀ b, d'.epsilons[b.val]? = d.epsilons[(place b).val]?) →
          (∀ b : Fin d.split.batch, d.split.SameGroup y.source b x.source (place b)) →
            ∀ b : Fin d.split.batch, d.split.SameGroup y.output b x.output (place b) := by
  refine ⟨⟨x.succeeded, fun b hb k hk => ?_⟩, fun y hfactors b hb hsource => ?_,
    fun op' d' hd' hsplit htype y hfactors place hepsilon hsource b => ?_⟩
  · refine ⟨_, (Kernel.descriptor_fits hd).offset_eq hb hk, ?_⟩
    rw [x.output_position hb hk]
    rfl
  · exact output_eq hd hd rfl rfl x y hfactors hb hb rfl hsource
  · exact output_eq hd hd' hsplit htype x y hfactors b.isLt (place b).isLt (hepsilon b) (hsource b)

/-! ### Two groups that change their places -/

/-- The runtime data of a run in place. -/
def turnedData : RuntimeData := ⟨0x1000, [0x3000, 0x3000]⟩

/-- The sources of `pairInputs`, with those of each group in the place of the other. -/
def turnedInputs : Inputs := { pairInputs with source := fun e => pairInputs.source (e ^^^ 2) }

/-- The runtime data at `0x1000`, and the buffers; the sources lie in the destination. -/
def turnedCells : List Cell :=
  [⟨0x1000, 8, 0x3000⟩, ⟨0x1008, 8, 0x3000⟩] ++
    (List.range 8).map (fun e => ⟨elementAddress 0x3000 4 e, 4, (turnedInputs.source e).bits.toNat⟩) ++ pairConstants

theorem load?_turned {a : UInt64} {n v : Nat} (h : ⟨a, n, v⟩ ∈ turnedCells) :
    (ofCells turnedCells).load? a n = some v :=
  load?_ofCells (by decide +kernel) (by decide +kernel) h

theorem source_turned {e : Nat} (he : e < 8) :
    (ofCells turnedCells).load? (elementAddress 0x3000 4 e) 4 = some (turnedInputs.source e).bits.toNat :=
  load?_turned ((by decide +kernel : ∀ e < 8,
    ⟨elementAddress 0x3000 4 e, 4, (turnedInputs.source e).bits.toNat⟩ ∈ turnedCells) e he)

theorem constant_turned {a : UInt64} {n v : Nat} (h : ⟨a, n, v⟩ ∈ pairConstants) :
    (ofCells turnedCells).load? a n = some v := load?_turned (List.mem_append_right _ h)

theorem holds_turned : Holds pair turnedData.pointer turnedInputs (ofCells turnedCells) where
  source e he := source_turned he
  affine := rfl
  factors f hf := by cases hf
  reciprocal b hb := constant_turned ((by decide : ∀ b < 2,
    ⟨elementAddress 0x4000 4 b, 4, 0x3e800000⟩ ∈ pairConstants) b hb)
  epsilon b hb := constant_turned ((by decide : ∀ b < 2,
    ⟨elementAddress 0x5000 4 b, 4, 0x3727c5ac⟩ ∈ pairConstants) b hb)
  one b hb := constant_turned ((by decide : ∀ b < 2,
    ⟨elementAddress 0x6000 4 b, 4, 0x3f800000⟩ ∈ pairConstants) b hb)
  destination e he := mapped_of_load? (source_turned he)

theorem placed_turned : Placed pair turnedData turnedInputs (ofCells turnedCells) where
  pointers role hrole x hx := by
    have hnames : ∀ role ∈ Role.used false, turnedData.pointers[role.index]? = some 0x3000 := by decide
    obtain rfl : 0x3000 = x := Option.some.inj ((hnames role hrole).symm.trans hx)
    exact load?_turned ((by decide +kernel : ∀ role ∈ Role.used false,
      ⟨0x1000 + UInt64.ofNat (8 * role.index), 8, 0x3000⟩ ∈ turnedCells) role hrole)
  holds := holds_turned
  apart := { apart_pair.toReadsApart with
    source := fun e he e' he' hne => elementSpan_disjoint (by decide : 4 * 8 ≤ 2 ^ 64) he he' hne }
  pointersApart role hrole e he := disjoint_pair (.inl ((by decide : ∀ role ∈ Role.used false,
    ((0x1000 : UInt64) + UInt64.ofNat (8 * role.index)).toNat + 8 ≤ 0x3000) role hrole)) he

theorem exists_descriptor_pair : ∃ d, Descriptor.ofOperator Kernel.pairOperator = .ok d ∧
    d.parameters pair.constants = pair ∧
      ∀ b < 2, ∀ source factors, (d.inputs source factors).constants b = pairInputs.constants b := by
  obtain ⟨d, hd, hp⟩ : ∃ d, Descriptor.ofOperator Kernel.pairOperator = .ok d ∧
      d.parameters pair.constants = pair := ⟨_, rfl, rfl⟩
  have hreciprocal : Single.reciprocal (2 * 2) = ⟨0x3e800000⟩ := by decide +kernel
  have hsplit : d.split = ⟨2, 2, 2⟩ := congrArg Parameters.split hp
  refine ⟨d, hd, hp, fun b hb source factors => ?_⟩
  simp only [Descriptor.inputs, Descriptor.reciprocals_eq hd, Descriptor.epsilons_of_none hd rfl,
    Descriptor.ones_eq hd, hsplit, hreciprocal, List.getD_eq_getElem?_getD, List.getElem?_replicate, hb,
    if_true, Option.getD_some]
  rfl

theorem exists_pair (hd : Descriptor.ofOperator Kernel.pairOperator = .ok d)
    (hp : d.parameters pair.constants = pair) (requested : Nat) (schedule : List Nat)
    {data : RuntimeData} {source : Nat → Single} {m : Memory}
    (hm : Placed pair data (d.inputs source none) m) (hslots : 2 ≤ data.pointers.length)
    (hnonnull : ∀ role ∈ Role.used false, data.pointer role ≠ 0) :
    ∃ x : Launch d, x.requested = requested ∧ x.source = source ∧ x.factors = none := by
  have hsplit : d.split = ⟨2, 2, 2⟩ := congrArg Parameters.split hp
  have haffine : d.affine = false := congrArg Parameters.affine hp
  have hthreads : effectiveThreads requested d.split.groupCount ≤ 2 := by
    rw [hsplit]
    exact Nat.min_le_right _ _
  have hstarts : (Workers.sequential 2 true).Starts (effectiveThreads requested d.split.groupCount) :=
    fun _ => if_pos hthreads
  have hroom : effectiveThreads requested d.split.groupCount * WorkUnit.bytes < 2 ^ 63 :=
    Nat.lt_of_le_of_lt (Nat.mul_le_mul_right _ hthreads) (by decide)
  obtain ⟨x, hx, -, hsource, hfactors⟩ := exists_of_placed hd hstarts hroom (by rw [hsplit]; decide) (hp ▸ hm)
    (by rw [haffine]; exact hslots) (by rw [haffine]; exact hnonnull) schedule
  exact ⟨x, hx, hsource, hfactors⟩

/-- Two threads, the second of which is compiled first, interleaved, and one thread that works in place on the
same two groups in each other's places. -/
theorem output_sameGroup_pair : ∃ d, Descriptor.ofOperator Kernel.pairOperator = .ok d ∧
    ∃ x y : Launch d, x.requested = 2 ∧ y.requested = 1 ∧ (∀ e < 8, y.source e = x.source (e ^^^ 2)) ∧
      x.run.succeeded = true ∧ (∀ e < 8, (x.output e).isSome = true) ∧
        ∀ e < 8, y.output e = x.output (e ^^^ 2) := by
  obtain ⟨d, hd, hp, hconstants⟩ := exists_descriptor_pair
  obtain ⟨x, hx, hxs, hxf⟩ := exists_pair hd hp 2 [1, 0, 0, 1, 1]
    (Kernel.prepared_pair.toPlaced.congr rfl rfl fun b hb => hconstants b hb pairInputs.source none)
    (by decide) (by decide)
  obtain ⟨y, hy, hys, hyf⟩ := exists_pair hd hp 1 []
    (placed_turned.congr rfl rfl fun b hb => hconstants b hb turnedInputs.source none) (by decide) (by decide)
  have hsplit : d.split = ⟨2, 2, 2⟩ := congrArg Parameters.split hp
  have hfits := Kernel.descriptor_fits hd
  -- An element of one group and that of the same number of the other.
  have hother {b k : Nat} (hb : b < d.split.batch) (hk : k < d.split.outer * d.split.inner) :
      d.split.position (Fin.revPerm ⟨b, hb⟩).val k = d.split.position b k ^^^ 2 := by
    have hpositions : ∀ b < 2, ∀ k < 4,
        Split.position ⟨2, 2, 2⟩ (2 - (b + 1)) k = Split.position ⟨2, 2, 2⟩ b k ^^^ 2 := by decide
    have hbatch : d.split.batch = 2 := by rw [hsplit]
    rw [Fin.revPerm_apply, Fin.val_rev]
    change d.split.position (d.split.batch - (b + 1)) k = _
    rw [hbatch, hsplit]
    rw [hsplit] at hk
    exact hpositions b (hbatch ▸ hb) k hk
  have hposition {e : Nat} (he : e < 8) : ∃ b < d.split.batch, ∃ k < d.split.outer * d.split.inner,
      e = d.split.position b k := by
    obtain ⟨b, hb, k, hk, rfl⟩ := Split.exists_position
      (show e < d.split.outer * d.split.batch * d.split.inner by rw [hsplit]; exact he)
    exact ⟨b, hb, k, hk, rfl⟩
  obtain ⟨⟨hok, hsome⟩, -, hturned⟩ := output_sameGroup hd x
  refine ⟨d, hd, x, y, hx, hy, fun e _ => by rw [hys, hxs]; rfl, hok, fun e he => ?_, fun e he => ?_⟩
  · obtain ⟨b, hb, k, hk, rfl⟩ := hposition he
    obtain ⟨e, he, hsome⟩ := hsome b hb k hk
    rwa [Split.eq_position_of_offset he] at hsome
  · obtain ⟨b, hb, k, hk, rfl⟩ := hposition he
    have hgroup := hturned _ d hd rfl rfl y (by simp [hxf, hyf]) Fin.revPerm
      (fun b => by rw [Descriptor.epsilons_of_none hd rfl, List.getElem?_replicate, List.getElem?_replicate,
        if_pos b.isLt, if_pos (Fin.isLt _)])
      (fun b => (hfits.sameGroup_iff b.isLt (Fin.isLt _)).mpr fun k hk => by
        rw [hother b.isLt hk, hys, hxs]
        rfl) ⟨b, hb⟩
    rw [← hother hb hk]
    exact (hfits.sameGroup_iff hb (Fin.isLt _)).mp hgroup k hk

end Launch

end AxisNorm
