import AxisNorm.Proofs.Kernel.Launch

/-!
# Runs in place

One array is both source and destination. A unit reads all of a group before it stores the first result of
it, reads an element once more before it stores over it, and does not touch the groups of other units.

* `InPlace`: memory is ready for a run in place.
* `Kernel.execute_inPlace`: **a run in place leaves the bits in the array that a run with a destination of
  its own stores there.**
-/

namespace AxisNorm

open Code Memory Normalization

/-- Memory is ready for a run in place: one array is source and destination, and nothing else that is read
meets it. -/
structure InPlace (p : Parameters) (data : RuntimeData) (i : Inputs) (m : Memory) : Prop extends
    Readable p data i m where
  same : data.pointer .dst = data.pointer .src
  reads : ReadsApart p data.pointer

namespace InPlace

variable {p : Parameters} {data : RuntimeData} {i : Inputs} {m : Memory}

theorem resultSpan_eq (hm : InPlace p data i m) (htype : p.dstType = .float32) (e : Nat) :
    resultSpan p data.pointer e = elementSpan (data.pointer .src) 4 e := by
  rw [resultSpan, hm.same, htype]
  rfl

/-- Elements have one width, so that an element is stored over its own source and over no other. -/
theorem placed (hm : InPlace p data i m) (hp : p.Accepted) (htype : p.dstType = .float32) :
    Placed p data i m where
  toReadable := hm.toReadable
  apart := { hm.reads with
    source := fun e he e' he' hne => by
      have hcount := hp.count_lt
      rw [hm.resultSpan_eq htype]
      exact elementSpan_disjoint (by omega) he he' hne }

end InPlace

namespace Kernel

/-- **A run in place leaves the bits in the array that a run with a destination of its own stores there.**
The runs may differ in the number of threads, in who compiles them, in the schedule, and in where
everything lies. Outside the array a run in place changes nothing. -/
theorem execute_inPlace {d : Descriptor} (htype : d.dstType = .float32) {level level' : OptLevel}
    {home home' : ConstantAddresses} {requested requested' : Nat} {workers workers' : Workers}
    {k k' : Kernel Memory} {events events' : List Event}
    (hk : build (Backend.native level) workers home d requested = (.ok k, events))
    (hk' : build (Backend.native level') workers' home' d requested' = (.ok k', events')) {i : Inputs}
    {data data' : RuntimeData} {m m' : Memory} (hm : InPlace (d.parameters home) data i m)
    (hm' : Prepared (d.parameters home') data' i m') (hslots : Role.count d.affine ≤ data.pointers.length)
    (hslots' : Role.count d.affine ≤ data'.pointers.length)
    (hnonnull : ∀ role ∈ Role.used d.affine, data.pointer role ≠ 0)
    (hnonnull' : ∀ role ∈ Role.used d.affine, data'.pointer role ≠ 0) (schedule schedule' : List Nat) :
    (k.execute data schedule m).succeeded = true ∧ (k'.execute data' schedule' m').succeeded = true ∧
      (∀ e < d.split.outer * d.split.batch * d.split.inner, ∃ n,
        (k'.execute data' schedule' m').state.load? (elementAddress (data'.pointer .dst) 4 e) 4 = some n ∧
        (k.execute data schedule m).state.load? (elementAddress (data.pointer .src) 4 e) 4 = some n) ∧
      ∀ c, (∀ e < d.split.outer * d.split.batch * d.split.inner, c ∉ elementSpan (data.pointer .src) 4 e) →
        (k.execute data schedule m).state.byte? c = m.byte? c := by
  have hp := accepted_of_build hk
  obtain ⟨hok, hstored, hchanged⟩ :=
    stores_of_placed hk hp (hm.placed hp htype) hslots hnonnull schedule
  obtain ⟨hok', hstored', -⟩ :=
    execute_stores hk' (accepted_of_build hk') hm' hslots' hnonnull' schedule'
  refine ⟨hok, hok', fun e he => ?_, fun c hc => hchanged.byte? c ?_⟩
  · -- Both runs leave the result of the element, which is a matter of the inputs.
    obtain ⟨b, hb, j, hj, rfl⟩ := Split.exists_position he
    have hload := hstored b j ⟨Nat.zero_le b, hb, hj⟩
    have hload' := hstored' b j ⟨Nat.zero_le b, hb, hj⟩
    simp only [Descriptor.parameters, htype, hm.same] at hload hload'
    exact ⟨_, hload', hload⟩
  · rintro ⟨b, j, ⟨-, hb, hj⟩, hmem⟩
    rw [hm.resultSpan_eq htype] at hmem
    exact hc _ (Split.position_lt hb hj) hmem

/-- The runtime data of the run in place. -/
def inPlaceData : RuntimeData := ⟨0x1000, [0x3000, 0x3000]⟩

theorem inPlace_row (x y : Single) :
    InPlace Launch.row inPlaceData (Launch.rowInputs x y) (ofCells (Launch.rowCells x y)) where
  pointers role hrole v hv := by
    have hcells : ∀ role ∈ Role.used false, ∀ v, inPlaceData.pointers[role.index]? = some v →
        (⟨0x1000 + UInt64.ofNat (8 * role.index), 8, v.toNat⟩ : Cell) ∈ Launch.rowCells x y := by
      simp [Role.used, Role.index, inPlaceData, Launch.rowCells]
    exact Launch.load?_row (hcells role hrole v hv)
  holds := Launch.holds_row rfl fun e he => mapped_of_load? ((Launch.prepared_row x y).holds.source e he)
  same := rfl
  reads := by
    refine ⟨fun h => (by cases h), fun c b hb e he => ?_⟩
    obtain rfl : b = 0 := Nat.lt_one_iff.mp hb
    exact disjoint_elementSpan (by decide : (0x3000 : UInt64).toNat + 4 * 2 ≤ 2 ^ 64)
      (.inr (by cases c <;> decide)) he
  pointersApart role hrole e he := disjoint_elementSpan (by decide : (0x3000 : UInt64).toNat + 4 * 2 ≤ 2 ^ 64)
    (.inl ((by decide : ∀ role ∈ Role.used false,
      ((0x1000 : UInt64) + UInt64.ofNat (8 * role.index)).toNat + 8 ≤ 0x3000) role hrole)) he

/-- Two elements in an array of their own, and with a destination besides. -/
theorem execute_inPlace_row : ∃ d k k' events events', Descriptor.ofOperator (matrix 1 2) = .ok d ∧
    build (Backend.native .speed) (.sequential 1 false) Launch.row.constants d 1 = (.ok k, events) ∧
      build (Backend.native .none) (.sequential 1 false) Launch.row.constants d 4 = (.ok k', events') ∧
      let m := ofCells (Launch.rowCells ⟨0x3f800000⟩ ⟨0x40000000⟩)
      (k.execute inPlaceData [0] m).succeeded = true ∧
      (k.execute inPlaceData [0] m).state.load? 0x3004 4 =
        (k'.execute Launch.rowData [] m).state.load? 0x2004 4 := by
  obtain ⟨d, hd, hp, -⟩ := Launch.exists_descriptor_row
  have hsplit : d.split = ⟨1, 1, 2⟩ := congrArg Parameters.split hp
  have haffine : d.affine = false := congrArg Parameters.affine hp
  have hbuild (level : OptLevel) {n : Nat} (hone : effectiveThreads n d.split.groupCount = 1) :
      ∃ k, (build (Backend.native level) (.sequential 1 false) Launch.row.constants d n).1 = .ok k :=
    build_native_ok hd (hone ▸ (Workers.sequential 1 false).starts_one) (by rw [hone]; decide)
      (by rw [hsplit]; decide)
  obtain ⟨k, hk⟩ := hbuild .speed (n := 1) (by rw [hsplit]; decide)
  obtain ⟨k', hk'⟩ := hbuild .none (n := 4) (by rw [hsplit]; decide)
  obtain ⟨hok, -, hsame, -⟩ := execute_inPlace (congrArg Parameters.dstType hp) (Prod.ext hk rfl)
    (Prod.ext hk' rfl) (hp ▸ inPlace_row ⟨0x3f800000⟩ ⟨0x40000000⟩)
    (hp ▸ Launch.prepared_row ⟨0x3f800000⟩ ⟨0x40000000⟩) (by rw [haffine]; decide) (by rw [haffine]; decide)
    (by rw [haffine]; decide) (by rw [haffine]; decide) [0] []
  obtain ⟨n, hseparate, hinPlace⟩ := hsame 1 (by rw [hsplit]; decide)
  exact ⟨d, k, k', _, _, hd, Prod.ext hk rfl, Prod.ext hk' rfl, hok, hinPlace.trans hseparate.symm⟩

end Kernel

end AxisNorm
