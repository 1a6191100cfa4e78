import AxisNorm.Normalization.Group
import AxisNorm.Proofs.Memory
import AxisNorm.Proofs.Normalization.Accepted
import AxisNorm.Proofs.Normalization.Program
import AxisNorm.Proofs.Split

/-!
# The buffers of a kernel in memory

* `PointersAt`: the runtime data has the pointers of a call.
* `Holds`: memory holds the inputs of a kernel and has room for its results.
* `BuffersMapped`: the elements of the groups of a slice can be loaded and stored.
* `Apart`: the destination does not meet what is read.
* `region`: the bytes of some elements of the destination. Different elements do not meet
  (`resultSpan_disjoint`).
-/

namespace AxisNorm.Normalization

open Memory

/-- The bytes of element `e` of a buffer. -/
def elementSpan (base : UInt64) (width e : Nat) : Set UInt64 := span (elementAddress base width e) width

theorem disjoint_elementSpan {a base : UInt64} {n width count e : Nat} (hbase : base.toNat + width * count ≤ 2 ^ 64)
    (h : a.toNat + n ≤ base.toNat ∨ base.toNat + width * count ≤ a.toNat ∧ a.toNat + n ≤ 2 ^ 64)
    (he : e < count) : Disjoint (span a n) (elementSpan base width e) := by
  have hle := Nat.mul_le_mul_left width (Nat.succ_le_of_lt he)
  rw [Nat.mul_succ] at hle
  by_cases hwidth : width = 0
  · subst hwidth
    rw [elementSpan, span_zero]
    exact Set.disjoint_empty _
  have haddress : (elementAddress base width e).toNat = base.toNat + width * e := by
    rw [elementAddress, UInt64.toNat_add, UInt64.toNat_ofNat']
    omega
  exact disjoint_span (b := elementAddress base width e) (k := width) (by omega) (by omega) (by omega)

/-- Different elements of a buffer that is not larger than memory do not meet. -/
theorem elementSpan_disjoint {base : UInt64} {width count e e' : Nat} (hcount : width * count ≤ 2 ^ 64)
    (he : e < count) (he' : e' < count) (hne : e ≠ e') :
    Disjoint (elementSpan base width e) (elementSpan base width e') := by
  rw [Set.disjoint_left]
  rintro c ⟨i, hi, rfl⟩ ⟨j, hj, hc⟩
  have hbound (e i : Nat) (he : e < count) (hi : i < width) : width * e + i < 2 ^ 64 := by
    have hle := Nat.mul_le_mul_left width (Nat.succ_le_of_lt he)
    rw [Nat.mul_succ] at hle
    omega
  unfold elementAddress at hc
  rw [UInt64.add_assoc, UInt64.add_assoc, UInt64.add_right_inj, ← UInt64.ofNat_add, ← UInt64.ofNat_add]
    at hc
  have hoffset := congrArg UInt64.toNat hc
  rw [UInt64.toNat_ofNat', UInt64.toNat_ofNat', Nat.mod_eq_of_lt (hbound e i he hi),
    Nat.mod_eq_of_lt (hbound e' j he' hj)] at hoffset
  -- Quotient and remainder by the width are the element and the byte.
  have hdiv := congrArg (· / width) hoffset
  simp only [Nat.mul_add_div (Nat.zero_lt_of_lt hi), Nat.div_eq_of_lt hi, Nat.div_eq_of_lt hj,
    Nat.add_zero] at hdiv
  exact hne hdiv

section

variable (p : Parameters) (pointer : Role → UInt64)

/-- The bytes of element `e` of the destination. -/
def resultSpan (e : Nat) : Set UInt64 := elementSpan (pointer .dst) p.dstType.bytes e

/-- The bytes of elements of the destination, which are given by group and number. -/
def region (elements : Nat → Nat → Prop) : Set UInt64 :=
  {c | ∃ b k, elements b k ∧ c ∈ resultSpan p pointer (p.split.position b k)}

/-- The runtime data at an address has these pointers. -/
def PointersAt (data : UInt64) (m : Memory) : Prop :=
  ∀ role ∈ Role.used p.affine,
    m.load? (data + UInt64.ofNat (8 * role.index)) 8 = some (pointer role).toNat

/-- Memory holds the inputs of a kernel and has room for its results. -/
structure Holds (i : Inputs) (m : Memory) : Prop where
  source : ∀ e < p.split.outer * p.split.batch * p.split.inner,
    m.load? (elementAddress (pointer .src) 4 e) 4 = some (i.source e).bits.toNat
  affine : i.factors.isSome = p.affine
  factors : ∀ f, i.factors = some f → ∀ k < p.split.outer * p.split.inner,
    m.load? (elementAddress (pointer .alpha) 4 k) 4 = some (f k).1.bits.toNat ∧
      m.load? (elementAddress (pointer .beta) 4 k) 4 = some (f k).2.bits.toNat
  reciprocal : ∀ b < p.split.batch,
    m.load? (elementAddress (UInt64.ofNat p.constants.reciprocal) 4 b) 4 =
      some (i.constants b).reciprocal.bits.toNat
  epsilon : ∀ b < p.split.batch,
    m.load? (elementAddress (UInt64.ofNat p.constants.epsilon) 4 b) 4 =
      some (i.constants b).epsilon.bits.toNat
  one : ∀ b < p.split.batch,
    m.load? (elementAddress (UInt64.ofNat p.constants.one) 4 b) 4 = some (i.constants b).one.bits.toNat
  destination : ∀ e < p.split.outer * p.split.batch * p.split.inner,
    m.mapped (elementAddress (pointer .dst) p.dstType.bytes e) p.dstType.bytes = true

/-- What the groups from `start` to `stop` read and write is mapped. -/
structure BuffersMapped (start stop : Nat) (m : Memory) : Prop where
  source : ∀ b k, start ≤ b → b < stop → k < p.split.outer * p.split.inner →
    m.mapped (elementAddress (pointer .src) 4 (p.split.position b k)) 4 = true
  destination : ∀ b k, start ≤ b → b < stop → k < p.split.outer * p.split.inner →
    m.mapped (elementAddress (pointer .dst) p.dstType.bytes (p.split.position b k)) p.dstType.bytes = true
  factor : p.affine = true → start < stop → ∀ k < p.split.outer * p.split.inner,
    m.mapped (elementAddress (pointer .alpha) 4 k) 4 = true ∧
      m.mapped (elementAddress (pointer .beta) 4 k) 4 = true
  constant : ∀ c b, start ≤ b → b < stop →
    m.mapped (elementAddress (UInt64.ofNat (p.constants.of c)) 4 b) 4 = true

/-- The destination does not meet what is read beside the source. -/
structure ReadsApart : Prop where
  factor : p.affine = true → ∀ k < p.split.outer * p.split.inner,
    ∀ e < p.split.outer * p.split.batch * p.split.inner,
      Disjoint (elementSpan (pointer .alpha) 4 k) (resultSpan p pointer e) ∧
        Disjoint (elementSpan (pointer .beta) 4 k) (resultSpan p pointer e)
  constant : ∀ c, ∀ b < p.split.batch, ∀ e < p.split.outer * p.split.batch * p.split.inner,
    Disjoint (elementSpan (UInt64.ofNat (p.constants.of c)) 4 b) (resultSpan p pointer e)

/-- The destination does not meet what is read, except that an element may lie where its own source
lies. -/
structure Apart : Prop extends ReadsApart p pointer where
  source : ∀ e < p.split.outer * p.split.batch * p.split.inner,
    ∀ e' < p.split.outer * p.split.batch * p.split.inner, e ≠ e' →
      Disjoint (elementSpan (pointer .src) 4 e) (resultSpan p pointer e')

end

variable {p : Parameters} {pointer : Role → UInt64}

theorem Holds.buffersMapped {i : Inputs} {m : Memory} {start stop : Nat} (h : Holds p pointer i m)
    (hstop : stop ≤ p.split.batch) : BuffersMapped p pointer start stop m where
  source _ _ _ hb hk :=
    mapped_of_load? (h.source _ (Split.position_lt (Nat.lt_of_lt_of_le hb hstop) hk))
  destination _ _ _ hb hk := h.destination _ (Split.position_lt (Nat.lt_of_lt_of_le hb hstop) hk)
  factor haffine _ k hk := by
    obtain ⟨f, hf⟩ := Option.isSome_iff_exists.mp (h.affine.trans haffine)
    exact ⟨mapped_of_load? (h.factors f hf k hk).1, mapped_of_load? (h.factors f hf k hk).2⟩
  constant c b _ hb := by
    have hbatch := Nat.lt_of_lt_of_le hb hstop
    cases c
    · exact mapped_of_load? (h.reciprocal b hbatch)
    · exact mapped_of_load? (h.epsilon b hbatch)
    · exact mapped_of_load? (h.one b hbatch)

theorem BuffersMapped.mono {start stop start' stop' : Nat} {m : Memory}
    (h : BuffersMapped p pointer start stop m) (hstart : start ≤ start') (hstop : stop' ≤ stop) :
    BuffersMapped p pointer start' stop' m where
  source b k hb hb' := h.source b k (by omega) (by omega)
  destination b k hb hb' := h.destination b k (by omega) (by omega)
  factor haffine hlt := h.factor haffine (by omega)
  constant c b hb hb' := h.constant c b (by omega) (by omega)

theorem region_mono {elements elements' : Nat → Nat → Prop} (h : ∀ b k, elements b k → elements' b k) :
    region p pointer elements ⊆ region p pointer elements' :=
  fun _ ⟨b, k, hbk, hc⟩ => ⟨b, k, h b k hbk, hc⟩

theorem resultSpan_subset_region {elements : Nat → Nat → Prop} {b k : Nat} (h : elements b k) :
    resultSpan p pointer (p.split.position b k) ⊆ region p pointer elements :=
  fun _ hc => ⟨b, k, h, hc⟩

theorem disjoint_region {elements : Nat → Nat → Prop} {s : Set UInt64}
    (h : ∀ b k, elements b k → Disjoint s (resultSpan p pointer (p.split.position b k))) :
    Disjoint s (region p pointer elements) := by
  rw [Set.disjoint_left]
  rintro c hc ⟨b, k, hbk, hc'⟩
  exact Set.disjoint_left.mp (h b k hbk) hc hc'

theorem resultSpan_disjoint (h : p.Accepted) {b k b' k' : Nat} (hb : b < p.split.batch)
    (hk : k < p.split.outer * p.split.inner) (hb' : b' < p.split.batch)
    (hk' : k' < p.split.outer * p.split.inner) (hne : ¬ (b = b' ∧ k = k')) :
    Disjoint (resultSpan p pointer (p.split.position b k))
      (resultSpan p pointer (p.split.position b' k')) := by
  have hcount := h.count_lt
  have hbytes := Nat.mul_le_mul_right (p.split.outer * p.split.batch * p.split.inner) h.bytes_le
  exact elementSpan_disjoint (by omega) (Split.position_lt hb hk) (Split.position_lt hb' hk')
    fun he => hne (Split.position_injective hb hb' h.inner he)

theorem Apart.source_disjoint (h : p.Accepted) (ha : Apart p pointer) {b k b' k' : Nat}
    (hb : b < p.split.batch) (hk : k < p.split.outer * p.split.inner) (hb' : b' < p.split.batch)
    (hk' : k' < p.split.outer * p.split.inner) (hne : ¬ (b = b' ∧ k = k')) :
    Disjoint (elementSpan (pointer .src) 4 (p.split.position b k))
      (resultSpan p pointer (p.split.position b' k')) :=
  ha.source _ (Split.position_lt hb hk) _ (Split.position_lt hb' hk')
    fun he => hne (Split.position_injective hb hb' h.inner he)

/-! ## A small case: two groups, each of two rows of two elements -/

def pair : Parameters where
  split := ⟨2, 2, 2⟩
  srcType := .float32
  dstType := .float32
  affine := false
  constants := ⟨0x4000, 0x5000, 0x6000⟩

def pairPointer : Role → UInt64
  | .src => 0x2000
  | .dst => 0x3000
  | _ => 0

/-- The sources are the first eight primes, and a group is divided by four. -/
def pairInputs : Inputs where
  source e := ⟨[0x40000000, 0x40400000, 0x40a00000, 0x40e00000, 0x41300000, 0x41500000, 0x41880000,
    0x41980000].getD e 0⟩
  factors := none
  constants _ := ⟨⟨0x3e800000⟩, ⟨0x3727c5ac⟩, ⟨0x3f800000⟩⟩

/-- The constants of two groups. -/
def pairConstants : List Cell :=
  [⟨0x4000, 4, 0x3e800000⟩, ⟨0x4004, 4, 0x3e800000⟩, ⟨0x5000, 4, 0x3727c5ac⟩, ⟨0x5004, 4, 0x3727c5ac⟩,
   ⟨0x6000, 4, 0x3f800000⟩, ⟨0x6004, 4, 0x3f800000⟩]

/-- The runtime data at `0x1000`, and the buffers. -/
def pairCells : List Cell :=
  [⟨0x1000, 8, 0x2000⟩, ⟨0x1008, 8, 0x3000⟩] ++
    (List.range 8).map (fun e => ⟨elementAddress 0x2000 4 e, 4, (pairInputs.source e).bits.toNat⟩) ++
    (List.range 8).map (fun e => ⟨elementAddress 0x3000 4 e, 4, 7⟩) ++ pairConstants

theorem load?_pair {a : UInt64} {n v : Nat} (h : ⟨a, n, v⟩ ∈ pairCells) :
    (ofCells pairCells).load? a n = some v :=
  load?_ofCells (by decide +kernel) (by decide +kernel) h

theorem pair_accepted : pair.Accepted where
  src := rfl
  dst := ⟨.f32, rfl⟩
  outer := by decide
  batch := by decide
  inner := by decide
  count := by decide

theorem pointersAt_pair : PointersAt pair pairPointer 0x1000 (ofCells pairCells) :=
  fun role hrole => load?_pair ((by decide +kernel : ∀ role ∈ Role.used false,
    ⟨0x1000 + UInt64.ofNat (8 * role.index), 8, (pairPointer role).toNat⟩ ∈ pairCells) role hrole)

theorem holds_pair : Holds pair pairPointer pairInputs (ofCells pairCells) where
  source e he := load?_pair ((by decide +kernel : ∀ e < 8,
    ⟨elementAddress 0x2000 4 e, 4, (pairInputs.source e).bits.toNat⟩ ∈ pairCells) e he)
  affine := rfl
  factors f hf := by cases hf
  reciprocal b hb := load?_pair ((by decide +kernel : ∀ b < 2,
    ⟨elementAddress 0x4000 4 b, 4, 0x3e800000⟩ ∈ pairCells) b hb)
  epsilon b hb := load?_pair ((by decide +kernel : ∀ b < 2,
    ⟨elementAddress 0x5000 4 b, 4, 0x3727c5ac⟩ ∈ pairCells) b hb)
  one b hb := load?_pair ((by decide +kernel : ∀ b < 2,
    ⟨elementAddress 0x6000 4 b, 4, 0x3f800000⟩ ∈ pairCells) b hb)
  destination e he := mapped_of_load? (load?_pair ((by decide +kernel : ∀ e < 8,
    ⟨elementAddress 0x3000 4 e, 4, 7⟩ ∈ pairCells) e he))

theorem disjoint_pair {a : UInt64} {n e : Nat}
    (h : a.toNat + n ≤ 0x3000 ∨ 0x3020 ≤ a.toNat ∧ a.toNat + n ≤ 2 ^ 64) (he : e < 8) :
    Disjoint (span a n) (resultSpan pair pairPointer e) :=
  disjoint_elementSpan (by decide : (0x3000 : UInt64).toNat + 4 * 8 ≤ 2 ^ 64) h he

theorem source_apart_pair {e e' : Nat} (he : e < 8) (he' : e' < 8) :
    Disjoint (elementSpan (pairPointer .src) 4 e) (resultSpan pair pairPointer e') :=
  disjoint_pair (.inl ((by decide : ∀ e < 8, (elementAddress 0x2000 4 e).toNat + 4 ≤ 0x3000) e he)) he'

theorem apart_pair : Apart pair pairPointer where
  source e he e' he' _ := source_apart_pair he he'
  factor h := by cases h
  constant c b hb e he := by
    refine disjoint_pair (.inr ?_) he
    cases c
    · exact (by decide : ∀ b < 2, 0x3020 ≤ (elementAddress 0x4000 4 b).toNat ∧
        (elementAddress 0x4000 4 b).toNat + 4 ≤ 2 ^ 64) b hb
    · exact (by decide : ∀ b < 2, 0x3020 ≤ (elementAddress 0x5000 4 b).toNat ∧
        (elementAddress 0x5000 4 b).toNat + 4 ≤ 2 ^ 64) b hb
    · exact (by decide : ∀ b < 2, 0x3020 ≤ (elementAddress 0x6000 4 b).toNat ∧
        (elementAddress 0x6000 4 b).toNat + 4 ≤ 2 ^ 64) b hb

end AxisNorm.Normalization
