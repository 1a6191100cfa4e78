import AxisNorm.Proofs.Descriptor
import AxisNorm.Proofs.Kernel.Build

/-!
# What can be executed

Descriptors and the code are checked apart from each other. A descriptor meets all that the code asks
for but one thing: that byte offsets are positive signed numbers.

* `Parameters.routine?_of_fits`: the code for parameters as descriptors have them.
* `Kernel.build_native_outcome`: **which parameters have code, and which descriptors a kernel.**
-/

namespace AxisNorm

namespace Parameters

variable {p : Parameters} {name convention : String}

theorem accepted_iff_extents : p.Accepted ↔
    p.srcType = .float32 ∧ (p.dstType = .float32 ∨ p.dstType = .bfloat16) ∧
      (0 < p.split.outer ∧ 0 < p.split.batch ∧ 0 < p.split.inner) ∧
      p.split.outer * p.split.batch * p.split.inner ≤ 2 ^ 61 - 1 := by
  have hstorage : (∃ storage, storageType? p.dstType = some storage) ↔
      p.dstType = .float32 ∨ p.dstType = .bfloat16 := by
    cases p.dstType <;> simp [storageType?]
  constructor
  · intro h
    exact ⟨h.src, hstorage.mp h.dst, ⟨h.outer, h.batch, h.inner⟩, h.count⟩
  · rintro ⟨hsrc, hdst, ⟨houter, hbatch, hinner⟩, hcount⟩
    exact ⟨hsrc, hstorage.mpr hdst, houter, hbatch, hinner, hcount⟩

theorem checkExtents_of_fits {s : Split} (h : s.Fits) (hcount : countLimit < s.outer * s.batch * s.inner) :
    checkExtents s = .error (.countTooLarge (s.outer * s.batch * s.inner)) := by
  have hpos : ¬ (s.outer = 0 ∨ s.batch = 0 ∨ s.inner = 0) := by
    have houter := h.outer
    have hbatch := h.batch
    have hinner := h.inner
    omega
  rw [checkExtents, if_neg hpos, h.count_eq]
  dsimp only
  rw [if_neg (by omega)]

theorem routine?_of_fits (hsrc : p.srcType = .float32)
    (hdst : p.dstType = .float32 ∨ p.dstType = .bfloat16) (h : p.split.Fits)
    (hcount : countLimit < p.split.outer * p.split.batch * p.split.inner) :
    p.routine? name convention .i64 =
      .error (.countTooLarge (p.split.outer * p.split.batch * p.split.inner)) := by
  rw [routine?, if_neg (fun h => h rfl), if_neg (fun h => h hsrc)]
  rcases hdst with hdst | hdst <;> rw [hdst] <;> simp [storageType?, checkExtents_of_fits h hcount]

end Parameters

theorem Backend.native_compile_error {level : OptLevel} {p : Parameters} {name : String}
    {e : LoweringError} (h : p.routine? name "system_v" .i64 = .error e) :
    (Backend.native level).compile p name = (.error (.lowering e), []) := by
  unfold Backend.native
  simp only [h]

namespace Kernel

variable {σ : Type} {backend : Backend σ} {workers : Workers} {home : ConstantAddresses} {d : Descriptor}
  {requested : Nat}

section

variable {op : Operator} (hd : Descriptor.ofOperator op = .ok d) {level : OptLevel}

include hd

theorem descriptor_fits : d.split.Fits := by
  obtain ⟨⟨shape, hshape⟩, -⟩ := Descriptor.ofOperator_eq_ok hd
  exact Split.fits_of_ofShape hshape

theorem parameters_accepted (home : ConstantAddresses)
    (hcount : d.split.outer * d.split.batch * d.split.inner ≤ 2 ^ 61 - 1) :
    (d.parameters home).Accepted := by
  have hfits := descriptor_fits hd
  exact Parameters.accepted_iff_extents.mpr
    ⟨rfl, (Descriptor.ofOperator_eq_ok hd).2, ⟨hfits.outer, hfits.batch, hfits.inner⟩, hcount⟩

theorem parameters_countTooLarge (home : ConstantAddresses) (name convention : String)
    (hcount : 2 ^ 61 - 1 < d.split.outer * d.split.batch * d.split.inner) :
    (d.parameters home).routine? name convention .i64 =
      .error (.countTooLarge (d.split.outer * d.split.batch * d.split.inner)) := by
  have hlimit : countLimit = 2 ^ 61 - 1 := by decide
  exact Parameters.routine?_of_fits rfl (Descriptor.ofOperator_eq_ok hd).2 (descriptor_fits hd)
    (hlimit ▸ hcount)

theorem partition_of_room (hroom : effectiveThreads requested d.split.groupCount * WorkUnit.bytes < 2 ^ 63) :
    partition d.split.groupCount (effectiveThreads requested d.split.groupCount) =
      .ok ((List.range (effectiveThreads requested d.split.groupCount)).map
        (Slice.share d.split.groupCount (effectiveThreads requested d.split.groupCount))) := by
  refine partition_effectiveThreads (descriptor_fits hd).batch_lt ?_
  unfold WorkUnit.bytes at hroom
  unfold Slice.bytes
  omega

section

variable (hstarts : workers.Starts (effectiveThreads requested d.split.groupCount))
  (hroom : effectiveThreads requested d.split.groupCount * WorkUnit.bytes < 2 ^ 63)

include hstarts hroom

theorem build_native_ok (hcount : d.split.outer * d.split.batch * d.split.inner ≤ 2 ^ 61 - 1) :
    ∃ k, (build (Backend.native level) workers home d requested).1 = .ok k := by
  obtain ⟨k, events, hk⟩ := build_ok (partition_of_room hd hroom) hstarts hroom fun x _ =>
    Backend.native_compile_ok (parameters_accepted hd home hcount) level (instanceName x.thread)
  exact ⟨k, congrArg Prod.fst hk⟩

theorem build_native_error (hcount : 2 ^ 61 - 1 < d.split.outer * d.split.batch * d.split.inner) :
    ∃ t < effectiveThreads requested d.split.groupCount,
      (build (Backend.native level) workers home d requested).1 = .error (.error (.compilation t
        (.lowering (.countTooLarge (d.split.outer * d.split.batch * d.split.inner))))) := by
  have hcompile (name : String) : ((Backend.native level).compile (d.parameters home) name).1 =
      .error (.lowering (.countTooLarge (d.split.outer * d.split.batch * d.split.inner))) :=
    congrArg Prod.fst (Backend.native_compile_error (parameters_countTooLarge hd home name "system_v" hcount))
  cases hbuild : build (Backend.native level) workers home d requested with
  | mk result events =>
  cases result with
  | ok k =>
    -- A kernel has a unit, and its instance was compiled.
    obtain ⟨u, hu⟩ := List.exists_mem_of_ne_nil _ (units_ne_nil hbuild)
    obtain ⟨events', hcode⟩ := (build_eq_ok hbuild).2.2 u hu
    have herror := hcompile (instanceName u.slice.thread)
    rw [hcode] at herror
    cases herror
  | error e =>
    obtain ⟨x, hx, cause, rfl, hcause⟩ :=
      build_eq_error (partition_of_room hd hroom) hstarts hroom (congrArg Prod.fst hbuild)
    obtain ⟨t, ht, rfl⟩ := List.mem_map.mp hx
    rw [hcompile] at hcause
    cases hcause
    exact ⟨t, List.mem_range.mp ht, rfl⟩

end

theorem build_eq_threadPool (hslices : effectiveThreads requested d.split.groupCount * Slice.bytes < 2 ^ 63)
    (hseveral : 1 < effectiveThreads requested d.split.groupCount) {reason : String}
    (h : workers.start (effectiveThreads requested d.split.groupCount) = .error reason) :
    (build backend workers home d requested).1 = .error (.error (.threadPool reason)) :=
  build_of_refused (partition_effectiveThreads (descriptor_fits hd).batch_lt hslices) hseveral h

end

theorem build_eq_capacityOverflow (h : 2 ^ 63 ≤ effectiveThreads requested d.split.groupCount * Slice.bytes) :
    (build backend workers home d requested).1 = .error (.arithmetic .capacityOverflow) := by
  rw [build, partition_eq_error (by rw [max_effectiveThreads]; exact h)]

theorem build_ne_ok_of_full (h : 2 ^ 63 ≤ effectiveThreads requested d.split.groupCount * WorkUnit.bytes)
    (k : Kernel σ) : (build backend workers home d requested).1 ≠ .ok k := by
  intro hk
  exact absurd (starts_of_build (Prod.ext hk rfl)).2 (Nat.not_lt.mpr h)

/-- **Which parameters have code, and which descriptors a kernel.** A descriptor's kernel is built
exactly if its element count is at most `2 ^ 61 - 1`, where the host starts a pool for several threads and
there is room for the lists of slices and of units; of larger counts the code says that they are too large,
and no more. -/
theorem build_native_outcome :
    (∀ (p : Parameters) (name convention : String),
      (∃ code, p.routine? name convention .i64 = .ok code) ↔
        p.srcType = .float32 ∧ (p.dstType = .float32 ∨ p.dstType = .bfloat16) ∧
          (0 < p.split.outer ∧ 0 < p.split.batch ∧ 0 < p.split.inner) ∧
          p.split.outer * p.split.batch * p.split.inner ≤ 2 ^ 61 - 1) ∧
    ∀ (op : Operator) (d : Descriptor), Descriptor.ofOperator op = .ok d →
      ∃ count, d.split.count = .ok count ∧
        (∀ home name convention e, (d.parameters home).routine? name convention .i64 = .error e →
          e = .countTooLarge count) ∧
        ∀ level workers home requested,
          let n := effectiveThreads requested d.split.groupCount
          let result := (build (Backend.native level) workers home d requested).1
          (2 ^ 63 ≤ n * Slice.bytes → result = .error (.arithmetic .capacityOverflow)) ∧
          (n * Slice.bytes < 2 ^ 63 → 1 < n → ∀ reason, workers.start n = .error reason →
            result = .error (.error (.threadPool reason))) ∧
          (workers.Starts n → n * WorkUnit.bytes < 2 ^ 63 →
            ((∃ k, result = .ok k) ↔ count ≤ 2 ^ 61 - 1) ∧
            (2 ^ 61 - 1 < count → ∃ t < n,
              result = .error (.error (.compilation t (.lowering (.countTooLarge count)))))) ∧
          (2 ^ 63 ≤ n * WorkUnit.bytes → ¬ ∃ k, result = .ok k) := by
  refine ⟨fun p name convention => ?_, fun op d hd => ?_⟩
  · rw [← Parameters.accepted_iff, Parameters.accepted_iff_extents]
  refine ⟨_, (descriptor_fits hd).count_eq, fun home name convention e he => ?_,
    fun level workers home requested => ⟨build_eq_capacityOverflow,
      fun hslices hseveral reason => build_eq_threadPool hd hslices hseveral,
      fun hstarts hroom => ⟨⟨?_, ?_⟩, ?_⟩, fun hfull ⟨k, hk⟩ => build_ne_ok_of_full hfull k hk⟩⟩
  · by_cases hcount : d.split.outer * d.split.batch * d.split.inner ≤ 2 ^ 61 - 1
    · obtain ⟨code, hcode⟩ := Parameters.accepted_iff.mp (parameters_accepted hd home hcount)
      rw [hcode] at he
      cases he
    · rw [parameters_countTooLarge hd home name convention (by omega)] at he
      cases he
      rfl
  · rintro ⟨k, hk⟩
    by_contra hcount
    obtain ⟨t, -, herror⟩ := build_native_error hd hstarts hroom (Nat.lt_of_not_le hcount)
    rw [herror] at hk
    cases hk
  · exact build_native_ok hd hstarts hroom
  · exact build_native_error hd hstarts hroom

/-- A description of `groups` groups of `size` elements. -/
def matrix (groups size : Nat) : Operator where
  kind := .layernormBa
  propagation := .forwardInference
  engine := .cpu
  tensors := [⟨[groups, size], .float32⟩, ⟨[groups, size], .float32⟩]
  batchAxis := 0
  attributes := ∅

/-- A kernel of two threads, the second of which is compiled first, and one whose only group is too large. -/
theorem build_native_outcome_matrix :
    (∃ d k, Descriptor.ofOperator (matrix 2 3) = .ok d ∧
      (build (Backend.native .speed) (.sequential 2 true) ⟨0x4000, 0x5000, 0x6000⟩ d 2).1 = .ok k) ∧
    ∃ d, Descriptor.ofOperator (matrix 1 (2 ^ 61)) = .ok d ∧
      (build (Backend.native .speed) (.sequential 2 true) ⟨0x4000, 0x5000, 0x6000⟩ d 1).1 =
        .error (.error (.compilation 0 (.lowering (.countTooLarge (2 ^ 61))))) := by
  constructor
  · obtain ⟨d, hd, hsplit⟩ : ∃ d, Descriptor.ofOperator (matrix 2 3) = .ok d ∧ d.split = ⟨1, 2, 3⟩ :=
      ⟨_, rfl, rfl⟩
    obtain ⟨count, hcount, -, h⟩ := build_native_outcome.2 _ d hd
    rw [hsplit] at hcount
    cases hcount
    obtain ⟨-, -, hbuilt, -⟩ := h .speed (.sequential 2 true) ⟨0x4000, 0x5000, 0x6000⟩ 2
    rw [hsplit] at hbuilt
    obtain ⟨k, hk⟩ := (hbuilt (fun _ => rfl) (by decide)).1.mpr (by decide)
    exact ⟨d, k, hd, hk⟩
  · obtain ⟨d, hd, hsplit⟩ : ∃ d, Descriptor.ofOperator (matrix 1 (2 ^ 61)) = .ok d ∧
        d.split = ⟨1, 1, 2 ^ 61⟩ := ⟨_, rfl, rfl⟩
    obtain ⟨count, hcount, -, h⟩ := build_native_outcome.2 _ d hd
    rw [hsplit] at hcount
    cases hcount
    obtain ⟨-, -, hbuilt, -⟩ := h .speed (.sequential 2 true) ⟨0x4000, 0x5000, 0x6000⟩ 1
    have hone : effectiveThreads 1 d.split.groupCount = 1 := by
      rw [hsplit]
      decide
    rw [hone] at hbuilt
    obtain ⟨t, ht, herror⟩ := (hbuilt (fun h => absurd h (by decide)) (by decide)).2 (by decide)
    obtain rfl : t = 0 := by omega
    exact ⟨d, hd, herror⟩

/-- A tensor of a hundred thousand groups is small for the code, and yet there is no kernel with a thread
for each group if the host has no pool of so many threads. -/
theorem no_kernel_without_pool : ∃ d count, Descriptor.ofOperator (matrix 100000 1) = .ok d ∧
    d.split.count = .ok count ∧ count ≤ 2 ^ 61 - 1 ∧
      (build (Backend.native .speed) (.sequential 0x8000 false) ⟨0x4000, 0x5000, 0x6000⟩ d 100000).1 =
        .error (.error (.threadPool "Resource temporarily unavailable (os error 11)")) := by
  obtain ⟨d, hd, hsplit⟩ : ∃ d, Descriptor.ofOperator (matrix 100000 1) = .ok d ∧
      d.split = ⟨1, 100000, 1⟩ := ⟨_, rfl, rfl⟩
  have hthreads : effectiveThreads 100000 d.split.groupCount = 100000 := by
    rw [hsplit]
    decide
  refine ⟨d, 100000, hd, by rw [hsplit]; rfl, by decide, build_eq_threadPool hd ?_ ?_ ?_⟩
  all_goals
    rw [hthreads]
    decide

end Kernel

end AxisNorm
