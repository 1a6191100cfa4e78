import AxisNorm.Proofs.Partition
import AxisNorm.Proofs.Split

/-!
# Who writes which element

The positions of the tensor shared among threads: a thread owns the groups of its slice, and of each
group all elements.

* `Split.Writes`: a thread writes a position, as some element of some group.
* `Split.exact_ownership`: **every position is written once, by one thread, and nothing else is.** There
  has to be room for the list of slices.
-/

namespace AxisNorm.Split

/-- Thread `t` writes position `f`, which is element `k` of group `b`. -/
structure Writes (s : Split) (slices : List Slice) (f t b k : Nat) : Prop where
  slice : ∃ x, slices[t]? = some x ∧ x.Covers b
  size : ∃ n, s.groupSize = .ok n ∧ k < n
  offset : s.offset b k = .ok f

variable {s : Split} {batch n f t b k : Nat}

theorem getElem?_shares_eq_some {x : Slice} :
    ((List.range n).map (Slice.share batch n))[t]? = some x ↔ t < n ∧ x = .share batch n t := by
  rw [List.getElem?_map, Option.map_eq_some_iff]
  constructor
  · rintro ⟨t', ht', rfl⟩
    obtain ⟨ht, rfl⟩ := List.getElem?_eq_some_iff.mp ht'
    rw [List.getElem_range]
    exact ⟨by simpa using ht, rfl⟩
  · rintro ⟨ht, rfl⟩
    exact ⟨t, List.getElem?_range ht, rfl⟩

theorem writes_iff (h : s.Fits) (hn : 0 < n) :
    s.Writes ((List.range n).map (.share s.batch n)) f t b k ↔
      t < n ∧ (Slice.share s.batch n t).Covers b ∧ k < s.outer * s.inner ∧ s.position b k = f := by
  constructor
  · rintro ⟨⟨x, hx, hcovers⟩, ⟨size, hsize, hk⟩, hoffset⟩
    obtain ⟨ht, rfl⟩ := getElem?_shares_eq_some.mp hx
    rw [h.groupSize_eq] at hsize
    obtain rfl := Except.ok.inj hsize
    exact ⟨ht, hcovers, hk, (eq_position_of_offset hoffset).symm⟩
  · rintro ⟨ht, hcovers, hk, rfl⟩
    have hb : b < s.batch := Nat.lt_of_lt_of_le hcovers.2 (Slice.stop_le hn ht)
    exact ⟨⟨_, getElem?_shares_eq_some.mpr ⟨ht, rfl⟩, hcovers⟩, ⟨_, h.groupSize_eq, hk⟩,
      h.offset_eq hb hk⟩

theorem exists_writer (h : s.Fits) (hn : 0 < n) (hf : f < s.outer * s.batch * s.inner) :
    ∃ t, ∀ t' b k, s.Writes ((List.range n).map (.share s.batch n)) f t' b k ↔
      t' = t ∧ b = f / s.inner % s.batch ∧ k = f / (s.batch * s.inner) * s.inner + f % s.inner := by
  have hgroup : f / s.inner % s.batch < s.batch := Nat.mod_lt _ h.batch
  obtain ⟨t, ht, howner⟩ := Slice.exists_owner hn hgroup
  refine ⟨t, fun t' b k => ?_⟩
  rw [writes_iff h hn]
  constructor
  · rintro ⟨ht', hcovers, hk, hposition⟩
    have hb : b < s.batch := Nat.lt_of_lt_of_le hcovers.2 (Slice.stop_le hn ht')
    obtain ⟨rfl, rfl⟩ := (position_eq_iff hb h.inner).mp hposition
    exact ⟨(howner t').mp hcovers, rfl, rfl⟩
  · rintro ⟨rfl, rfl, rfl⟩
    exact ⟨ht, (howner t').mpr rfl, index_lt hf, position_of_index h.inner⟩

/-- **Every position is written once, by one thread, and nothing else is.** The batch is shared exactly
if there is room for the list of slices; `offset` is checked arithmetic, so a result means that no
step of it overflows. -/
theorem exact_ownership {shape : Shape} {axis : Nat} (h : ofShape shape axis = .ok s) (requested : Nat) :
    (2 ^ 63 ≤ effectiveThreads requested s.groupCount * Slice.bytes →
      partition s.groupCount (effectiveThreads requested s.groupCount) = .error .capacityOverflow) ∧
    (effectiveThreads requested s.groupCount * Slice.bytes < 2 ^ 63 →
      ∃ (slices : List Slice) (count : Nat),
        partition s.groupCount (effectiveThreads requested s.groupCount) = .ok slices ∧
        s.count = .ok count ∧
        (∀ f < count, ∃ t, ∀ t' b k, s.Writes slices f t' b k ↔
          t' = t ∧ b = f / s.inner % s.batch ∧ k = f / (s.batch * s.inner) * s.inner + f % s.inner) ∧
        ∀ t b k : Nat, (∃ x, slices[t]? = some x ∧ x.Covers b) → (∃ n, s.groupSize = .ok n ∧ k < n) →
          ∃ f < count, s.offset b k = .ok f) := by
  have hfits := fits_of_ofShape h
  have hn : max (effectiveThreads requested s.groupCount) 1 = effectiveThreads requested s.groupCount := by
    unfold effectiveThreads
    omega
  have hpos : 0 < effectiveThreads requested s.groupCount := by omega
  generalize effectiveThreads requested s.groupCount = n at hn hpos ⊢
  constructor
  · intro hfull
    rw [partition, hn, Checked.reserve, if_neg (by omega)]
    rfl
  · intro hroom
    have hslices : partition s.groupCount n = .ok ((List.range (max n 1)).map (.share s.batch (max n 1))) :=
      (partition_eq_ok_iff hfits.batch_lt).mpr ⟨by rw [hn]; exact hroom, rfl⟩
    rw [hn] at hslices
    refine ⟨_, _, hslices, hfits.count_eq, fun f hf => exists_writer hfits hpos hf, ?_⟩
    rintro t b k ⟨x, hx, hcovers⟩ ⟨size, hsize, hk⟩
    obtain ⟨ht, rfl⟩ := getElem?_shares_eq_some.mp hx
    rw [hfits.groupSize_eq] at hsize
    obtain rfl := Except.ok.inj hsize
    have hb : b < s.batch := Nat.lt_of_lt_of_le hcovers.2 (Slice.stop_le hpos ht)
    exact ⟨_, position_lt hb hk, hfits.offset_eq hb hk⟩

/-- The batch of a small tensor shared by two threads. -/
theorem exact_ownership_two_threads :
    ofShape [2, 3, 2] 1 = .ok ⟨2, 3, 2⟩ ∧ effectiveThreads 2 3 * Slice.bytes < 2 ^ 63 ∧
      ∃ slices, partition 3 (effectiveThreads 2 3) = .ok slices ∧
        ∃ t, ∀ t' b k, Writes ⟨2, 3, 2⟩ slices 9 t' b k ↔ t' = t ∧ b = 1 ∧ k = 3 := by
  have hshape : ofShape [2, 3, 2] 1 = .ok ⟨2, 3, 2⟩ := rfl
  have hroom : effectiveThreads 2 3 * Slice.bytes < 2 ^ 63 := by decide
  obtain ⟨slices, count, hslices, hcount, howned, -⟩ := (exact_ownership hshape 2).2 hroom
  obtain rfl : (12 : Nat) = count := Except.ok.inj hcount
  exact ⟨hshape, hroom, slices, hslices, howned 9 (by decide)⟩

/-- Without room for the list of slices nobody writes the first position. -/
theorem no_writer_without_room :
    ofShape [4611686018427387904, 1] 0 = .ok ⟨1, 4611686018427387904, 1⟩ ∧
      ¬ ∃ slices t b k,
        partition 4611686018427387904 (effectiveThreads 4611686018427387904 4611686018427387904) =
          .ok slices ∧
        Writes ⟨1, 4611686018427387904, 1⟩ slices 0 t b k := by
  refine ⟨rfl, ?_⟩
  rintro ⟨slices, t, b, k, hslices, -⟩
  have hroom := ((partition_eq_ok_iff (by decide)).mp hslices).1
  exact absurd hroom (by decide)

end AxisNorm.Split
