import AxisNorm.Partition
import AxisNorm.Proofs.Arithmetic

/-!
# The slices of a batch

* `Slice.first`: the first position of a slice, as a number without a bound.
* `partition_eq_ok_iff`: **when a batch is shared, and what the slices are.**
* `partition_effectiveThreads`: the slices of the threads that a batch can use.
* `Slice.exists_owner`: every position lies in one slice.
* `Tiles`: slices that share a batch.
-/

namespace AxisNorm

namespace Slice

variable {batch n t t' b : Nat}

/-- The slice has the position. -/
def Covers (x : Slice) (b : Nat) : Prop := x.start ≤ b ∧ b < x.start + x.length

/-- How many positions of `batch` the first `t` of `n` threads get. -/
def first (batch n t : Nat) : Nat := t * (batch / n) + min t (batch % n)

/-- The slice of thread `t` of `n`. -/
def share (batch n t : Nat) : Slice :=
  ⟨t, first batch n t, batch / n + if t < batch % n then 1 else 0⟩

theorem first_zero (batch n : Nat) : first batch n 0 = 0 := by simp [first]

theorem first_succ (batch n t : Nat) :
    first batch n (t + 1) = first batch n t + (share batch n t).length := by
  unfold first share
  rw [Nat.succ_mul]
  dsimp only
  split <;> omega

theorem first_self (batch : Nat) (hn : 0 < n) : first batch n n = batch := by
  have hmod := Nat.mod_lt batch hn
  rw [first, Nat.min_eq_right (Nat.le_of_lt hmod), Nat.div_add_mod]

theorem first_le_first (h : t ≤ t') : first batch n t ≤ first batch n t' := by
  induction h with
  | refl => exact Nat.le_refl _
  | step _ ih => rw [first_succ]; omega

theorem covers_share : (share batch n t).Covers b ↔ first batch n t ≤ b ∧ b < first batch n (t + 1) := by
  rw [first_succ]
  exact Iff.rfl

theorem exists_owner (hn : 0 < n) (hb : b < batch) :
    ∃ t < n, ∀ t', (share batch n t').Covers b ↔ t' = t := by
  -- The first slice that ends behind `b`.
  have hexists : ∀ m, b < first batch n m → ∃ t < m, (share batch n t).Covers b := by
    intro m hm
    induction m with
    | zero => rw [first_zero] at hm; omega
    | succ m ih =>
      by_cases hfirst : b < first batch n m
      · obtain ⟨t, ht, hcovers⟩ := ih hfirst
        exact ⟨t, by omega, hcovers⟩
      · exact ⟨m, by omega, covers_share.mpr ⟨by omega, hm⟩⟩
  obtain ⟨t, ht, hcovers⟩ := hexists n (by rwa [first_self batch hn])
  refine ⟨t, ht, fun t' => ⟨fun hcovers' => ?_, fun h => h ▸ hcovers⟩⟩
  rw [covers_share] at hcovers hcovers'
  rcases Nat.lt_trichotomy t' t with hlt | rfl | hlt
  · have hle : first batch n (t' + 1) ≤ first batch n t := first_le_first hlt
    omega
  · rfl
  · have hle : first batch n (t + 1) ≤ first batch n t' := first_le_first hlt
    omega

theorem stop_le (hn : 0 < n) (ht : t < n) :
    (share batch n t).start + (share batch n t).length ≤ batch := by
  have hle : first batch n (t + 1) ≤ first batch n n := first_le_first ht
  rw [first_self batch hn, first_succ] at hle
  exact hle

end Slice

theorem mapM_eq_ok {ε α β : Type} {f : α → Except ε β} {g : α → β} {xs : List α}
    (h : ∀ x ∈ xs, f x = .ok (g x)) : xs.mapM f = .ok (xs.map g) := by
  induction xs with
  | nil => rfl
  | cons x xs ih =>
    rw [List.mapM_cons, h x List.mem_cons_self, ih fun y hy => h y (List.mem_cons_of_mem x hy)]
    rfl

theorem map_of_mapM_eq_ok {ε α β γ : Type} {f : α → Except ε β} {g : β → γ} {h : α → γ}
    (hf : ∀ x y, f x = .ok y → g y = h x) {xs : List α} {ys : List β} (hys : xs.mapM f = .ok ys) :
    ys.map g = xs.map h := by
  induction xs generalizing ys with
  | nil => cases hys; rfl
  | cons x xs ih =>
    rw [List.mapM_cons, bind_eq_ok_iff] at hys
    obtain ⟨y, hy, hys⟩ := hys
    rw [bind_eq_ok_iff] at hys
    obtain ⟨ys, hrest, hcons⟩ := hys
    cases hcons
    rw [List.map_cons, List.map_cons, hf x y hy, ih hrest]

theorem partition_threads {batch threads : Nat} {slices : List Slice}
    (h : partition batch threads = .ok slices) :
    slices.map (·.thread) = List.range (max threads 1) := by
  unfold partition at h
  rw [bind_eq_ok_iff] at h
  obtain ⟨_, -, h⟩ := h
  rw [map_of_mapM_eq_ok (fun t slice hslice => ?_) h, List.map_id']
  unfold sliceOf at hslice
  simp only [bind_eq_ok_iff] at hslice
  obtain ⟨_, -, _, -, _, -, hslice⟩ := hslice
  cases hslice
  rfl

theorem sliceOf_eq_ok {batch n t : Nat} (hn : 0 < n) (hbatch : batch < sizeLimit) (ht : t < n) :
    sliceOf (batch / n) (batch % n) t = .ok (.share batch n t) := by
  have hstop : (Slice.share batch n t).start + (Slice.share batch n t).length ≤ batch :=
    Slice.stop_le hn ht
  unfold Slice.share Slice.first at hstop ⊢
  dsimp only at hstop
  generalize batch / n = share at hstop ⊢
  have hbefore : t * share < sizeLimit := by omega
  have hstart : t * share + min t (batch % n) < sizeLimit := by omega
  have hlength : share + (if t < batch % n then 1 else 0) < sizeLimit := by omega
  unfold sliceOf
  simp only [bind, Except.bind, Checked.multiply_eq_ok hbefore, Checked.add_eq_ok hstart,
    Checked.add_eq_ok hlength]
  rfl

/-- **When a batch is shared, and what the slices are.** -/
theorem partition_eq_ok_iff {batch threads : Nat} (hbatch : batch < sizeLimit) {slices : List Slice} :
    partition batch threads = .ok slices ↔
      max threads 1 * Slice.bytes < 0x8000000000000000 ∧
        slices = (List.range (max threads 1)).map (.share batch (max threads 1)) := by
  have hslices : (List.range (max threads 1)).mapM
      (sliceOf (batch / max threads 1) (batch % max threads 1)) =
        .ok ((List.range (max threads 1)).map (.share batch (max threads 1))) :=
    mapM_eq_ok fun t ht => sliceOf_eq_ok (by omega) hbatch (List.mem_range.mp ht)
  unfold partition
  rw [bind_eq_ok_iff]
  constructor
  · rintro ⟨_, hroom, h⟩
    rw [hslices] at h
    exact ⟨Checked.reserve_eq_ok_iff.mp hroom, (Except.ok.inj h).symm⟩
  · rintro ⟨hroom, rfl⟩
    exact ⟨(), Checked.reserve_eq_ok_iff.mpr hroom, hslices⟩

theorem partition_eq_error {batch threads : Nat} (h : 2 ^ 63 ≤ max threads 1 * Slice.bytes) :
    partition batch threads = .error .capacityOverflow := by
  rw [partition, Checked.reserve, if_neg (by omega)]
  rfl

theorem effectiveThreads_pos (requested batch : Nat) : 0 < effectiveThreads requested batch := by
  unfold effectiveThreads
  omega

theorem max_effectiveThreads (requested batch : Nat) :
    max (effectiveThreads requested batch) 1 = effectiveThreads requested batch :=
  Nat.max_eq_left (effectiveThreads_pos requested batch)

theorem partition_effectiveThreads {batch requested : Nat} (hbatch : batch < sizeLimit)
    (hroom : effectiveThreads requested batch * Slice.bytes < 2 ^ 63) :
    partition batch (effectiveThreads requested batch) =
      .ok ((List.range (effectiveThreads requested batch)).map
        (.share batch (effectiveThreads requested batch))) := by
  have h := (partition_eq_ok_iff hbatch).mpr ⟨by rw [max_effectiveThreads]; exact hroom, rfl⟩
  rwa [max_effectiveThreads] at h

/-! ## Slices that share a batch -/

/-- The slices share a batch. -/
structure Tiles (batch : Nat) (slices : List Slice) : Prop where
  within : ∀ x ∈ slices, x.start + x.length ≤ batch
  disjoint : slices.Pairwise fun x y => ∀ b, ¬ (x.Covers b ∧ y.Covers b)
  cover : ∀ b < batch, ∃ x ∈ slices, x.Covers b

theorem tiles_partition {batch threads : Nat} (hbatch : batch < sizeLimit) {slices : List Slice}
    (h : partition batch threads = .ok slices) : Tiles batch slices := by
  obtain ⟨-, rfl⟩ := (partition_eq_ok_iff hbatch).mp h
  have hn : 0 < max threads 1 := by omega
  generalize max threads 1 = n at hn ⊢
  refine ⟨?_, ?_, fun b hb => ?_⟩
  · intro x hx
    obtain ⟨t, ht, rfl⟩ := List.mem_map.mp hx
    exact Slice.stop_le hn (List.mem_range.mp ht)
  · rw [List.pairwise_map]
    refine List.Pairwise.imp_of_mem ?_ List.nodup_range
    rintro t t' ht - hne b ⟨hcovers, hcovers'⟩
    have hb : b < batch := Nat.lt_of_lt_of_le hcovers.2 (Slice.stop_le hn (List.mem_range.mp ht))
    obtain ⟨owner, -, howner⟩ := Slice.exists_owner hn hb
    exact hne (((howner t).mp hcovers).trans ((howner t').mp hcovers').symm)
  · obtain ⟨t, ht, howner⟩ := Slice.exists_owner hn hb
    exact ⟨_, List.mem_map.mpr ⟨t, List.mem_range.mpr ht, rfl⟩, (howner t).mpr rfl⟩

end AxisNorm
