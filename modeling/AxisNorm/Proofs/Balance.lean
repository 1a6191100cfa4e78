import AxisNorm.Proofs.Partition
import Mathlib.Algebra.BigOperators.Group.List.Basic
import Mathlib.Data.List.Range

/-!
# A batch shared evenly and in order

* `Slice.stop_share`: a slice ends where the next one starts, and no end overflows.
* `Shared`: slices in the order of their threads that cover a batch without gaps, of lengths that differ
  by at most one.
* `partition_shares`: **this is how every batch is shared**, as long as there is room for the list of
  slices.
-/

namespace AxisNorm

namespace Slice

variable {batch n t : Nat}

theorem stop_share (hn : 0 < n) (ht : t < n) (hbatch : batch < sizeLimit) :
    (share batch n t).stop = .ok (first batch n (t + 1)) := by
  have hle : (share batch n t).start + (share batch n t).length ≤ batch := stop_le hn ht
  rw [first_succ]
  exact Checked.add_eq_ok (Nat.lt_of_le_of_lt hle hbatch)

theorem first_le (hn : 0 < n) (ht : t ≤ n) : first batch n t ≤ batch := by
  have hle : first batch n t ≤ first batch n n := first_le_first ht
  rwa [first_self batch hn] at hle

theorem sum_length_shares (batch n m : Nat) :
    (((List.range m).map (share batch n)).map (·.length)).sum = first batch n m := by
  induction m with
  | zero =>
    rw [first_zero]
    rfl
  | succ m ih =>
    rw [List.range_succ, List.map_append, List.map_append, List.sum_append, ih, first_succ]
    rfl

end Slice

/-- `n` slices in the order of their threads share a batch. -/
structure Shared (batch n : Nat) (slices : List Slice) : Prop where
  threads : slices.map (·.thread) = List.range n
  first : slices.head?.map (·.start) = some 0
  /-- Each slice starts where the one before it ends. -/
  consecutive : slices.IsChain fun x y => x.stop = .ok y.start
  last : slices.getLast?.map (·.stop) = some (.ok batch)
  stops : ∀ x ∈ slices, ∃ e ≤ batch, x.stop = .ok e
  /-- No slice is shorter than a later one, nor longer by more than one. -/
  balanced : slices.Pairwise fun x y => y.length ≤ x.length ∧ x.length ≤ y.length + 1
  total : (slices.map (·.length)).sum = batch

theorem shared_shares {batch n : Nat} (hn : 0 < n) (hbatch : batch < sizeLimit) :
    Shared batch n ((List.range n).map (.share batch n)) := by
  obtain ⟨m, rfl⟩ : ∃ m, n = m + 1 := Nat.exists_eq_succ_of_ne_zero (Nat.ne_of_gt hn)
  constructor
  case threads =>
    rw [List.map_map]
    exact List.map_id' _
  case first =>
    rw [List.range_succ_eq_map, List.map_cons, List.head?_cons, Option.map_some]
    exact congrArg some (Slice.first_zero batch (m + 1))
  case consecutive =>
    rw [List.isChain_map, List.isChain_range_succ]
    intro t ht
    exact Slice.stop_share hn (Nat.lt_succ_of_lt ht) hbatch
  case last =>
    rw [List.range_succ, List.map_append, List.map_cons, List.map_nil, List.getLast?_concat, Option.map_some,
      Slice.stop_share hn (Nat.lt_succ_self m) hbatch, Slice.first_self batch hn]
  case stops =>
    intro x hx
    obtain ⟨t, ht, rfl⟩ := List.mem_map.mp hx
    have ht := List.mem_range.mp ht
    exact ⟨_, Slice.first_le hn ht, Slice.stop_share hn ht hbatch⟩
  case balanced =>
    rw [List.pairwise_map]
    apply List.pairwise_lt_range.imp
    intro t t' hlt
    unfold Slice.share
    dsimp only
    constructor <;> split <;> split <;> omega
  case total =>
    rw [Slice.sum_length_shares, Slice.first_self batch hn]

theorem effectiveThreads_le {requested batch : Nat} (hbatch : 0 < batch) :
    effectiveThreads requested batch ≤ batch := by
  unfold effectiveThreads
  omega

theorem length_pos_of_partition {requested batch : Nat} (hpos : 0 < batch) (hbatch : batch < sizeLimit)
    {slices : List Slice} (h : partition batch (effectiveThreads requested batch) = .ok slices) :
    ∀ x ∈ slices, 0 < x.length := by
  obtain ⟨-, rfl⟩ := (partition_eq_ok_iff hbatch).mp h
  intro x hx
  obtain ⟨t, -, rfl⟩ := List.mem_map.mp hx
  rw [max_effectiveThreads]
  have hshare : 0 < batch / effectiveThreads requested batch :=
    Nat.div_pos (effectiveThreads_le hpos) (effectiveThreads_pos requested batch)
  exact Nat.lt_of_lt_of_le hshare (Nat.le_add_right _ _)

/-- **Every batch is shared evenly and in order, as long as there is room for the list of slices.** The
slices themselves are always computed without overflow. Of the threads that a batch can use none is left
without a position. -/
theorem partition_shares {batch : Nat} (hbatch : batch < sizeLimit) (threads requested : Nat) :
    (∀ t < max threads 1, ∃ x, sliceOf (batch / max threads 1) (batch % max threads 1) t = .ok x) ∧
    (2 ^ 63 ≤ max threads 1 * Slice.bytes → partition batch threads = .error .capacityOverflow) ∧
    (max threads 1 * Slice.bytes < 2 ^ 63 →
      ∃ slices, partition batch threads = .ok slices ∧ Shared batch (max threads 1) slices) ∧
    (0 < batch →
      1 ≤ effectiveThreads requested batch ∧ effectiveThreads requested batch ≤ batch ∧
      (1 ≤ requested → requested ≤ batch → effectiveThreads requested batch = requested) ∧
      ∀ slices, partition batch (effectiveThreads requested batch) = .ok slices → ∀ x ∈ slices, 0 < x.length) := by
  have hn : 0 < max threads 1 := by omega
  refine ⟨?_, partition_eq_error, ?_, ?_⟩
  · intro t ht
    exact ⟨_, sliceOf_eq_ok hn hbatch ht⟩
  · intro hroom
    exact ⟨_, (partition_eq_ok_iff hbatch).mpr ⟨hroom, rfl⟩, shared_shares hn hbatch⟩
  · intro hpos
    refine ⟨effectiveThreads_pos requested batch, effectiveThreads_le hpos, ?_, ?_⟩
    · intro hone hle
      unfold effectiveThreads
      omega
    · intro slices h
      exact length_pos_of_partition hpos hbatch h

/-- The largest batch shared by four threads. -/
theorem partition_shares_largest : 18446744073709551615 < sizeLimit ∧
    partition 18446744073709551615 4 =
      .ok [⟨0, 0, 4611686018427387904⟩, ⟨1, 4611686018427387904, 4611686018427387904⟩,
        ⟨2, 9223372036854775808, 4611686018427387904⟩, ⟨3, 13835058055282163712, 4611686018427387903⟩] ∧
    Shared 18446744073709551615 4
      [⟨0, 0, 4611686018427387904⟩, ⟨1, 4611686018427387904, 4611686018427387904⟩,
        ⟨2, 9223372036854775808, 4611686018427387904⟩, ⟨3, 13835058055282163712, 4611686018427387903⟩] := by
  have hbatch : 18446744073709551615 < sizeLimit := by decide
  obtain ⟨slices, hslices, hshared⟩ := (partition_shares hbatch 4 4).2.2.1 (by decide)
  have heq : partition 18446744073709551615 4 =
      .ok [⟨0, 0, 4611686018427387904⟩, ⟨1, 4611686018427387904, 4611686018427387904⟩,
        ⟨2, 9223372036854775808, 4611686018427387904⟩, ⟨3, 13835058055282163712, 4611686018427387903⟩] := by
    rfl
  cases hslices.symm.trans heq
  exact ⟨hbatch, heq, hshared⟩

/-- For more threads than a list of slices has room for there are no slices, however small the batch. -/
theorem no_slices_without_room :
    ¬ ∃ slices, partition 1 18446744073709551615 = .ok slices ∧ slices.length = max 18446744073709551615 1 := by
  rintro ⟨slices, hslices, -⟩
  have hroom := ((partition_eq_ok_iff (by decide)).mp hslices).1
  exact absurd hroom (by decide)

end AxisNorm
