import AxisNorm.Proofs.Normalization.Buffers
import AxisNorm.Proofs.Normalization.Call
import AxisNorm.Proofs.Normalization.Rules

/-!
# What a call answers

* `Answers`: whatever numbers memory holds, and others write, a task ends with status `ok`.
* `groupsProgram_answers`: the loop over groups does.
* `call_status`: **a call answers by the exact end of its slice first, then by its pointers, and it
  changes memory only if it answers `ok` to a slice that is not empty.**
-/

namespace AxisNorm

open Code Memory

/-- How a call ends that answers with a status. -/
def Status.exit (s : Status) : Exit := .returned (UInt32.ofNat s.code)

namespace Normalization

/-- In a memory with the same addresses mapped, the task ends with status `ok`. -/
def Answers (own others : Set UInt64) (m₀ : Memory) (t : Task Memory Exit) : Prop :=
  ∀ m, ChangedIn Set.univ m₀ m →
    t.Ensures (contract own others) (fun exit _ => exit = Status.ok.exit) m

section

variable {own others : Set UInt64} {m₀ : Memory}

theorem loadNumber_answers {base : UInt64} {e : Nat} {next : Single → Task Memory Exit}
    (hmapped : m₀.mapped (elementAddress base 4 e) 4 = true) (h : ∀ x, Answers own others m₀ (next x)) :
    Answers own others m₀ (loadNumber base e next) := by
  intro m hm
  refine loadNumber_ensures fun m' hm' => ?_
  have hm₀ : ChangedIn Set.univ m₀ m' := hm.trans (hm'.mono (Set.subset_univ _))
  obtain ⟨v, hv⟩ := exists_load? ((hm₀.mapped _ _).trans hmapped)
  exact ⟨v, hv, h _ m' hm₀⟩

theorem store_answers {a : UInt64} {n v : Nat} {t : Task Memory Exit} (hown : span a n ⊆ own)
    (hmapped : m₀.mapped a n = true) (h : Answers own others m₀ t) :
    Answers own others m₀ (Task.store a n v t) := by
  intro m hm
  refine store_ensures hown fun m' hm' => ?_
  have hm₀ : ChangedIn Set.univ m₀ m' := hm.trans (hm'.mono (Set.subset_univ _))
  have hmapped' := (hm₀.mapped a n).trans hmapped
  exact ⟨hmapped', h _ (hm₀.trans ((changedIn_write hmapped').mono (Set.subset_univ _)))⟩

theorem overElements_answers {S : Type} {body : Nat → S → (S → Task Memory Exit) → Task Memory Exit}
    {next : S → Task Memory Exit} {n : Nat}
    (hbody : ∀ k < n, ∀ s rest, (∀ s', Answers own others m₀ (rest s')) → Answers own others m₀ (body k s rest))
    (hnext : ∀ s, Answers own others m₀ (next s)) (s : S) : Answers own others m₀ (overElements body next n 0 s) :=
  fun _ hm => overElements_ensures (fun _ _ m => ChangedIn Set.univ m₀ m)
    (fun k hk s m rest hm hrest => hbody k hk s rest (fun s' m' hm' => hrest s' m' hm') m hm)
    (fun s m hm => hnext s m hm) (Nat.zero_add n) hm

variable {p : Parameters} {pointer : Role → UInt64} {start stop : Nat}
  (h : BuffersMapped p pointer start stop m₀) {b : Nat} (hstart : start ≤ b) (hstop : b < stop)

include h hstart hstop

theorem sums_answers {term : Single → Single} {next : Single → Task Memory Exit}
    (hnext : ∀ s, Answers own others m₀ (next s)) (s : Single) :
    Answers own others m₀ (overElements (sumStep p pointer term b) next (p.split.outer * p.split.inner) 0 s) :=
  overElements_answers (fun k hk _ _ hrest =>
    loadNumber_answers (h.source b k hstart hstop hk) fun _ => hrest _) hnext s

variable (hown : ∀ k < p.split.outer * p.split.inner, resultSpan p pointer (p.split.position b k) ⊆ own)

include hown

theorem normalizeProgram_answers {mean inverse : Single} {next : Task Memory Exit}
    (hnext : Answers own others m₀ next) : Answers own others m₀ (normalizeProgram p pointer b mean inverse next) := by
  refine overElements_answers (fun k hk _ rest hrest => ?_) (fun _ => hnext) ()
  refine loadNumber_answers (h.source b k hstart hstop hk) fun x => ?_
  have hstore (y : Single) : Answers own others m₀
      (.store (elementAddress (pointer .dst) p.dstType.bytes (p.split.position b k)) p.dstType.bytes
        (p.dstType.stored y) (rest ())) :=
    store_answers (hown k hk) (h.destination b k hstart hstop hk) (hrest ())
  by_cases haffine : p.affine = true
  · obtain ⟨halpha, hbeta⟩ := h.factor haffine (by omega) k hk
    rw [scaleAndShift, if_pos haffine]
    exact loadNumber_answers halpha fun f => loadNumber_answers hbeta fun g => hstore _
  · rw [scaleAndShift, if_neg haffine]
    exact hstore _

theorem groupProgram_answers {next : Task Memory Exit} (hnext : Answers own others m₀ next) :
    Answers own others m₀ (groupProgram p pointer b next) := by
  unfold groupProgram loadConstant
  refine loadNumber_answers (h.constant _ b hstart hstop) fun reciprocal => ?_
  refine loadNumber_answers (h.constant _ b hstart hstop) fun epsilon => ?_
  refine loadNumber_answers (h.constant _ b hstart hstop) fun one => ?_
  refine sums_answers h hstart hstop (fun sum => ?_) _
  refine sums_answers h hstart hstop (fun squares => ?_) _
  exact normalizeProgram_answers h hstart hstop hown hnext

omit hstop hown in
theorem groupsProgram_answers
    (hown : ∀ b k, start ≤ b → b < stop → k < p.split.outer * p.split.inner →
      resultSpan p pointer (p.split.position b k) ⊆ own)
    {count : Nat} (hcount : b + count = stop) :
    Answers own others m₀ (groupsProgram p pointer count b) := by
  induction count generalizing b with
  | zero => exact fun m _ => done_ensures fun _ _ => rfl
  | succ count ih =>
    exact groupProgram_answers h hstart (by omega) (fun k => hown b k hstart (by omega))
      (ih (by omega) (by omega))

end

/-! ## The call -/

theorem run_of_ensures {own : Set UInt64} {t : Task Memory Exit} {s : Status} {m : Memory}
    (h : t.Ensures (contract own ∅) (fun exit _ => exit = s.exit) m) :
    (t.run m).1 = s.exit ∧ ChangedIn own m (t.run m).2 := by
  obtain ⟨hpost, hchanged⟩ := h.run
  exact ⟨hpost _ (ChangedIn.refl ∅ _), hchanged⟩

section

variable {p : Parameters} {data start length : UInt64} {m : Memory}

theorem run_outOfRange (hslice : p.split.batch < start.toNat + length.toNat) :
    (program p data start length).run m = (Status.sliceOutOfBounds.exit, m) := by
  rw [program, if_neg (by omega)]
  rfl

variable {pointer : Role → UInt64} (hslice : start.toNat + length.toNat ≤ p.split.batch)
  (hpointers : PointersAt p pointer data m)

include hslice hpointers

theorem run_of_guardedGroups {s : Status}
    (h : guardedGroups p start.toNat length.toNat pointer = .done s.exit) :
    (program p data start length).run m = (s.exit, m) := by
  have hensures : (program p data start length).Ensures (contract ∅ ∅)
      (fun exit _ => exit = s.exit) m := by
    refine program_ensures hslice (fun m' hm => hm.eq_of_empty ▸ hpointers) fun m' _ => ?_
    rw [h]
    exact done_ensures fun _ _ => rfl
  obtain ⟨hexit, hchanged⟩ := run_of_ensures hensures
  exact Prod.ext hexit hchanged.eq_of_empty

theorem run_null (hnull : ∃ role ∈ Role.used p.affine, pointer role = 0) :
    (program p data start length).run m = (Status.nullPointer.exit, m) := by
  refine run_of_guardedGroups hslice hpointers ?_
  rw [guardedGroups, if_pos hnull]
  rfl

variable (hnonnull : ¬ ∃ role ∈ Role.used p.affine, pointer role = 0)

include hnonnull

theorem run_empty (hlength : length = 0) :
    (program p data start length).run m = (Status.ok.exit, m) := by
  refine run_of_guardedGroups hslice hpointers ?_
  rw [guardedGroups, if_neg hnonnull, hlength]
  rfl

theorem run_ok (hmapped : BuffersMapped p pointer start.toNat (start.toNat + length.toNat) m) :
    ((program p data start length).run m).1 = Status.ok.exit := by
  have hensures : (program p data start length).Ensures (contract Set.univ ∅)
      (fun exit _ => exit = Status.ok.exit) m := by
    refine program_ensures hslice (fun m' hm => hm.eq_of_empty ▸ hpointers) fun m' hm => ?_
    rw [guardedGroups, if_neg hnonnull]
    exact groupsProgram_answers hmapped (Nat.le_refl _) (fun _ _ _ _ _ => Set.subset_univ _) rfl m'
      (hm.mono (Set.empty_subset _))
  exact (run_of_ensures hensures).1

end

/-- **A call answers by the exact end of its slice first, then by its pointers, and it changes memory
only if it answers `ok` to a slice that is not empty.** A slice out of range asks nothing of memory,
so that not even a pointer is loaded. -/
theorem call_status {p : Parameters} {name convention : String} {code : Routine Label Value}
    (hcode : p.routine? name convention .i64 = .ok code) {steps : Nat} (hsteps : p.stepBound ≤ steps)
    (data start length : UInt64) (pointer : Role → UInt64) (m : Memory)
    (hpointers : start.toNat + length.toNat ≤ p.split.batch → PointersAt p pointer data m)
    (hmapped : start.toNat + length.toNat ≤ p.split.batch →
      (∀ role ∈ Role.used p.affine, pointer role ≠ 0) →
      BuffersMapped p pointer start.toNat (start.toNat + length.toNat) m) :
    let (exit, m') := (code.call steps [.i64 data, .i64 start, .i64 length]).run m
    (exit = Status.sliceOutOfBounds.exit ↔ p.split.batch < start.toNat + length.toNat) ∧
    (exit = Status.nullPointer.exit ↔ start.toNat + length.toNat ≤ p.split.batch ∧
      ∃ role ∈ Role.used p.affine, pointer role = 0) ∧
    (exit = Status.ok.exit ↔ start.toNat + length.toNat ≤ p.split.batch ∧
      ∀ role ∈ Role.used p.affine, pointer role ≠ 0) ∧
    (exit ≠ Status.ok.exit ∨ length = 0 → m' = m) := by
  rw [(call_stutters hcode hsteps data start length).run_eq m]
  have hdistinct : Status.ok.exit ≠ Status.nullPointer.exit ∧
      Status.ok.exit ≠ Status.sliceOutOfBounds.exit ∧
      Status.nullPointer.exit ≠ Status.sliceOutOfBounds.exit := by decide
  obtain ⟨hok, hrange, hrange'⟩ := hdistinct
  by_cases hslice : start.toNat + length.toNat ≤ p.split.batch
  · have hin : ¬ p.split.batch < start.toNat + length.toNat := by omega
    by_cases hnull : ∃ role ∈ Role.used p.affine, pointer role = 0
    · have hsome : ¬ ∀ role ∈ Role.used p.affine, pointer role ≠ 0 :=
        fun h => hnull.elim fun role hrole => h role hrole.1 hrole.2
      rw [run_null hslice (hpointers hslice) hnull]
      exact ⟨iff_of_false hrange' hin, iff_of_true rfl ⟨hslice, hnull⟩,
        iff_of_false hok.symm fun h => hsome h.2, fun _ => rfl⟩
    · have hnonnull : ∀ role ∈ Role.used p.affine, pointer role ≠ 0 :=
        fun role hrole h => hnull ⟨role, hrole, h⟩
      have hexit := run_ok hslice (hpointers hslice) hnull (hmapped hslice hnonnull)
      have hempty (hlength : length = 0) : ((program p data start length).run m).2 = m := by
        rw [run_empty hslice (hpointers hslice) hnull hlength]
      generalize (program p data start length).run m = result at hexit hempty ⊢
      obtain ⟨exit, m'⟩ := result
      obtain rfl : exit = Status.ok.exit := hexit
      exact ⟨iff_of_false hrange hin, iff_of_false hok fun h => hnull h.2,
        iff_of_true rfl ⟨hslice, hnonnull⟩, fun h => hempty (h.resolve_left fun hne => hne rfl)⟩
  · rw [run_outOfRange (by omega)]
    exact ⟨iff_of_true rfl (by omega), iff_of_false hrange'.symm fun h => hslice h.1,
      iff_of_false hrange.symm fun h => hslice h.1, fun _ => rfl⟩

/-- The last group of a small case, and a slice whose end wraps around, in memory that has nothing
mapped. -/
theorem call_status_pair : ∃ code, pair.routine? "pair" "system_v" .i64 = .ok code ∧
    ((code.call pair.stepBound [.i64 0x1000, .i64 1, .i64 1]).run (ofCells pairCells)).1 =
      Status.ok.exit ∧
    (code.call pair.stepBound [.i64 0x1000, .i64 0xffffffffffffffff, .i64 2]).run .empty =
      (Status.sliceOutOfBounds.exit, .empty) := by
  obtain ⟨code, hcode⟩ := Parameters.accepted_iff.mp pair_accepted
  have hin := call_status hcode (Nat.le_refl _) 0x1000 1 1 pairPointer (ofCells pairCells)
    (fun _ => pointersAt_pair) fun _ _ => holds_pair.buffersMapped (by decide)
  have hout := call_status hcode (Nat.le_refl _) 0x1000 0xffffffffffffffff 2 pairPointer .empty
    (fun hslice => absurd hslice (by decide)) fun hslice => absurd hslice (by decide)
  refine ⟨code, hcode, hin.2.2.1.mpr ⟨by decide, by decide⟩, ?_⟩
  have hexit := hout.1.mpr (by decide)
  exact Prod.ext hexit (hout.2.2.2 (.inl (by rw [hexit]; decide)))

end Normalization

end AxisNorm
