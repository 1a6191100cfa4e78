import AxisNorm.Proofs.Normalization.Rounds
import AxisNorm.Proofs.Normalization.Status

/-!
# A call visits its slice in order

* `Ends`: how a call ends, and which visits of its slice it leaves out.
* `call_tours`: the guards of a call, and the groups of its slice.
* `runs_visit_in_order`: **a run visits the elements of a group in the order of their numbers and the groups of its
  slice in theirs, and then it ends.**
-/

namespace AxisNorm.Normalization

open Code Memory

section

variable {p : Parameters} {storage : ValueType} {code : Routine Label Value} (hcode : code.block = block p storage)
  {goal : Progress Label Value → List Visit → Prop} {steps n : Nat} {items : List Visit} {r : Registers Value}

include hcode

/-! ## The call -/

theorem answer_tours {l : Label} {s : Status} (hl : block p storage l = answer s) (hquiet : ∀ r n, shown r l n = none)
    (h : goal (.returned (UInt32.ofNat s.code)) items) :
    code.Tours (visit? code) goal 2 items (code.start l r) := by
  have hnone (r' : Registers Value) (is : List (Instruction Value)) :
      visit? code ⟨r', is, .ret (.status s)⟩ = none := by
    have hvisit := visit?_eq hcode l r' is
    rwa [hl, hquiet] at hvisit
  rw [Routine.start, hcode, hl]
  refine .set (hnone _ _) (w := .i32 (UInt32.ofNat s.code)) (by cases s <;> rfl) ?_
  have hret : code.Tours (visit? code) goal 1 ((visit? code ⟨r.set (.status s) (.i32 (UInt32.ofNat s.code)), [],
      .ret (.status s)⟩).toList ++ items)
      (.running ⟨r.set (.status s) (.i32 (UInt32.ofNat s.code)), [], .ret (.status s)⟩) :=
    .step fun m => by simpa [Frame.next] using .here h
  rwa [hnone] at hret

theorem setup_tours (hp : p.Accepted) {start length : Nat} (hslice : start + length ≤ p.split.batch)
    (hstart : r.get? .start = some (.ofNat start)) (hstop : r.get? .stop = some (.ofNat (start + length)))
    (h : ∀ r', code.Tours (visit? code) goal steps items (code.start .done r')) :
    code.Tours (visit? code) goal (steps + 2 + length * groupSteps p + 4)
      (groupsVisits p.split start length ++ items) (code.start .setup r) := by
  refine quiet_tours hcode (fun l r' => l = .groupHeader ∧ r'.get? .group = some (.ofNat start) ∧
    r'.get? .stop = some (.ofNat (start + length))) (fun _ _ => rfl) (by simp [hcode, block, setup])
    (by simp [hcode, block, setup]) ?_ ?_
  · rw [hcode, ← List.append_nil (block p storage .setup).body]
    refine .straight (fun _ _ _ => trivial) fun r₁ ha₁ => ?_
    have hkept {v : Value} (hv : ∀ c, .base c ≠ v) : r₁.get? v = r.get? v :=
      ha₁ v (by simp [block, setup, Instruction.defines, hv])
    refine (counts_groups hcode).jump_leads ((hkept (by simp)).trans hstart) fun r₂ ha₂ hr₂ => ⟨rfl, hr₂, ?_⟩
    exact ha₂.get? ((hkept (by simp)).trans hstop) (by simp)
  · rintro _ r' ⟨rfl, hgroup, hlimit⟩
    have hbatch := hp.batch_lt
    have hgroups := groups_tours hcode hp (Nat.le_add_right start length) (by omega) hlimit hgroup fun r'' _ => h r''
    rwa [Nat.add_sub_cancel_left] at hgroups

theorem pointers_tours
    (h : ∀ l r', l = .nullPointer ∨ l = .setup → r'.get? .start = r.get? .start → r'.get? .stop = r.get? .stop →
      code.Tours (visit? code) goal steps items (code.start l r')) :
    code.Tours (visit? code) goal (steps + 14) items (code.start .pointers r) := by
  have hlength : (code.block .pointers).body.length < 14 := by
    rw [hcode, block]
    cases p.affine <;> decide
  refine quiet_tours hcode (fun l r' => (l = .nullPointer ∨ l = .setup) ∧ r'.get? .start = r.get? .start ∧
    r'.get? .stop = r.get? .stop) (fun _ _ => rfl) hlength (by simp [hcode, block, pointers]) ?_
    fun l r' hr' => h l r' hr'.1 hr'.2.1 hr'.2.2
  rw [hcode, ← List.append_nil (block p storage .pointers).body]
  refine .straight (fun _ _ _ => trivial) fun r₁ ha₁ => ?_
  have hdefines : ∀ i ∈ (pointers p.affine).body, ∀ u ∈ i.defines, u.1 ≠ .start ∧ u.1 ≠ .stop := by
    cases p.affine <;> decide
  have hkept : r₁.get? .start = r.get? .start ∧ r₁.get? .stop = r.get? .stop :=
    ⟨ha₁ _ fun i hi u hu => (hdefines i hi u hu).1, ha₁ _ fun i hi u hu => (hdefines i hi u hu).2⟩
  exact .branch_any ⟨.inl rfl, hkept⟩ ⟨.inr rfl, hkept⟩

omit hcode in
/-- How a call ends, and which visits of its slice it leaves out. -/
inductive Ends (s : Split) (start length : Nat) : Exit → List Visit → Prop
  | ok (h : start + length ≤ s.batch) : Ends s start length Status.ok.exit []
  | nullPointer (h : start + length ≤ s.batch) :
    Ends s start length Status.nullPointer.exit (groupsVisits s start length)
  | sliceOutOfBounds (h : s.batch < start + length) :
    Ends s start length Status.sliceOutOfBounds.exit (groupsVisits s start length)
  | unmapped (address : UInt64) (rest : List Visit) : Ends s start length (.trapped (.unmapped address)) rest

omit hcode in
theorem Ends.eq_nil {s : Split} {start length : Nat} {rest : List Visit} (h : Ends s start length Status.ok.exit rest) :
    rest = [] := by
  generalize hexit : Status.ok.exit = exit at h
  cases h with
  | ok => rfl
  | nullPointer => exact absurd hexit (by decide)
  | sliceOutOfBounds => exact absurd hexit (by decide)
  | unmapped => cases hexit

theorem call_tours (hp : p.Accepted) (data start length : UInt64) :
    code.Tours (visit? code) (fun t rest => ∃ exit, t.exit? = some exit ∧
      Ends p.split start.toNat length.toNat exit rest) p.stepBound (groupsVisits p.split start.toNat length.toNat)
      (code.enter .empty .entry [.i64 data, .i64 start, .i64 length]) := by
  have henter : code.enter .empty .entry [.i64 data, .i64 start, .i64 length] = code.start .entry
      (((Registers.empty.set .data (.i64 data)).set .start (.i64 start)).set .length (.i64 length)) := by
    rw [Routine.enter, hcode, Routine.start, hcode]
    rfl
  rw [henter]
  generalize hr : ((Registers.empty.set Value.data (.i64 data)).set .start (.i64 start)).set .length (.i64 length) = r
  have hstart : r.get? .start = some (.i64 start) := by simp [← hr, Registers.get?_set]
  have hcount : r.get? .length = some (.i64 length) := by simp [← hr]
  have hsteps : 2 + 2 + p.split.batch * groupSteps p + 4 + 14 + 5 ≤ p.stepBound := by
    unfold Parameters.stepBound groupSteps Split.walkSteps
    omega
  refine .mono ?_ hsteps
  refine quiet_tours hcode (fun l r' =>
    l = (if start.toNat + length.toNat ≤ p.split.batch then .pointers else .outOfBounds) ∧
      r' = withSlice p.split start length r) (fun _ _ => rfl) (by simp [hcode, block, entry])
    (by simp [hcode, block, entry]) ?_ ?_
  · rw [hcode, ← List.append_nil (block p storage .entry).body]
    refine .assigns (fun _ _ _ => trivial) (entry_assigns hp start length hstart hcount) ?_
    exact .branch (Registers.get?_set_self _ _ _) (by simp)
  rintro _ r' ⟨rfl, rfl⟩
  by_cases hslice : start.toNat + length.toNat ≤ p.split.batch
  · rw [if_pos hslice]
    have hgroups := Nat.mul_le_mul_right (groupSteps p) (show length.toNat ≤ p.split.batch by omega)
    have hrounds : 2 + 2 + length.toNat * groupSteps p + 4 + 14 ≤ 2 + 2 + p.split.batch * groupSteps p + 4 + 14 := by
      omega
    refine .mono ?_ hrounds
    refine pointers_tours hcode ?_
    rintro l r' (rfl | rfl) hfirst hstop
    · exact (answer_tours hcode (s := .nullPointer) rfl (fun _ _ => rfl) ⟨_, rfl, .nullPointer hslice⟩).mono (by omega)
    · rw [← List.append_nil (groupsVisits _ _ _)]
      refine setup_tours hcode hp hslice ?_ ?_ fun r' =>
        answer_tours hcode (s := .ok) rfl (fun _ _ => rfl) ⟨_, rfl, .ok hslice⟩
      · rw [hfirst]
        simp [withSlice, Registers.get?_set, hstart, Word.ofNat]
      · rw [hstop]
        simp [withSlice, Registers.get?_set, Word.ofNat]
  · rw [if_neg hslice]
    refine (answer_tours hcode (s := .sliceOutOfBounds) rfl (fun _ _ => rfl) ⟨_, rfl, ?_⟩).mono (by omega)
    exact .sliceOutOfBounds (by omega)

end

theorem call_runs {p : Parameters} {name convention : String} {code : Routine Label Value}
    (hcode : p.routine? name convention .i64 = .ok code) {data start length : UInt64} {n : Nat} {seen : List Visit}
    {t : Progress Label Value}
    (hrun : code.Runs (visit? code) n seen (code.enter .empty code.entry [.i64 data, .i64 start, .i64 length]) t) :
    n ≤ p.stepBound ∧ ∃ rest, groupsVisits p.split start.toNat length.toNat = seen ++ rest ∧
      ∀ exit, t.exit? = some exit → Ends p.split start.toNat length.toNat exit rest := by
  obtain ⟨hp, storage, hstores, rfl⟩ := eq_of_routine? hcode
  have hwellFormed := (certified (p := p) (hstores.imp And.left And.left) name convention).wellFormed
  have hsound := hwellFormed.sound_of_runs rfl (hwellFormed.start_sound rfl) hrun
  obtain ⟨hn, rest, hitems, hend⟩ := (call_tours rfl hp data start length).of_runs_of_ends
    (fun _ _ ⟨_, hexit, _⟩ => nomatch hexit) hrun
  refine ⟨hn, rest, hitems, fun exit hexit => ?_⟩
  rcases hend with ⟨f, rfl⟩ | ⟨trap, rfl⟩ | ⟨exit', hexit', hends⟩
  · cases hexit
  · cases hsound
    cases hexit
    exact .unmapped _ _
  · obtain rfl := Option.some.inj (hexit.symm.trans hexit')
    exact hends

/-- What is executed is a run that has ended. It has shown all visits if all that it touches is mapped. -/
theorem exists_call_runs {p : Parameters} {name convention : String} {code : Routine Label Value}
    (hcode : p.routine? name convention .i64 = .ok code) {steps : Nat} (hsteps : p.stepBound ≤ steps)
    (data start length : UInt64) (m : Memory) :
    ∃ n seen t, code.Runs (visit? code) n seen
        (code.enter .empty code.entry [.i64 data, .i64 start, .i64 length]) t ∧
      t.exit? = some ((code.call steps [.i64 data, .i64 start, .i64 length]).run m).1 ∧
      ∀ pointer, start.toNat + length.toNat ≤ p.split.batch → PointersAt p pointer data m →
        (¬ ∃ role ∈ Role.used p.affine, pointer role = 0) →
        BuffersMapped p pointer start.toNat (start.toNat + length.toNat) m →
        t.exit? = some Status.ok.exit ∧ seen = groupsVisits p.split start.toNat length.toNat := by
  obtain ⟨n, -, seen, t, hrun, hend⟩ := code.exists_runs (visit? code) steps
    (code.enter .empty code.entry [.i64 data, .i64 start, .i64 length]) m
  rcases hend with hexit | ⟨rfl, f, rfl⟩
  · refine ⟨n, seen, t, hrun, hexit, fun pointer hslice hpointers hnonnull hmapped => ?_⟩
    have hok : t.exit? = some Status.ok.exit := by
      rw [hexit, ← run_ok hslice hpointers hnonnull hmapped, ← (call_stutters hcode hsteps data start length).run_eq m]
      rfl
    obtain ⟨-, rest, hvisits, hends⟩ := call_runs hcode hrun
    obtain rfl := (hends _ hok).eq_nil
    exact ⟨hok, by rw [hvisits, List.append_nil]⟩
  · -- A run that has not ended would go on.
    obtain ⟨seen', t', hrun'⟩ := hrun.exists_succ
    have hbound := (call_runs hcode hrun').1
    omega

/-- **A run visits the elements of a group in the order of their numbers and the groups of its slice in theirs, and
then it ends.** A walk over group `b`, from its start in the block before it, shows each `k` once with the place of
element `k`, and goes on behind its loops. The loop over groups does so with the groups from `start` to `bound`. A
run of a call keeps to the bound on its steps whatever memory holds at each of them, and has shown all visits of its
slice if it answers `ok`. What is executed is such a run, and it answers `ok` if all that it touches is mapped. -/
theorem runs_visit_in_order {p : Parameters} (hsrc : p.srcType = .float32)
    (hdst : p.dstType = .float32 ∨ p.dstType = .bfloat16)
    (hextents : 0 < p.split.outer ∧ 0 < p.split.batch ∧ 0 < p.split.inner)
    (hcount : p.split.outer * p.split.batch * p.split.inner ≤ 2 ^ 61 - 1) (name convention : String) :
    ∃ code, p.routine? name convention .i64 = .ok code ∧
      (∀ b < p.split.batch,
        (∀ k < p.split.outer * p.split.inner,
          p.split.offset b k = .ok (p.split.position b k) ∧ p.split.position b k < 2 ^ 61) ∧
        ∀ (q : Pass) (r : Registers Value), r.get? .group = some (.ofNat b) →
          walkBounds p.split q <:+ (code.block q.before).body ∧ (code.block q.before).terminator = walkStart q ∧
          code.Tours (visit? code) (fun t rest => rest = [] ∧ ∃ r', t = code.start q.after r')
            (p.split.walkSteps + 5) (walkVisits p.split q b) (.running ⟨r, walkBounds p.split q, walkStart q⟩)) ∧
      (∀ start bound, start ≤ bound → bound < 2 ^ 64 → ∀ r : Registers Value, r.get? .stop = some (.ofNat bound) →
        code.Tours (visit? code) (fun t rest => rest = [] ∧ ∃ r', t = code.start .done r')
          (2 + (bound - start) * groupSteps p) (groupsVisits p.split start (bound - start))
          (code.enter r .groupHeader [.ofNat start])) ∧
      ∀ data start length : UInt64,
        (∀ n seen t, code.Runs (visit? code) n seen
            (code.enter .empty code.entry [.i64 data, .i64 start, .i64 length]) t →
          n ≤ p.stepBound ∧ ∃ rest, groupsVisits p.split start.toNat length.toNat = seen ++ rest ∧
            ∀ exit, t.exit? = some exit → Ends p.split start.toNat length.toNat exit rest) ∧
        ∀ steps, p.stepBound ≤ steps → ∀ m, ∃ n seen t, code.Runs (visit? code) n seen
            (code.enter .empty code.entry [.i64 data, .i64 start, .i64 length]) t ∧
          t.exit? = some ((code.call steps [.i64 data, .i64 start, .i64 length]).run m).1 ∧
          ∀ pointer, start.toNat + length.toNat ≤ p.split.batch → PointersAt p pointer data m →
            (¬ ∃ role ∈ Role.used p.affine, pointer role = 0) →
            BuffersMapped p pointer start.toNat (start.toNat + length.toNat) m →
            t.exit? = some Status.ok.exit ∧ seen = groupsVisits p.split start.toNat length.toNat := by
  obtain ⟨houter, hbatch, hinner⟩ := hextents
  have hstorage : ∃ storage, storageType? p.dstType = some storage := by
    rcases hdst with hdst | hdst <;> rw [hdst] <;> exact ⟨_, rfl⟩
  have hp : p.Accepted := ⟨hsrc, hstorage, houter, hbatch, hinner, hcount⟩
  obtain ⟨code, hcode⟩ := Parameters.accepted_iff.mp hp
  obtain ⟨storage, hblock⟩ : ∃ storage, code.block = block p storage := by
    obtain ⟨-, storage, -, rfl⟩ := eq_of_routine? hcode
    exact ⟨storage, rfl⟩
  refine ⟨code, hcode, fun b hb => ⟨fun k hk => ⟨hp.fits.offset_eq hb hk, ?_⟩, fun q r hgroup => ?_⟩,
    fun start bound hstart hbound r hlimit => ?_, fun data start length =>
      ⟨fun n seen t hrun => call_runs hcode hrun, fun steps hsteps m => exists_call_runs hcode hsteps _ _ _ m⟩⟩
  · have hposition := Split.position_lt hb hk
    omega
  · obtain ⟨hsuffix, hend⟩ := suffix_before p storage q
    have htours : code.Tours (visit? code) (fun t rest => rest = [] ∧ ∃ r', t = code.start q.after r')
        (0 + 2 + p.split.walkSteps + 3) (walkVisits p.split q b ++ [])
        (.running ⟨r, walkBounds p.split q, walkStart q⟩) :=
      walkStart_tours hblock hp hgroup fun r' => .here ⟨rfl, r', rfl⟩
    rw [List.append_nil] at htours
    rw [hblock]
    exact ⟨hsuffix, hend, htours.mono (by omega)⟩
  · have hentered : code.enter r .groupHeader [.ofNat start] =
        code.start .groupHeader (r.set .group (.ofNat start)) := by
      rw [Routine.enter, Routine.start, hblock]
      rfl
    have htours : code.Tours (visit? code) (fun t rest => rest = [] ∧ ∃ r', t = code.start .done r')
        (0 + 2 + (bound - start) * groupSteps p) (groupsVisits p.split start (bound - start) ++ [])
        (code.start .groupHeader (r.set .group (.ofNat start))) :=
      groups_tours hblock hp hstart hbound ((Registers.get?_set_of_ne (by simp) r _).trans hlimit)
        (Registers.get?_set_self r _ _) fun r' _ => .here ⟨rfl, r', rfl⟩
    rw [List.append_nil] at htours
    rw [hentered]
    exact htours.mono (by omega)

/-- The last group of a small case: two elements in each of two rows, visited three times. -/
theorem runs_visit_in_order_pair : ∃ code, pair.routine? "pair" "system_v" .i64 = .ok code ∧ ∃ n ≤ pair.stepBound,
    ∃ t, t.exit? = some Status.ok.exit ∧ code.Runs (visit? code) n
      (.group (some (.i64 1)) :: [Pass.mean, .variance, .normalize].flatMap fun q =>
        [.element q (some (.i64 0)) (some (.i64 2)), .element q (some (.i64 1)) (some (.i64 3)),
          .element q (some (.i64 2)) (some (.i64 6)), .element q (some (.i64 3)) (some (.i64 7))])
      (code.enter .empty code.entry [.i64 0x1000, .i64 1, .i64 1]) t := by
  obtain ⟨code, hcode, -, -, hcalls⟩ :=
    runs_visit_in_order (p := pair) rfl (.inl rfl) (by decide) (by decide) "pair" "system_v"
  obtain ⟨hruns, hexecuted⟩ := hcalls 0x1000 1 1
  obtain ⟨n, seen, t, hrun, -, hmapped⟩ := hexecuted _ (Nat.le_refl _) (ofCells pairCells)
  obtain ⟨hexit, rfl⟩ :=
    hmapped pairPointer (by decide) pointersAt_pair (by decide) (holds_pair.buffersMapped (by decide))
  exact ⟨code, hcode, n, (hruns n _ t hrun).1, t, hexit, hrun⟩

end AxisNorm.Normalization
