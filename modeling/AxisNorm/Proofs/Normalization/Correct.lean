import AxisNorm.Proofs.Normalization.Buffers
import AxisNorm.Proofs.Normalization.Rules
import AxisNorm.Proofs.Normalization.Status

/-!
# A call normalizes the groups of its slice

The invariant says how far a call has got: the elements before the current one hold their results, and
nothing else has changed but what others change.

* `Share`: a call's part of the work, with others at work on other groups.
* `Stage`: the invariant. It does not mind what others do (`Stage.rely`), and it moves on with each
  result that is stored (`Stage.store`).
* `groupsProgram_ensures`: what the loop over groups ensures.
* `call_normalizes`: **a call in range stores the normalized elements of its groups and changes
  nothing else.**
-/

namespace AxisNorm.Normalization

open Code Memory

/-- Element `k'` of group `b'` comes before element `k` of group `b`. -/
def Before (s : Split) (start b k b' k' : Nat) : Prop :=
  start ≤ b' ∧ k' < s.outer * s.inner ∧ (b' < b ∨ b' = b ∧ k' < k)

/-- The elements of the groups from `start` to `stop`. -/
def InSlice (s : Split) (start stop b k : Nat) : Prop :=
  start ≤ b ∧ b < stop ∧ k < s.outer * s.inner

/-- The elements of the other groups. -/
def OutsideSlice (s : Split) (start stop b k : Nat) : Prop :=
  b < s.batch ∧ ¬ (start ≤ b ∧ b < stop) ∧ k < s.outer * s.inner

/-- A call's part of the work. It starts from memory `m₀`, and others change `others`, which lies in
the results of other groups. -/
structure Share (p : Parameters) (pointer : Role → UInt64) (i : Inputs) (m₀ : Memory)
    (start stop : Nat) (others : Set UInt64) : Prop where
  accepted : p.Accepted
  holds : Holds p pointer i m₀
  apart : Apart p pointer
  stop_le : stop ≤ p.split.batch
  others : others ⊆ region p pointer (OutsideSlice p.split start stop)

/-- The elements before element `k` of group `b` hold their results. -/
structure Stage (p : Parameters) (pointer : Role → UInt64) (i : Inputs) (m₀ : Memory) (start : Nat)
    (others : Set UInt64) (b k : Nat) (m : Memory) : Prop where
  changed : ChangedIn (region p pointer (Before p.split start b k) ∪ others) m₀ m
  stored : ∀ b' k', Before p.split start b k b' k' →
    m.load? (elementAddress (pointer .dst) p.dstType.bytes (p.split.position b' k')) p.dstType.bytes =
      some (p.dstType.stored (i.result p.split b' k'))

theorem sum_range_succ (f : Nat → Single) (n : Nat) :
    Single.sum ((List.range (n + 1)).map f) = Single.sum ((List.range n).map f) + f n := by
  rw [List.range_succ, List.map_append, Single.sum, List.foldl_append]
  rfl

theorem ofNat_bits (x : Single) : (⟨UInt32.ofNat x.bits.toNat⟩ : Single) = x := by
  rw [UInt32.ofNat_toNat]

section

variable {p : Parameters} {pointer : Role → UInt64} {i : Inputs} {m₀ m : Memory} {start stop : Nat}
  {others : Set UInt64} (h : Share p pointer i m₀ start stop others) {b k : Nat}

theorem not_before_zero {s : Split} {b' k' : Nat} : ¬ Before s start start 0 b' k' := by
  rintro ⟨hstart, -, hlt | ⟨-, hlt⟩⟩ <;> omega

theorem Stage.first (others : Set UInt64) : Stage p pointer i m₀ start others start 0 m₀ :=
  ⟨.refl _ m₀, fun _ _ hbefore => absurd hbefore not_before_zero⟩

include h

theorem Share.disjoint_others {s : Set UInt64}
    (hs : ∀ b' k', OutsideSlice p.split start stop b' k' →
      Disjoint s (resultSpan p pointer (p.split.position b' k'))) : Disjoint s others :=
  (disjoint_region hs).mono_right h.others

omit h in
theorem ne_of_outside (hb : start ≤ b) (hb' : b < stop) {b' k' : Nat}
    (hout : OutsideSlice p.split start stop b' k') : ¬ (b = b' ∧ k = k') := by
  rintro ⟨rfl, -⟩
  exact hout.2.1 ⟨hb, hb'⟩

theorem Stage.rely {m' : Memory} (hstage : Stage p pointer i m₀ start others b k m) (hb : b ≤ stop)
    (hk : b = stop → k = 0) (hm : ChangedIn others m m') : Stage p pointer i m₀ start others b k m' := by
  refine ⟨hstage.changed.trans (hm.mono Set.subset_union_right), fun b' k' hbefore => ?_⟩
  rw [← hstage.stored b' k' hbefore]
  obtain ⟨hstart', hk', hlt⟩ := hbefore
  -- What has been stored belongs to this slice, and others change other groups.
  have hb' : b' < stop := by
    rcases hlt with hlt | ⟨rfl, hlt⟩
    · omega
    · rcases Nat.lt_or_eq_of_le hb with hlt' | heq
      · exact hlt'
      · rw [hk heq] at hlt
        omega
  have hstop := h.stop_le
  exact hm.load? (Set.disjoint_left.mp (h.disjoint_others fun b'' k'' hout =>
    resultSpan_disjoint h.accepted (by omega) hk' hout.1 hout.2.2 (ne_of_outside hstart' hb' hout)))

theorem Stage.load?_eq {a : UInt64} {n : Nat} (hstage : Stage p pointer i m₀ start others b k m)
    (hbefore : ∀ b' k', Before p.split start b k b' k' →
      Disjoint (span a n) (resultSpan p pointer (p.split.position b' k')))
    (hout : ∀ b' k', OutsideSlice p.split start stop b' k' →
      Disjoint (span a n) (resultSpan p pointer (p.split.position b' k'))) :
    m.load? a n = m₀.load? a n :=
  hstage.changed.load? fun _ hc hmem => hmem.elim
    (Set.disjoint_left.mp (disjoint_region hbefore) hc)
    (Set.disjoint_left.mp (h.disjoint_others hout) hc)

theorem Stage.source (hstage : Stage p pointer i m₀ start others b k m) (hstart : start ≤ b)
    (hb : b < stop) {k' : Nat} (hk : k ≤ k') (hk' : k' < p.split.outer * p.split.inner) :
    m.load? (elementAddress (pointer .src) 4 (p.split.position b k')) 4 =
      some (i.source (p.split.position b k')).bits.toNat := by
  have hbatch : b < p.split.batch := Nat.lt_of_lt_of_le hb h.stop_le
  rw [← h.holds.source _ (Split.position_lt hbatch hk')]
  refine hstage.load?_eq h (fun b'' k'' hbefore => ?_) fun b'' k'' hout => ?_
  · obtain ⟨-, hk'', hlt⟩ := hbefore
    refine h.apart.source_disjoint h.accepted hbatch hk' (by omega) hk'' ?_
    rintro ⟨rfl, rfl⟩
    omega
  · exact h.apart.source_disjoint h.accepted hbatch hk' hout.1 hout.2.2
      (ne_of_outside hstart hb hout)

theorem Stage.load?_of_disjoint {a : UInt64} {n : Nat} (hb : b < stop)
    (hstage : Stage p pointer i m₀ start others b k m)
    (hd : ∀ e < p.split.outer * p.split.batch * p.split.inner,
      Disjoint (span a n) (resultSpan p pointer e)) : m.load? a n = m₀.load? a n := by
  have hstop := h.stop_le
  refine hstage.load?_eq h (fun b' k' hbefore => ?_) fun b' k' hout => ?_
  · obtain ⟨-, hk', hlt⟩ := hbefore
    exact hd _ (Split.position_lt (by omega) hk')
  · exact hd _ (Split.position_lt hout.1 hout.2.2)

theorem Stage.store (hstage : Stage p pointer i m₀ start others b k m) (hstart : start ≤ b)
    (hb : b < stop) (hk : k < p.split.outer * p.split.inner) :
    m.mapped (elementAddress (pointer .dst) p.dstType.bytes (p.split.position b k)) p.dstType.bytes =
        true ∧
      Stage p pointer i m₀ start others b (k + 1)
        (m.write (elementAddress (pointer .dst) p.dstType.bytes (p.split.position b k)) p.dstType.bytes
          (p.dstType.stored (i.result p.split b k))) := by
  have hbatch : b < p.split.batch := Nat.lt_of_lt_of_le hb h.stop_le
  have hmapped := (hstage.changed.mapped _ _).trans
    (h.holds.destination _ (Split.position_lt hbatch hk))
  have hwrite := changedIn_write (v := p.dstType.stored (i.result p.split b k)) hmapped
  refine ⟨hmapped, (hstage.changed.mono ?_).trans (hwrite.mono ?_), fun b' k' hbefore => ?_⟩
  · refine Set.union_subset_union_left _ (region_mono fun b' k' hbefore => ?_)
    obtain ⟨hstart', hk', hlt⟩ := hbefore
    exact ⟨hstart', hk', by omega⟩
  · exact (resultSpan_subset_region ⟨hstart, hk, .inr ⟨rfl, by omega⟩⟩).trans Set.subset_union_left
  · by_cases hsame : b' = b ∧ k' = k
    · obtain ⟨rfl, rfl⟩ := hsame
      exact load?_write (Nat.le_trans h.accepted.bytes_le (by decide)) (h.accepted.stored_lt _)
    · obtain ⟨hstart', hk', hlt⟩ := hbefore
      rw [← hstage.stored b' k' ⟨hstart', hk', by omega⟩]
      exact hwrite.load? (Set.disjoint_left.mp
        (resultSpan_disjoint h.accepted (by omega) hk' hbatch hk hsame))

omit h in
theorem Stage.next (hstage : Stage p pointer i m₀ start others b (p.split.outer * p.split.inner) m) :
    Stage p pointer i m₀ start others (b + 1) 0 m := by
  have hsame (b' k' : Nat) : Before p.split start (b + 1) 0 b' k' ↔
      Before p.split start b (p.split.outer * p.split.inner) b' k' :=
    and_congr_right fun _ => and_congr_right fun _ => by omega
  refine ⟨?_, fun b' k' hbefore => hstage.stored b' k' ((hsame b' k').mp hbefore)⟩
  exact hstage.changed.mono (Set.union_subset_union_left _ (region_mono fun b' k' => (hsame b' k').mpr))

/-! ## One group -/

/-- The results of the groups from `start` to `stop` lie in the destination. -/
def Stored (p : Parameters) (pointer : Role → UInt64) (i : Inputs) (start stop : Nat) (m : Memory) :
    Prop :=
  ∀ b k, InSlice p.split start stop b k →
    m.load? (elementAddress (pointer .dst) p.dstType.bytes (p.split.position b k)) p.dstType.bytes =
      some (p.dstType.stored (i.result p.split b k))

section

variable {own : Set UInt64} {post : Exit → Memory → Prop}

theorem Share.loadNumber_ensures {base : UInt64} {e : Nat} {x : Single}
    {next : Single → Task Memory Exit} (hb : b ≤ stop) (hk : b = stop → k = 0)
    (hstage : Stage p pointer i m₀ start others b k m)
    (hload : ∀ m', Stage p pointer i m₀ start others b k m' →
      m'.load? (elementAddress base 4 e) 4 = some x.bits.toNat)
    (hnext : ∀ m', Stage p pointer i m₀ start others b k m' →
      (next x).Ensures (contract own others) post m') :
    (loadNumber base e next).Ensures (contract own others) post m := by
  refine Normalization.loadNumber_ensures fun m' hm => ?_
  have hstage' := hstage.rely h hb hk hm
  refine ⟨_, hload m' hstage', ?_⟩
  rw [ofNat_bits]
  exact hnext m' hstage'

variable (hstart : start ≤ b) (hb : b < stop)

include hstart hb

theorem sums_ensures (hstage : Stage p pointer i m₀ start others b 0 m) {term : Single → Single}
    {next : Single → Task Memory Exit}
    (hnext : ∀ m', Stage p pointer i m₀ start others b 0 m' →
      (next (.sum ((i.group p.split b).map term))).Ensures (contract own others) post m') :
    (overElements (sumStep p pointer term b) next (p.split.outer * p.split.inner) 0 .zero).Ensures
      (contract own others) post m := by
  let terms (n : Nat) := (List.range n).map fun k => term (i.source (p.split.position b k))
  have hgroup : (i.group p.split b).map term = terms (p.split.outer * p.split.inner) := List.map_map
  rw [hgroup] at hnext
  -- The number that is carried is the sum of the terms so far.
  refine overElements_ensures
    (fun n s m' => s = .sum (terms n) ∧ Stage p pointer i m₀ start others b 0 m')
    ?_ ?_ (Nat.zero_add _) ⟨rfl, hstage⟩
  · rintro k hk s m' rest ⟨rfl, hstage'⟩ hrest
    refine h.loadNumber_ensures (by omega) (by omega) hstage'
      (fun m'' hstage'' => hstage''.source h hstart hb (Nat.zero_le k) hk) fun m'' hstage'' => ?_
    exact hrest _ m'' ⟨(sum_range_succ _ k).symm, hstage''⟩
  · rintro s m' ⟨rfl, hstage'⟩
    exact hnext m' hstage'

omit hstart in
theorem scaleAndShift_ensures {x : Single} {next : Single → Task Memory Exit}
    (hk : k < p.split.outer * p.split.inner) (hstage : Stage p pointer i m₀ start others b k m)
    (hx : x = (i.constants b).normalized (i.group p.split b) (i.source (p.split.position b k)))
    (hnext : ∀ m', Stage p pointer i m₀ start others b k m' →
      (next (i.result p.split b k)).Ensures (contract own others) post m') :
    (scaleAndShift p pointer k x next).Ensures (contract own others) post m := by
  rw [Inputs.result, ← hx] at hnext
  cases hfactors : i.factors with
  | none =>
    have haffine : p.affine = false := by rw [← h.holds.affine, hfactors, Option.isSome_none]
    rw [hfactors] at hnext
    rw [scaleAndShift, haffine, if_neg Bool.false_ne_true]
    exact hnext m hstage
  | some f =>
    have haffine : p.affine = true := by rw [← h.holds.affine, hfactors, Option.isSome_some]
    rw [hfactors] at hnext
    have hheld := h.holds.factors f hfactors k hk
    have hapart := h.apart.factor haffine k hk
    rw [scaleAndShift, if_pos haffine]
    refine h.loadNumber_ensures (x := (f k).1) (by omega) (by omega) hstage (fun m' hstage' => ?_)
      fun m' hstage' => ?_
    · rw [← hheld.1]
      exact hstage'.load?_of_disjoint h hb fun e he => (hapart e he).1
    refine h.loadNumber_ensures (x := (f k).2) (by omega) (by omega) hstage' (fun m' hstage' => ?_)
      hnext
    rw [← hheld.2]
    exact hstage'.load?_of_disjoint h hb fun e he => (hapart e he).2

theorem normalizeProgram_ensures {next : Task Memory Exit}
    (hown : region p pointer (InSlice p.split start stop) ⊆ own)
    (hstage : Stage p pointer i m₀ start others b 0 m)
    (hnext : ∀ m', Stage p pointer i m₀ start others (b + 1) 0 m' →
      next.Ensures (contract own others) post m') :
    (normalizeProgram p pointer b ((i.constants b).mean (i.group p.split b))
      ((i.constants b).inverse (i.group p.split b)) next).Ensures (contract own others) post m := by
  refine overElements_ensures (fun k _ m' => Stage p pointer i m₀ start others b k m') ?_ ?_
    (Nat.zero_add _) hstage
  · intro k hk _ m' rest hstage' hrest
    refine h.loadNumber_ensures (by omega) (by omega) hstage'
      (fun m'' hstage'' => hstage''.source h hstart hb (Nat.le_refl k) hk) fun m₁ hm₁ => ?_
    refine scaleAndShift_ensures h hb hk hm₁ rfl fun m₂ hm₂ => ?_
    refine store_ensures ((resultSpan_subset_region ⟨hstart, hb, hk⟩).trans hown) fun m₃ hm₃ => ?_
    obtain ⟨hmapped, hstored⟩ := (hm₂.rely h (by omega) (by omega) hm₃).store h hstart hb hk
    exact ⟨hmapped, hrest () _ hstored⟩
  · exact fun _ m' hstage' => hnext m' hstage'.next

theorem groupProgram_ensures {next : Task Memory Exit}
    (hown : region p pointer (InSlice p.split start stop) ⊆ own)
    (hstage : Stage p pointer i m₀ start others b 0 m)
    (hnext : ∀ m', Stage p pointer i m₀ start others (b + 1) 0 m' →
      next.Ensures (contract own others) post m') :
    (groupProgram p pointer b next).Ensures (contract own others) post m := by
  have hbatch : b < p.split.batch := Nat.lt_of_lt_of_le hb h.stop_le
  have hconstant (c : ConstantBuffer) (m' : Memory)
      (hstage' : Stage p pointer i m₀ start others b 0 m') :
      m'.load? (elementAddress (UInt64.ofNat (p.constants.of c)) 4 b) 4 =
        m₀.load? (elementAddress (UInt64.ofNat (p.constants.of c)) 4 b) 4 :=
    hstage'.load?_of_disjoint h hb fun e he => h.apart.constant c b hbatch e he
  unfold groupProgram loadConstant
  refine h.loadNumber_ensures (x := (i.constants b).reciprocal) (by omega) (by omega) hstage
    (fun m' hm' => (hconstant .reciprocal m' hm').trans (h.holds.reciprocal b hbatch)) fun m' hm => ?_
  refine h.loadNumber_ensures (x := (i.constants b).epsilon) (by omega) (by omega) hm
    (fun m' hm' => (hconstant .epsilon m' hm').trans (h.holds.epsilon b hbatch)) fun m' hm => ?_
  refine h.loadNumber_ensures (x := (i.constants b).one) (by omega) (by omega) hm
    (fun m' hm' => (hconstant .one m' hm').trans (h.holds.one b hbatch)) fun m' hm => ?_
  refine sums_ensures h hstart hb hm fun m' hm => ?_
  refine sums_ensures h hstart hb hm fun m' hm => ?_
  rw [List.map_id]
  exact normalizeProgram_ensures h hstart hb hown hm hnext

end

theorem groupsProgram_ensures {count : Nat} (hstart : start ≤ b) (hcount : b + count = stop)
    (hstage : Stage p pointer i m₀ start others b 0 m) :
    (groupsProgram p pointer count b).Ensures
      (contract (region p pointer (InSlice p.split start stop)) others)
      (fun exit m' => exit = Status.ok.exit ∧ Stored p pointer i start stop m') m := by
  induction count generalizing b m with
  | zero =>
    obtain rfl : b = stop := hcount
    refine done_ensures fun m' hm => ⟨rfl, fun b' k' hin => ?_⟩
    obtain ⟨hstart', hlt, hk'⟩ := hin
    exact (hstage.rely h (Nat.le_refl _) (fun _ => rfl) hm).stored b' k' ⟨hstart', hk', .inl hlt⟩
  | succ count ih =>
    exact groupProgram_ensures h hstart (by omega) (Set.Subset.refl _) hstage fun m' hstage' =>
      ih (by omega) (by omega) hstage'

end

/-! ## The call -/

/-- What a call ensures while others are at work on other groups. -/
theorem call_ensures {p : Parameters} {pointer : Role → UInt64} {i : Inputs} {m : Memory}
    {data start length : UInt64} {others : Set UInt64}
    (h : Share p pointer i m start.toNat (start.toNat + length.toNat) others)
    (hpointers : PointersAt p pointer data m)
    (hdata : ∀ role ∈ Role.used p.affine,
      Disjoint (span (data + UInt64.ofNat (8 * role.index)) 8) others)
    (hnonnull : ∀ role ∈ Role.used p.affine, pointer role ≠ 0) :
    (program p data start length).Ensures
      (contract (region p pointer (InSlice p.split start.toNat (start.toNat + length.toNat))) others)
      (fun exit m' => exit = Status.ok.exit ∧
        Stored p pointer i start.toNat (start.toNat + length.toNat) m') m := by
  have hloaded (m' : Memory) (hm : ChangedIn others m m') : PointersAt p pointer data m' := by
    intro role hrole
    rw [hm.load? (Set.disjoint_left.mp (hdata role hrole))]
    exact hpointers role hrole
  refine program_ensures h.stop_le hloaded fun m' hm => ?_
  rw [guardedGroups, if_neg fun hnull => hnull.elim fun role hrole => hnonnull role hrole.1 hrole.2]
  exact groupsProgram_ensures h (Nat.le_refl _) rfl
    ((Stage.first others).rely h (by omega) (fun _ => rfl) hm)

/-- **A call in range stores the normalized elements of its groups and changes nothing else.** -/
theorem call_normalizes {p : Parameters} {name convention : String} {code : Routine Label Value}
    (hcode : p.routine? name convention .i64 = .ok code) {steps : Nat} (hsteps : p.stepBound ≤ steps)
    {data start length : UInt64} (hslice : start.toNat + length.toNat ≤ p.split.batch)
    {pointer : Role → UInt64} {i : Inputs} {m : Memory} (hpointers : PointersAt p pointer data m)
    (hnonnull : ∀ role ∈ Role.used p.affine, pointer role ≠ 0) (hholds : Holds p pointer i m)
    (hapart : Apart p pointer) :
    ∃ m', (code.call steps [.i64 data, .i64 start, .i64 length]).run m = (Status.ok.exit, m') ∧
      (∀ b k, start.toNat ≤ b → b < start.toNat + length.toNat → k < p.split.outer * p.split.inner →
        ∃ e, p.split.offset b k = .ok e ∧
          m'.load? (elementAddress (pointer .dst) p.dstType.bytes e) p.dstType.bytes =
            some (p.dstType.stored (i.result p.split b k))) ∧
      (∀ b k, b < p.split.batch → ¬ (start.toNat ≤ b ∧ b < start.toNat + length.toNat) →
        k < p.split.outer * p.split.inner → ∃ e, p.split.offset b k = .ok e ∧
          m'.load? (elementAddress (pointer .dst) p.dstType.bytes e) p.dstType.bytes =
            m.load? (elementAddress (pointer .dst) p.dstType.bytes e) p.dstType.bytes) ∧
      ∀ c, (∀ e < p.split.outer * p.split.batch * p.split.inner, c ∉ resultSpan p pointer e) →
        m'.byte? c = m.byte? c := by
  have haccepted := (Parameters.routine?_eq_ok_iff.mp hcode).1
  have hfits := haccepted.fits
  have hshare : Share p pointer i m start.toNat (start.toNat + length.toNat) ∅ :=
    ⟨haccepted, hholds, hapart, hslice, Set.empty_subset _⟩
  have hensures := call_ensures hshare hpointers (fun _ _ => Set.disjoint_empty _) hnonnull
  obtain ⟨hpost, hchanged⟩ := hensures.run
  obtain ⟨hexit, hstored⟩ := hpost _ (ChangedIn.refl ∅ _)
  rw [(call_stutters hcode hsteps data start length).run_eq m]
  refine ⟨_, Prod.ext hexit rfl, fun b k hstart hstop hk => ?_, fun b k hb hout hk => ?_, fun c hc => ?_⟩
  · exact ⟨_, hfits.offset_eq (by omega) hk, hstored b k ⟨hstart, hstop, hk⟩⟩
  · refine ⟨_, hfits.offset_eq hb hk, hchanged.load? (Set.disjoint_left.mp (disjoint_region ?_))⟩
    rintro b' k' ⟨hstart', hstop', hk'⟩
    refine resultSpan_disjoint haccepted hb hk (by omega) hk' ?_
    rintro ⟨rfl, -⟩
    exact hout ⟨hstart', hstop'⟩
  · refine hchanged.byte? c ?_
    rintro ⟨b, k, ⟨hstart, hstop, hk⟩, hmem⟩
    exact hc _ (Split.position_lt (by omega) hk) hmem

/-- The last group of a small case, with two elements of each row. The elements before and between them keep
what was there. -/
theorem call_normalizes_pair : ∃ code m', pair.routine? "pair" "system_v" .i64 = .ok code ∧
    (code.call pair.stepBound [.i64 0x1000, .i64 1, .i64 1]).run (ofCells pairCells) =
      (Status.ok.exit, m') ∧
    m'.load? 0x3008 4 = some 0xbf934d2d ∧ m'.load? 0x300c 4 = some 0xbf526e40 ∧
    m'.load? 0x3018 4 = some 0x3f526e40 ∧ m'.load? 0x301c 4 = some 0x3f934d2d ∧
    m'.load? 0x3000 4 = some 7 ∧ m'.load? 0x3010 4 = some 7 := by
  obtain ⟨code, hcode⟩ := Parameters.accepted_iff.mp pair_accepted
  have hslice : (1 : UInt64).toNat + (1 : UInt64).toNat ≤ pair.split.batch := by decide
  obtain ⟨m', hrun, hstored, hkept, -⟩ := call_normalizes hcode (Nat.le_refl _) hslice pointersAt_pair
    (by decide) holds_pair apart_pair
  have hresults : (List.range 4).map (fun k => (pairInputs.result pair.split 1 k).bits) =
      [0xbf934d2d, 0xbf526e40, 0x3f526e40, 0x3f934d2d] := by decide +kernel
  have hload {k e : Nat} {bits : UInt32} (he : pair.split.offset 1 k = .ok e) (hk : k < 4)
      (hbits : [0xbf934d2d, 0xbf526e40, 0x3f526e40, 0x3f934d2d][k]? = some bits) :
      m'.load? (elementAddress 0x3000 4 e) 4 = some bits.toNat := by
    obtain ⟨e', he', hload⟩ := hstored 1 k (by decide) (by decide) hk
    obtain rfl := Except.ok.inj (he'.symm.trans he)
    rw [← hresults, List.getElem?_map, List.getElem?_range hk] at hbits
    rw [← Option.some.inj hbits]
    exact hload
  have hkeep {k e : Nat} (he : pair.split.offset 0 k = .ok e) (hk : k < 4)
      (hcell : ⟨elementAddress 0x3000 4 e, 4, 7⟩ ∈ pairCells) :
      m'.load? (elementAddress 0x3000 4 e) 4 = some 7 := by
    obtain ⟨e', he', hload⟩ := hkept 0 k (by decide) (by decide) hk
    obtain rfl := Except.ok.inj (he'.symm.trans he)
    exact hload.trans (load?_pair hcell)
  exact ⟨code, m', hcode, hrun, hload (k := 0) rfl (by decide) rfl, hload (k := 1) rfl (by decide) rfl,
    hload (k := 2) rfl (by decide) rfl, hload (k := 3) rfl (by decide) rfl,
    hkeep (k := 0) rfl (by decide) (by decide +kernel), hkeep (k := 2) rfl (by decide) (by decide +kernel)⟩

end AxisNorm.Normalization
