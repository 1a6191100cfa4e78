import AxisNorm.Backend
import AxisNorm.Proofs.Normalization.Correct
import AxisNorm.Proofs.Normalization.Footprint

/-!
# Instances that run code

* `Readable`: memory holds what an execution reads.
* `Placed`: memory is ready for one execution, which may store over its source.
* `Prepared`: memory is ready for executions. It stays so when results are stored (`Prepared.of_changed`).
* `eq_of_stored`: memory is determined by what it was and by the results in it.
* `invoke_of_placed`, `invoke_answers`, `invoke_fails`: what an instance ensures, by its pointers.
-/

namespace AxisNorm

open Code Memory Normalization

/-- The pointer of a role in runtime data. -/
def RuntimeData.pointer (data : RuntimeData) (role : Role) : UInt64 :=
  data.pointers[role.index]?.getD 0

/-- The pointers of the roles in use lie in memory, where the runtime data says. -/
def RuntimeData.LiesIn (data : RuntimeData) (affine : Bool) (m : Memory) : Prop :=
  ∀ role ∈ Role.used affine, ∀ x, data.pointers[role.index]? = some x →
    m.load? (data.address + UInt64.ofNat (8 * role.index)) 8 = some x.toNat

/-- Memory holds what an execution reads: the runtime data lies at its address and does not meet the
destination, and the buffers hold the inputs. -/
structure Readable (p : Parameters) (data : RuntimeData) (i : Inputs) (m : Memory) : Prop where
  pointers : data.LiesIn p.affine m
  holds : Holds p data.pointer i m
  pointersApart : ∀ role ∈ Role.used p.affine, ∀ e < p.split.outer * p.split.batch * p.split.inner,
    Disjoint (span (data.address + UInt64.ofNat (8 * role.index)) 8) (resultSpan p data.pointer e)

/-- Memory is ready for one execution: the destination may lie where the source lies, element on
element. -/
structure Placed (p : Parameters) (data : RuntimeData) (i : Inputs) (m : Memory) : Prop extends
    Readable p data i m where
  apart : Apart p data.pointer

/-- Memory is ready for executions: the destination does not meet anything that is read. -/
structure Prepared (p : Parameters) (data : RuntimeData) (i : Inputs) (m : Memory) : Prop extends
    Placed p data i m where
  source : ∀ e < p.split.outer * p.split.batch * p.split.inner,
    Disjoint (elementSpan (data.pointer .src) 4 e) (resultSpan p data.pointer e)

theorem index_lt_count {role : Role} {affine : Bool} (h : role ∈ Role.used affine) :
    role.index < Role.count affine := by
  cases affine <;> cases role <;> simp_all [Role.used, Role.index, Role.count]

section

variable {p : Parameters} {data : RuntimeData} {i : Inputs} {m m' : Memory}

theorem RuntimeData.LiesIn.pointersAt (h : data.LiesIn p.affine m)
    (hslots : Role.count p.affine ≤ data.pointers.length) : PointersAt p data.pointer data.address m := by
  intro role hrole
  have hindex := index_lt_count hrole
  have hget := List.getElem?_eq_getElem (show role.index < data.pointers.length by omega)
  rw [h role hrole _ hget, RuntimeData.pointer, hget, Option.getD_some]

theorem disjoint_destination {pointer : Role → UInt64} {s : Set UInt64} {start stop : Nat}
    (hstop : stop ≤ p.split.batch)
    (h : ∀ e < p.split.outer * p.split.batch * p.split.inner, Disjoint s (resultSpan p pointer e)) :
    Disjoint s (region p pointer (InSlice p.split start stop)) :=
  disjoint_region fun _ _ hin => h _ (Split.position_lt (Nat.lt_of_lt_of_le hin.2.1 hstop) hin.2.2)

theorem Prepared.of_changed (hm : Prepared p data i m)
    (hc : ChangedIn (region p data.pointer (InSlice p.split 0 p.split.batch)) m m') :
    Prepared p data i m' := by
  have hload {a : UInt64} {n : Nat} (h : ∀ e < p.split.outer * p.split.batch * p.split.inner,
      Disjoint (span a n) (resultSpan p data.pointer e)) : m'.load? a n = m.load? a n :=
    hc.load? (Set.disjoint_left.mp (disjoint_destination (Nat.le_refl _) h))
  have hconstant (c : ConstantBuffer) (b : Nat) (hb : b < p.split.batch) :
      m'.load? (elementAddress (UInt64.ofNat (p.constants.of c)) 4 b) 4 =
        m.load? (elementAddress (UInt64.ofNat (p.constants.of c)) 4 b) 4 :=
    hload (hm.apart.constant c b hb)
  refine { hm with pointers := fun role hrole x hx => ?_, holds := ?_ }
  · rw [hload (hm.pointersApart role hrole)]
    exact hm.pointers role hrole x hx
  · have hh := hm.holds
    refine ⟨fun e he => ?_, hh.affine, fun f hf k hk => ?_, fun b hb => ?_, fun b hb => ?_,
      fun b hb => ?_, fun e he => (hc.mapped _ _).trans (hh.destination e he)⟩
    · rw [← hh.source e he]
      refine hload fun e' he' => ?_
      by_cases hsame : e = e'
      · exact hsame ▸ hm.source e he
      · exact hm.apart.source e he e' he' hsame
    · have haffine : p.affine = true := by rw [← hh.affine, hf, Option.isSome_some]
      rw [hload fun e he => (hm.apart.factor haffine k hk e he).1,
        hload fun e he => (hm.apart.factor haffine k hk e he).2]
      exact hh.factors f hf k hk
    · exact (hconstant .reciprocal b hb).trans (hh.reciprocal b hb)
    · exact (hconstant .epsilon b hb).trans (hh.epsilon b hb)
    · exact (hconstant .one b hb).trans (hh.one b hb)

/-- Memory after all results have been stored is determined. -/
theorem eq_of_stored {pointer : Role → UInt64} {m₁ m₂ : Memory}
    (hc₁ : ChangedIn (region p pointer (InSlice p.split 0 p.split.batch)) m m₁)
    (hs₁ : Stored p pointer i 0 p.split.batch m₁)
    (hc₂ : ChangedIn (region p pointer (InSlice p.split 0 p.split.batch)) m m₂)
    (hs₂ : Stored p pointer i 0 p.split.batch m₂) : m₁ = m₂ := by
  refine Memory.ext fun c => ?_
  by_cases hc : c ∈ region p pointer (InSlice p.split 0 p.split.batch)
  · obtain ⟨b, k, hin, hmem⟩ := hc
    exact byte?_eq_of_load?_eq (hs₂ b k hin) (hs₁ b k hin) hmem
  · rw [hc₁.byte? c hc, hc₂.byte? c hc]

/-! ## One instance -/

theorem toNat_ofNat_of_lt {n : Nat} (h : n < 2 ^ 63) : (UInt64.ofNat n).toNat = n := by
  rw [UInt64.toNat_ofNat', Nat.mod_eq_of_lt (by omega)]

variable {name name' convention : String} {code : Routine Label Value}

theorem invoke_of_slots (hslots : Role.count p.affine ≤ data.pointers.length) (start length : Nat) :
    (Instance.ofRoutine p code name).invoke data start length =
      (code.call p.stepBound [.i64 data.address, .i64 (UInt64.ofNat start),
        .i64 (UInt64.ofNat length)]).map (·.report name) := if_neg (Nat.not_lt.mpr hslots)

theorem invoke_of_program {c : Contract Memory} {post : Except Fault Unit → Memory → Prop}
    (hcode : p.routine? name' convention .i64 = .ok code)
    (hslots : Role.count p.affine ≤ data.pointers.length) {start length : Nat}
    (h : (program p data.address (UInt64.ofNat start) (UInt64.ofNat length)).Ensures c
      (fun exit m' => post (exit.report name) m') m) :
    ((Instance.ofRoutine p code name).invoke data start length).Ensures c post m := by
  rw [invoke_of_slots hslots]
  exact Task.Ensures.map (Task.Ensures.of_stutters
    (call_stutters hcode (Nat.le_refl _) data.address _ _) h)

section

variable (hcode : p.routine? name' convention .i64 = .ok code) {start length : Nat}
  (hslice : start + length ≤ p.split.batch)

include hcode hslice

theorem toNat_slice : (UInt64.ofNat start).toNat = start ∧ (UInt64.ofNat length).toNat = length := by
  have hbatch := (Parameters.routine?_eq_ok_iff.mp hcode).1.batch_lt
  exact ⟨toNat_ofNat_of_lt (by omega), toNat_ofNat_of_lt (by omega)⟩

variable (hslots : Role.count p.affine ≤ data.pointers.length)

include hslots

theorem invoke_ignores (hdata : Disjoint (slots p data.address) (results p data.pointer))
    {seen : Set UInt64}
    (hseen : slots p data.address ∪ (inputs p data.pointer ∪ results p data.pointer) ⊆ seen) :
    ((Instance.ofRoutine p code name).invoke data start length).Ignores fun m m' =>
      PointersAt p data.pointer data.address m ∧ Set.EqOn m.byte? m'.byte? seen := by
  obtain ⟨hstart, hlength⟩ := toNat_slice hcode hslice
  have hrange : (UInt64.ofNat start).toNat + (UInt64.ofNat length).toNat ≤ p.split.batch := by
    rw [hstart, hlength]
    exact hslice
  rw [invoke_of_slots hslots]
  exact (call_ignores hcode hrange hdata hseen p.stepBound).map

theorem invoke_of_placed (hm : Placed p data i m) {others : Set UInt64}
    (hothers : others ⊆ region p data.pointer (OutsideSlice p.split start (start + length)))
    (hnonnull : ∀ role ∈ Role.used p.affine, data.pointer role ≠ 0) :
    ((Instance.ofRoutine p code name).invoke data start length).Ensures
      (contract (region p data.pointer (InSlice p.split start (start + length))) others)
      (fun r m' => r = .ok () ∧ Stored p data.pointer i start (start + length) m') m := by
  have haccepted := (Parameters.routine?_eq_ok_iff.mp hcode).1
  obtain ⟨hstart, hlength⟩ := toNat_slice hcode hslice
  have hshare : Share p data.pointer i m (UInt64.ofNat start).toNat
      ((UInt64.ofNat start).toNat + (UInt64.ofNat length).toNat) others := by
    rw [hstart, hlength]
    exact ⟨haccepted, hm.holds, hm.apart, hslice, hothers⟩
  have hdata (role : Role) (hrole : role ∈ Role.used p.affine) :
      Disjoint (span (data.address + UInt64.ofNat (8 * role.index)) 8) others := by
    refine Disjoint.mono_right hothers (disjoint_region fun b k hout => ?_)
    exact hm.pointersApart role hrole _ (Split.position_lt hout.1 hout.2.2)
  have hensures := call_ensures hshare (hm.pointers.pointersAt hslots) hdata hnonnull
  rw [hstart, hlength] at hensures
  refine invoke_of_program hcode hslots (hensures.weaken ?_)
  rintro exit m' ⟨rfl, hstored⟩
  exact ⟨rfl, hstored⟩

theorem invoke_ensures (hm : Prepared p data i m) {others : Set UInt64}
    (hothers : others ⊆ region p data.pointer (OutsideSlice p.split start (start + length)))
    (hnonnull : ∀ role ∈ Role.used p.affine, data.pointer role ≠ 0) :
    ((Instance.ofRoutine p code name).invoke data start length).Ensures
      (contract (region p data.pointer (InSlice p.split start (start + length))) others)
      (fun r m' => r = .ok () ∧ Stored p data.pointer i start (start + length) m') m :=
  invoke_of_placed hcode hslice hslots hm.toPlaced hothers hnonnull

variable (hpointers : PointersAt p data.pointer data.address m)

include hpointers

theorem invoke_answers (hmapped : BuffersMapped p data.pointer 0 p.split.batch m)
    (hdata : Disjoint (slots p data.address) (results p data.pointer))
    (hnonnull : ∀ role ∈ Role.used p.affine, data.pointer role ≠ 0) :
    ((Instance.ofRoutine p code name).invoke data start length).Ensures
      (contract (results p data.pointer) (results p data.pointer)) (fun r _ => r = .ok ()) m := by
  obtain ⟨hstart, hlength⟩ := toNat_slice hcode hslice
  have hensures : (program p data.address (UInt64.ofNat start) (UInt64.ofNat length)).Ensures
      (contract (results p data.pointer) (results p data.pointer))
      (fun exit _ => exit = Status.ok.exit) m := by
    refine program_ensures (by rw [hstart, hlength]; exact hslice)
      (fun m' hc => hpointers.of_changed hc hdata) fun m' hc => ?_
    rw [guardedGroups, if_neg (by simpa using hnonnull), hstart, hlength]
    refine groupsProgram_answers (hmapped.mono (Nat.zero_le _) hslice) (Nat.le_refl _)
      (fun b k _ hb hk c hc => ?_) rfl m' (hc.mono (Set.subset_univ _))
    exact ⟨_, Split.position_lt (Nat.lt_of_lt_of_le hb hslice) hk, hc⟩
  refine invoke_of_program hcode hslots (hensures.weaken ?_)
  rintro exit m' rfl
  rfl

theorem invoke_fails (hnull : ∃ role ∈ Role.used p.affine, data.pointer role = 0) :
    ((Instance.ofRoutine p code name).invoke data start length).Ensures (contract ∅ ∅)
      (fun r _ => r = .error (.status name .nullPointer)) m := by
  obtain ⟨hstart, hlength⟩ := toNat_slice hcode hslice
  have hensures : (program p data.address (UInt64.ofNat start) (UInt64.ofNat length)).Ensures
      (contract ∅ ∅) (fun exit _ => exit = Status.nullPointer.exit) m := by
    refine program_ensures (by rw [hstart, hlength]; exact hslice)
      (fun m' hc => hc.eq_of_empty ▸ hpointers) fun m' _ => ?_
    rw [guardedGroups, if_pos hnull]
    exact done_ensures fun _ _ => rfl
  refine invoke_of_program hcode hslots (hensures.weaken ?_)
  rintro exit m' rfl
  rfl

end

end

end AxisNorm
