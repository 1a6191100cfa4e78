import AxisNorm.Proofs.Normalization.Buffers
import AxisNorm.Proofs.Task.Contract

/-!
# Contracts of loads, stores and loops

A call changes the bytes of a region of its own, while others change bytes elsewhere.

* `Memory.contract`: the contract of a call.
* `loadNumber_ensures`, `store_ensures`: one load, one store.
* `overElements_ensures`: a loop over elements keeps an invariant.
* `program_ensures`: a call in range works with the pointers that lie in the runtime data.
-/

namespace AxisNorm

/-- Own steps change `own`, the steps of others change `others`. -/
def Memory.contract (own others : Set UInt64) : Contract Memory where
  rely := ChangedIn others
  guarantee := ChangedIn own
  rely_refl := .refl others
  rely_trans := .trans
  guarantee_refl := .refl own
  guarantee_trans := .trans

namespace Normalization

open Code Memory

variable {own others : Set UInt64} {post : Exit → Memory → Prop} {m : Memory}

theorem done_ensures {exit : Exit} (h : ∀ m', ChangedIn others m m' → post exit m') :
    (Task.done exit).Ensures (contract own others) post m := h

theorem load_ensures {a : UInt64} {n : Nat} {next : Nat → Task Memory Exit}
    (h : ∀ m', ChangedIn others m m' →
      ∃ v, m'.load? a n = some v ∧ (next v).Ensures (contract own others) post m') :
    (Task.load a n next).Ensures (contract own others) post m := by
  intro m' hm
  obtain ⟨v, hv, hn⟩ := h m' hm
  refine ⟨.refl own m', ?_⟩
  simp only [hv]
  exact hn

theorem loadNumber_ensures {base : UInt64} {e : Nat} {next : Single → Task Memory Exit}
    (h : ∀ m', ChangedIn others m m' → ∃ v, m'.load? (elementAddress base 4 e) 4 = some v ∧
      (next ⟨UInt32.ofNat v⟩).Ensures (contract own others) post m') :
    (loadNumber base e next).Ensures (contract own others) post m :=
  load_ensures h

theorem store_ensures {a : UInt64} {n v : Nat} {t : Task Memory Exit} (hown : span a n ⊆ own)
    (h : ∀ m', ChangedIn others m m' →
      m'.mapped a n = true ∧ t.Ensures (contract own others) post (m'.write a n v)) :
    (Task.store a n v t).Ensures (contract own others) post m := by
  intro m' hm
  obtain ⟨hmapped, ht⟩ := h m' hm
  simp only [hmapped, if_true]
  exact ⟨(changedIn_write hmapped).mono hown, ht⟩

/-- A loop over elements keeps an invariant of element, carried value and memory. -/
theorem overElements_ensures {S : Type} {body : Nat → S → (S → Task Memory Exit) → Task Memory Exit}
    {next : S → Task Memory Exit} {n : Nat} (inv : Nat → S → Memory → Prop)
    (hbody : ∀ k < n, ∀ s m rest, inv k s m →
      (∀ s' m', inv (k + 1) s' m' → (rest s').Ensures (contract own others) post m') →
      (body k s rest).Ensures (contract own others) post m)
    (hnext : ∀ s m, inv n s m → (next s).Ensures (contract own others) post m)
    {k count : Nat} (hk : k + count = n) {s : S} (h : inv k s m) :
    (overElements body next count k s).Ensures (contract own others) post m := by
  induction count generalizing k s m with
  | zero =>
    obtain rfl : k = n := hk
    exact hnext s m h
  | succ count ih => exact hbody k (by omega) s m _ h fun s' m' h' => ih (by omega) h'

/-! ## Pointers -/

theorem loadPointers_ensures {data : UInt64} {next : (Role → UInt64) → Task Memory Exit}
    {pointer f : Role → UInt64} {roles : List Role} (held : List Role)
    (hheld : ∀ role ∈ held, f role = pointer role)
    (h : ∀ role ∈ roles, ∀ m', ChangedIn others m m' →
      m'.load? (data + UInt64.ofNat (8 * role.index)) 8 = some (pointer role).toNat)
    (hnext : ∀ g m', ChangedIn others m m' → (∀ role ∈ held ++ roles, g role = pointer role) →
      (next g).Ensures (contract own others) post m') :
    (loadPointers data next roles f).Ensures (contract own others) post m := by
  induction roles generalizing held f m with
  | nil => exact hnext f m (.refl others m) (by simpa using hheld)
  | cons role roles ih =>
    refine load_ensures fun m' hm => ⟨_, h role List.mem_cons_self m' hm, ?_⟩
    refine ih (held ++ [role]) ?_ ?_ fun g m'' hm' hg => hnext g m'' (hm.trans hm') (by simpa using hg)
    · intro role' hrole'
      by_cases hrole : role' = role
      · rw [hrole, Function.update_self, UInt64.ofNat_toNat]
      · rw [Function.update_of_ne hrole]
        exact hheld role' (by simpa [hrole] using hrole')
    · exact fun role' hrole' m'' hm' => h role' (List.mem_cons_of_mem role hrole') m'' (hm.trans hm')

theorem groupProgram_congr {p : Parameters} {f g : Role → UInt64}
    (h : ∀ role ∈ Role.used p.affine, f role = g role) : groupProgram p f = groupProgram p g := by
  cases haffine : p.affine with
  | true =>
    rw [haffine] at h
    rw [show f = g from funext fun role => h role (by cases role <;> decide)]
  | false =>
    rw [haffine] at h
    unfold groupProgram meanProgram varianceProgram normalizeProgram sumStep storeStep scaleAndShift
    simp only [haffine, h .src (by decide), h .dst (by decide), Bool.false_eq_true, if_false]

theorem guardedGroups_congr {p : Parameters} {f g : Role → UInt64}
    (h : ∀ role ∈ Role.used p.affine, f role = g role) (start length : Nat) :
    guardedGroups p start length f = guardedGroups p start length g := by
  have hnull : (∃ role ∈ Role.used p.affine, f role = 0) ↔ ∃ role ∈ Role.used p.affine, g role = 0 :=
    exists_congr fun role => and_congr_right fun hrole => by rw [h role hrole]
  have hgroups (count b : Nat) : groupsProgram p f count b = groupsProgram p g count b := by
    induction count generalizing b with
    | zero => rfl
    | succ count ih => rw [groupsProgram, groupsProgram, ih, groupProgram_congr h]
  unfold guardedGroups
  rw [hgroups]
  simp only [hnull]

theorem program_ensures {p : Parameters} {data start length : UInt64} {pointer : Role → UInt64}
    (hslice : start.toNat + length.toNat ≤ p.split.batch)
    (hpointers : ∀ m', ChangedIn others m m' → PointersAt p pointer data m')
    (h : ∀ m', ChangedIn others m m' →
      (guardedGroups p start.toNat length.toNat pointer).Ensures (contract own others) post m') :
    (program p data start length).Ensures (contract own others) post m := by
  rw [program, if_pos hslice]
  refine loadPointers_ensures [] (by simp) (fun role hrole m' hm => hpointers m' hm role hrole)
    fun g m' hm hg => ?_
  rw [guardedGroups_congr (by simpa using hg)]
  exact h m' hm

end Normalization

end AxisNorm
