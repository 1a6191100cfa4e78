import AxisNorm.Kernel
import AxisNorm.Proofs.Task.Contract
import Mathlib.Data.List.Sort

/-!
# When an execution succeeds

* `Kernel.faultsOf_eq_nil_iff`: no unit reported a fault.
* `Kernel.runUnits_perm`: there is one result of each unit.
* `Kernel.outcome_of_faults`: if no unit gets on, all threads are to blame.
* `Kernel.succeeded_iff`: **an execution succeeds if there are enough pointers and no unit reports a
  fault.**
-/

namespace AxisNorm.Kernel

variable {σ : Type} {k : Kernel σ} {data : RuntimeData} {schedule : List Nat} {s : σ}

theorem faultsOf_eq_nil_iff {results : List (WorkUnit σ × Except Fault Unit)} :
    faultsOf results = [] ↔ ∀ x ∈ results, x.2 = .ok () := by
  unfold faultsOf
  rw [List.filterMap_eq_nil_iff]
  refine forall₂_congr fun x _ => ?_
  obtain ⟨u, r⟩ := x
  cases r with
  | ok _ => exact iff_of_true rfl rfl
  | error f => exact iff_of_false (by simp) (by simp)

theorem mem_faultsOf {results : List (WorkUnit σ × Except Fault Unit)} {u : WorkUnit σ} {f : Fault} :
    (u, f) ∈ faultsOf results ↔ (u, .error f) ∈ results := by
  unfold faultsOf
  rw [List.mem_filterMap]
  constructor
  · rintro ⟨⟨v, r⟩, hx, hf⟩
    cases r with
    | ok _ => cases hf
    | error g => cases hf; exact hx
  · exact fun hx => ⟨_, hx, rfl⟩

theorem faultsOf_units {results : List (WorkUnit σ × Except Fault Unit)}
    (h : ∀ x ∈ results, x.2 ≠ .ok ()) : (faultsOf results).map (·.1) = results.map (·.1) := by
  induction results with
  | nil => rfl
  | cons x results ih =>
    obtain ⟨u, r⟩ := x
    cases r with
    | ok _ => exact absurd rfl (h _ List.mem_cons_self)
    | error f => exact congrArg (u :: ·) (ih fun x hx => h x (List.mem_cons_of_mem _ hx))

/-- The threads whose units reported a fault, in increasing order. -/
def faultedThreads (results : List (WorkUnit σ × Except Fault Unit)) : List Nat :=
  ((faultsOf results).map (·.1.slice.thread)).mergeSort

theorem faultedThreads_eq_nil_iff {results : List (WorkUnit σ × Except Fault Unit)} :
    faultedThreads results = [] ↔ ∀ x ∈ results, x.2 = .ok () := by
  rw [← faultsOf_eq_nil_iff, faultedThreads, ← List.length_eq_zero_iff, List.length_mergeSort,
    List.length_map, List.length_eq_zero_iff]

/-- The results and the state of a pool that runs the units. -/
def runUnits (k : Kernel σ) (data : RuntimeData) (schedule : List Nat) (s : σ) :
    List (WorkUnit σ × Except Fault Unit) × σ :=
  Pool.run schedule (k.units.map (invokeUnit data)) s

theorem runUnits_perm : ((k.runUnits data schedule s).1.map (·.1)).Perm k.units := by
  have htask : ∀ (j : Nat) t, (k.units.map (invokeUnit data))[j]? = some t →
      Task.Ensures (.any σ)
        (fun (x : WorkUnit σ × Except Fault Unit) (_ : σ) => k.units[j]? = some x.1) t s := by
    intro j t ht
    rw [List.getElem?_map, Option.map_eq_some_iff] at ht
    obtain ⟨u, hu, rfl⟩ := ht
    exact Task.Ensures.map ((Task.Ensures.any _ s).weaken fun _ _ _ => hu)
  obtain ⟨results, hlength, hperm, hunits, -⟩ :=
    Pool.run_ensures (fun _ _ _ _ _ _ => trivial) htask schedule
  rw [List.length_map] at hlength
  have heq : results.map (·.1) = k.units := by
    refine List.ext_getElem (by rw [List.length_map, hlength]) fun j hj hj' => ?_
    rw [List.length_map] at hj
    have hunit := hunits j _ (List.getElem?_eq_getElem hj)
    rw [List.getElem?_eq_getElem hj'] at hunit
    rw [List.getElem_map, ← Option.some.inj hunit]
  exact heq ▸ hperm.map _

theorem execute_state : (k.execute data schedule s).state = (k.executeChecked data schedule s).state := by
  unfold execute
  dsimp only
  split <;> rfl

theorem execute_succeeded :
    (k.execute data schedule s).succeeded = true ↔
      (k.executeChecked data schedule s).outcome = .ok () := by
  unfold execute Execution.succeeded
  cases h : (k.executeChecked data schedule s).outcome with
  | ok _ => simp [h]
  | error e => simp [h]

/-! ## Outcomes -/

theorem executeChecked_of_short (h : data.pointers.length < Role.count k.descriptor.affine) :
    k.executeChecked data schedule s =
      ⟨.error (.tooFewSlots (Role.count k.descriptor.affine) data.pointers.length), s, []⟩ := if_pos h

section

variable (hslots : Role.count k.descriptor.affine ≤ data.pointers.length)

include hslots

theorem executeChecked_outcome : (k.executeChecked data schedule s).outcome =
    if faultedThreads (k.runUnits data schedule s).1 = [] then .ok ()
    else .error (.faulted (faultedThreads (k.runUnits data schedule s).1)) := by
  rw [executeChecked, if_neg (Nat.not_lt.mpr hslots)]
  rfl

theorem executeChecked_state :
    (k.executeChecked data schedule s).state = (k.runUnits data schedule s).2 := by
  rw [executeChecked, if_neg (Nat.not_lt.mpr hslots)]
  rfl

theorem state_eq : (k.execute data schedule s).state = (k.runUnits data schedule s).2 := by
  rw [execute_state, executeChecked_state hslots]

theorem result_of_event {name : String} {slice : Slice} {f : Fault}
    (h : .instanceFaulted name slice f ∈ (k.executeChecked data schedule s).events) :
    ∃ u, (u, .error f) ∈ (k.runUnits data schedule s).1 := by
  rw [executeChecked, if_neg (Nat.not_lt.mpr hslots)] at h
  rcases List.mem_cons.mp h with h | h
  · cases h
  · obtain ⟨⟨u, g⟩, hg, hevent⟩ := List.mem_map.mp h
    cases hevent
    exact ⟨u, mem_faultsOf.mp hg⟩

theorem outcome_of_ok (h : ∀ x ∈ (k.runUnits data schedule s).1, x.2 = .ok ()) :
    (k.executeChecked data schedule s).outcome = .ok () := by
  rw [executeChecked_outcome hslots, if_pos (faultedThreads_eq_nil_iff.mpr h)]

theorem outcome_of_faults (hne : k.units ≠ []) (h : ∀ x ∈ (k.runUnits data schedule s).1, x.2 ≠ .ok ()) :
    (k.executeChecked data schedule s).outcome =
      .error (.faulted (k.units.map (·.slice.thread)).mergeSort) := by
  have hresults : ((k.runUnits data schedule s).1.map (·.1)).Perm k.units := runUnits_perm
  have hperm : ((faultsOf (k.runUnits data schedule s).1).map (·.1.slice.thread)).Perm
      (k.units.map (·.slice.thread)) := by
    have hthreads := hresults.map (·.slice.thread)
    rw [← faultsOf_units h, List.map_map] at hthreads
    exact hthreads
  have hsorted : faultedThreads (k.runUnits data schedule s).1 =
      (k.units.map (·.slice.thread)).mergeSort :=
    List.Perm.eq_of_pairwise' (List.pairwise_mergeSort' (· ≤ ·) _) (List.pairwise_mergeSort' (· ≤ ·) _)
      (((List.mergeSort_perm _ _).trans hperm).trans (List.mergeSort_perm _ _).symm)
  have hsome : faultedThreads (k.runUnits data schedule s).1 ≠ [] := by
    intro hnil
    obtain ⟨u, hu⟩ := List.exists_mem_of_ne_nil _ hne
    obtain ⟨x, hx, -⟩ := List.mem_map.mp (hresults.mem_iff.mpr hu)
    exact h x hx (faultedThreads_eq_nil_iff.mp hnil x hx)
  rw [executeChecked_outcome hslots, if_neg hsome, hsorted]

end

/-- **An execution succeeds if there are enough pointers and no unit reports a fault.** -/
theorem succeeded_iff :
    (k.execute data schedule s).succeeded = true ↔
      Role.count k.descriptor.affine ≤ data.pointers.length ∧
        ∀ x ∈ (k.runUnits data schedule s).1, x.2 = .ok () := by
  rw [execute_succeeded]
  by_cases hslots : Role.count k.descriptor.affine ≤ data.pointers.length
  · rw [executeChecked_outcome hslots, and_iff_right hslots, ← faultedThreads_eq_nil_iff]
    split <;> simp [*]
  · rw [executeChecked_of_short (Nat.lt_of_not_le hslots)]
    simp [hslots]

end AxisNorm.Kernel
