import AxisNorm.Proofs.Descriptor
import AxisNorm.Proofs.Kernel.Build
import AxisNorm.Proofs.Kernel.Execute
import AxisNorm.Proofs.Task.Observation

/-!
# Which threads an execution blames

An observer notes every call of an instance, with its arguments, and every answer.

* `Kernel.observed`: the kernel under observation. Whatever the kernel does can be observed
  (`Kernel.exists_observed`).
* `Kernel.Accounts`: the notes say that every unit was called once and what it answered.
* `Kernel.executeChecked_accounts`: **an execution calls every unit once, and blames exactly the threads
  whose units reported a fault, in increasing order and with one event for each.**
-/

namespace AxisNorm

/-- What is noted of a thread's unit. -/
inductive Note where
  | called (thread : Nat) (data : RuntimeData) (start length : Nat)
  | answered (thread : Nat) (result : Except Fault Unit)

namespace Note

def thread : Note → Nat
  | called t .. | answered t _ => t

/-- The notes about one thread, in their order. -/
def about (t : Nat) (notes : List Note) : List Note := notes.filter (·.thread == t)

theorem about_append_self {t : Nat} {n : Note} (notes : List Note) (h : n.thread = t) :
    about t (notes ++ [n]) = about t notes ++ [n] := by
  simp [about, h]

theorem about_append_of_ne {t : Nat} {n : Note} (notes : List Note) (h : n.thread ≠ t) :
    about t (notes ++ [n]) = about t notes := by
  simp [about, h]

end Note

variable {σ : Type}

/-- The unit with an observer, who sees the arguments that its instance is given. -/
def WorkUnit.observed (u : WorkUnit σ) : WorkUnit (σ × List Note) where
  slice := u.slice
  code := {
    name := u.code.name
    invoke := fun data start length => (u.code.invoke data start length).observed
      (fun notes => notes ++ [.called u.slice.thread data start length])
      (fun r notes => notes ++ [.answered u.slice.thread r]) }

namespace Kernel

/-- The kernel with an observer of its units. -/
def observed (k : Kernel σ) : Kernel (σ × List Note) := ⟨k.descriptor, k.units.map WorkUnit.observed⟩

/-- Every unit was called once, with its own slice and the whole runtime data, and answered after that.
Nobody else was called. -/
structure Accounts (k : Kernel σ) (data : RuntimeData) (answer : Nat → Except Fault Unit)
    (notes : List Note) : Prop where
  unit : ∀ u ∈ k.units, Note.about u.slice.thread notes =
    [.called u.slice.thread data u.slice.start u.slice.length,
      .answered u.slice.thread (answer u.slice.thread)]
  only : ∀ n ∈ notes, ∃ u ∈ k.units, n.thread = u.slice.thread

/-- The units that reported a fault, in the order of the units. -/
def faulty (k : Kernel σ) (answer : Nat → Except Fault Unit) : List (WorkUnit σ × Fault) :=
  faultsOf (k.units.map fun u => (u, answer u.slice.thread))

variable {k : Kernel σ} {data : RuntimeData} {schedule : List Nat} {s : σ}
  {answer : Nat → Except Fault Unit}

/-! ## Observation -/

/-- The result of an observed unit. -/
def observedResult (x : WorkUnit σ × Except Fault Unit) :
    WorkUnit (σ × List Note) × Except Fault Unit := (x.1.observed, x.2)

theorem faultsOf_observedResult (results : List (WorkUnit σ × Except Fault Unit)) :
    faultsOf (results.map observedResult) = (faultsOf results).map fun x => (x.1.observed, x.2) := by
  unfold faultsOf
  rw [List.filterMap_map, List.map_filterMap]
  refine List.filterMap_congr fun x _ => ?_
  obtain ⟨u, r⟩ := x
  cases r <;> rfl

theorem invokeUnit_observes (u : WorkUnit σ) (data : RuntimeData) :
    (invokeUnit data u.observed).Observes observedResult (invokeUnit data u) :=
  Task.observed_observes
    (fun notes => notes ++ [Note.called u.slice.thread data u.slice.start u.slice.length])
    (fun r notes => notes ++ [Note.answered u.slice.thread r]) observedResult (u, ·)
    (u.code.invoke data u.slice.start u.slice.length)

theorem exists_runUnits_observed (k : Kernel σ) (data : RuntimeData) (schedule : List Nat) (s : σ)
    (notes : List Note) : ∃ schedule' notes', k.observed.runUnits data schedule' (s, notes) =
      ((k.runUnits data schedule s).1.map observedResult, ((k.runUnits data schedule s).2, notes')) := by
  refine Pool.exists_run_observes (fun i => ?_) schedule (s, notes)
  show Option.Rel _ ((k.units.map WorkUnit.observed).map (invokeUnit data))[i]?
    (k.units.map (invokeUnit data))[i]?
  rw [List.getElem?_map, List.getElem?_map, List.getElem?_map]
  cases k.units[i]? with
  | none => exact .none
  | some u => exact .some (invokeUnit_observes u data)

theorem exists_observed (k : Kernel σ) (data : RuntimeData) (schedule : List Nat) (s : σ)
    (notes : List Note) : ∃ schedule' notes', k.observed.executeChecked data schedule' (s, notes) =
      ⟨(k.executeChecked data schedule s).outcome, ((k.executeChecked data schedule s).state, notes'),
        (k.executeChecked data schedule s).events⟩ := by
  by_cases hslots : data.pointers.length < Role.count k.descriptor.affine
  · refine ⟨[], notes, ?_⟩
    rw [executeChecked_of_short hslots, executeChecked_of_short (k := k.observed) hslots]
    rfl
  obtain ⟨schedule', notes', hrun⟩ := exists_runUnits_observed k data schedule s notes
  refine ⟨schedule', notes', ?_⟩
  unfold executeChecked
  rw [if_neg hslots, if_neg (show ¬ data.pointers.length < Role.count k.observed.descriptor.affine from hslots)]
  unfold runUnits at hrun
  dsimp only
  rw [hrun]
  dsimp only
  rw [faultsOf_observedResult, List.map_map, List.map_map]
  unfold Kernel.threads observed
  rw [List.length_map]
  rfl

/-! ## What the notes say -/

/-- Under observation the notes about a thread are its own affair. -/
def notesContract (σ : Type) (t : Nat) : Contract (σ × List Note) where
  rely x x' := Note.about t x'.2 = Note.about t x.2
  guarantee x x' := ∀ t', t' ≠ t → Note.about t' x'.2 = Note.about t' x.2
  rely_refl _ := rfl
  rely_trans h h' := h'.trans h
  guarantee_refl _ _ _ := rfl
  guarantee_trans h h' t' ht := (h' t' ht).trans (h t' ht)

theorem noting_ensures {t : Nat} {before : List Note} (task : Task σ (Except Fault Unit))
    {x : σ × List Note} (hx : Note.about t x.2 = before) :
    (task.noting fun r notes => notes ++ [Note.answered t r]).Ensures (notesContract σ t)
      (fun r x' => Note.about t x'.2 = before ++ [.answered t r]) x := by
  induction task generalizing x with
  | done r =>
    intro x' hx'
    refine ⟨fun t' ht => Note.about_append_of_ne _ (Ne.symm ht), fun x'' hx'' => ?_⟩
    have hown : Note.about t (x'.2 ++ [.answered t r]) = Note.about t x'.2 ++ [.answered t r] :=
      Note.about_append_self _ rfl
    rw [show Note.about t x'.2 = before from Eq.trans hx' hx] at hown
    exact Eq.trans hx'' hown
  | act effect next ih =>
    intro x' hx'
    exact ⟨fun _ _ => rfl, ih x'.1 (x := (effect x'.1, x'.2)) (Eq.trans hx' hx)⟩

theorem invokeUnit_ensures (u : WorkUnit σ) (data : RuntimeData) {x : σ × List Note}
    (hx : Note.about u.slice.thread x.2 = []) :
    (invokeUnit data u.observed).Ensures (notesContract σ u.slice.thread)
      (fun y x' => y.1 = u.observed ∧ Note.about u.slice.thread x'.2 =
        [.called u.slice.thread data u.slice.start u.slice.length, .answered u.slice.thread y.2]) x := by
  refine Task.Ensures.map ?_
  intro x' hx'
  refine ⟨fun t' ht => Note.about_append_of_ne _ (Ne.symm ht), ?_⟩
  have hcalled : Note.about u.slice.thread
      (x'.2 ++ [.called u.slice.thread data u.slice.start u.slice.length]) =
        [.called u.slice.thread data u.slice.start u.slice.length] := by
    refine Eq.trans (Note.about_append_self x'.2 (show Note.thread (.called _ _ _ _) = _ from rfl)) ?_
    rw [show Note.about u.slice.thread x'.2 = [] from Eq.trans hx' hx, List.nil_append]
  exact (noting_ensures _ hcalled).weaken fun r x'' h => ⟨rfl, h⟩

/-- Who relies on it that nothing is noted about threads from `count` on. -/
def othersContract (σ : Type) (count : Nat) : Contract (σ × List Note) where
  rely x x' := ∀ t, count ≤ t → Note.about t x'.2 = Note.about t x.2
  guarantee _ _ := True
  rely_refl _ _ _ := rfl
  rely_trans h h' t ht := (h' t ht).trans (h t ht)
  guarantee_refl _ := trivial
  guarantee_trans _ _ := trivial

section

variable (hthreads : k.units.map (·.slice.thread) = List.range k.threads)

include hthreads

theorem thread_eq {j : Nat} {u : WorkUnit σ} (hu : k.units[j]? = some u) : u.slice.thread = j := by
  have hj := congrArg (·[j]?) hthreads
  obtain ⟨hlt, -⟩ := List.getElem?_eq_some_iff.mp hu
  rw [List.getElem?_map, hu, List.getElem?_range (show j < k.threads from hlt)] at hj
  exact Option.some.inj hj

theorem exists_results (data : RuntimeData) (schedule : List Nat) (s : σ) :
    ∃ results, (k.observed.runUnits data schedule (s, [])).1.Perm results ∧
      results.length = k.units.length ∧
      (∀ j u, k.units[j]? = some u → ∃ r, results[j]? = some (u.observed, r) ∧
        Note.about j (k.observed.runUnits data schedule (s, [])).2.2 =
          [.called j data u.slice.start u.slice.length, .answered j r]) ∧
      ∀ t, k.units.length ≤ t → Note.about t (k.observed.runUnits data schedule (s, [])).2.2 = [] := by
  have htask : ∀ j t, (k.observed.units.map (invokeUnit data))[j]? = some t →
      Task.Ensures (notesContract σ j) (fun (y : WorkUnit (σ × List Note) × Except Fault Unit) x' =>
        ∃ u, k.units[j]? = some u ∧ y.1 = u.observed ∧ Note.about j x'.2 =
          [.called j data u.slice.start u.slice.length, .answered j y.2]) t (s, []) := by
    intro j t ht
    rw [observed, List.getElem?_map, List.getElem?_map, Option.map_map, Option.map_eq_some_iff] at ht
    obtain ⟨u, hu, rfl⟩ := ht
    have hensures := invokeUnit_ensures (x := (s, [])) u data rfl
    rw [thread_eq hthreads hu] at hensures
    exact hensures.weaken fun y x' hy => ⟨u, hu, hy⟩
  have hcompatible (i j : Nat) (hij : i ≠ j) (x x' : σ × List Note)
      (hg : (notesContract σ i).guarantee x x') : (notesContract σ j).rely x x' := hg j (Ne.symm hij)
  obtain ⟨results, hlength, hperm, hpost, hrely⟩ := Pool.run_ensures hcompatible htask schedule
  rw [List.length_map, observed, List.length_map] at hlength
  refine ⟨results, hperm, hlength, fun j u hu => ?_, fun t ht => ?_⟩
  · obtain ⟨hj, -⟩ := List.getElem?_eq_some_iff.mp hu
    have hget := List.getElem?_eq_getElem (show j < results.length by omega)
    obtain ⟨v, hv, hunit, hnotes⟩ := hpost j _ hget
    obtain rfl := Option.some.inj (hv.symm.trans hu)
    exact ⟨_, hget.trans (congrArg some (Prod.ext hunit rfl)), hnotes⟩
  · refine hrely (othersContract σ k.units.length) (fun i hi x x' hg t ht => hg t ?_) t ht
    rw [List.length_map, observed, List.length_map] at hi
    omega

theorem observed_accounts (data : RuntimeData) (schedule : List Nat) (s : σ) :
    ∃ answer, k.Accounts data answer (k.observed.runUnits data schedule (s, [])).2.2 ∧
      (k.observed.runUnits data schedule (s, [])).1.Perm
        (k.observed.units.map fun u => (u, answer u.slice.thread)) := by
  obtain ⟨results, hperm, hlength, hresult, hnone⟩ := exists_results hthreads data schedule s
  generalize (k.observed.runUnits data schedule (s, [])).2.2 = notes at hresult hnone ⊢
  -- Place and thread are the same number, so that answers can be read off the results.
  let answer (t : Nat) : Except Fault Unit := (results[t]?.map (·.2)).getD (.ok ())
  refine ⟨answer, ⟨fun u hu => ?_, fun n hn => ?_⟩, ?_⟩
  · obtain ⟨j, hj⟩ := List.getElem?_of_mem hu
    obtain ⟨r, hr, hnotes⟩ := hresult j u hj
    rw [thread_eq hthreads hj, hnotes]
    simp [answer, hr]
  · by_cases hlt : n.thread < k.units.length
    · have hget := List.getElem?_eq_getElem hlt
      exact ⟨_, List.mem_of_getElem? hget, (thread_eq hthreads hget).symm⟩
    · have hmem : n ∈ Note.about n.thread notes := List.mem_filter.mpr ⟨hn, beq_self_eq_true _⟩
      rw [hnone n.thread (Nat.le_of_not_lt hlt)] at hmem
      cases hmem
  · refine hperm.trans (.of_eq (List.ext_getElem? fun j => ?_))
    rw [List.getElem?_map, observed, List.getElem?_map]
    cases hu : k.units[j]? with
    | none =>
      rw [List.getElem?_eq_none_iff] at hu
      exact List.getElem?_eq_none (by omega)
    | some u =>
      obtain ⟨r, hr, -⟩ := hresult j u hu
      have hanswer : answer u.slice.thread = r := by simp [answer, thread_eq hthreads hu, hr]
      rw [hr, Option.map_some, Option.map_some, ← hanswer]
      rfl

end

/-! ## What an execution reports -/

theorem faulty_threads_sublist : ((k.faulty answer).map (·.1.slice.thread)).Sublist
    (k.units.map (·.slice.thread)) := by
  unfold faulty
  induction k.units with
  | nil => exact .slnil
  | cons u units ih =>
    unfold faultsOf at ih ⊢
    rw [List.map_cons, List.filterMap_cons]
    cases hanswer : answer u.slice.thread with
    | ok _ => exact ih.cons _
    | error f => exact ih.cons_cons _

theorem faulty_observed (k : Kernel σ) (answer : Nat → Except Fault Unit) :
    k.observed.faulty answer = (k.faulty answer).map fun x => (x.1.observed, x.2) := by
  unfold faulty
  rw [← faultsOf_observedResult, observed, List.map_map, List.map_map]
  rfl

theorem mem_faulty_threads {t : Nat} : t ∈ (k.faulty answer).map (·.1.slice.thread) ↔
    ∃ u ∈ k.units, u.slice.thread = t ∧ ∃ f, answer t = .error f := by
  constructor
  · intro h
    obtain ⟨⟨u, f⟩, huf, rfl⟩ := List.mem_map.mp h
    obtain ⟨v, hv, heq⟩ := List.mem_map.mp (mem_faultsOf.mp huf)
    obtain ⟨rfl, hf⟩ := Prod.mk.inj heq
    exact ⟨v, hv, rfl, f, hf⟩
  · rintro ⟨u, hu, rfl, f, hf⟩
    have huf : (u, .error f) ∈ k.units.map fun u => (u, answer u.slice.thread) :=
      List.mem_map.mpr ⟨u, hu, by rw [hf]⟩
    exact List.mem_map.mpr ⟨(u, f), mem_faultsOf.mpr huf, rfl⟩

/-- What is reported depends on the answers and not on their order. -/
theorem executeChecked_of_answers (hthreads : k.units.map (·.slice.thread) = List.range k.threads)
    (hslots : Role.count k.descriptor.affine ≤ data.pointers.length)
    (hperm : (k.runUnits data schedule s).1.Perm (k.units.map fun u => (u, answer u.slice.thread))) :
    (k.executeChecked data schedule s).outcome =
        (if (k.faulty answer).map (·.1.slice.thread) = [] then .ok ()
          else .error (.faulted ((k.faulty answer).map (·.1.slice.thread)))) ∧
      ((k.executeChecked data schedule s).events.filter (·.message == "thread instance faulted")).Perm
        ((k.faulty answer).map fun x => .instanceFaulted x.1.code.name x.1.slice x.2) := by
  have hfaults : (faultsOf (k.runUnits data schedule s).1).Perm (k.faulty answer) := hperm.filterMap _
  have hsorted : ((k.faulty answer).map (·.1.slice.thread)).Pairwise (· ≤ ·) := by
    have hrange : (k.units.map (·.slice.thread)).Pairwise (· ≤ ·) := by
      rw [hthreads]
      exact List.pairwise_le_range
    exact hrange.sublist faulty_threads_sublist
  have hthreads : faultedThreads (k.runUnits data schedule s).1 =
      (k.faulty answer).map (·.1.slice.thread) :=
    List.Perm.eq_of_pairwise' (List.pairwise_mergeSort' (· ≤ ·) _) hsorted
      ((List.mergeSort_perm _ _).trans (hfaults.map _))
  constructor
  · rw [executeChecked_outcome hslots, hthreads]
  · rw [executeChecked, if_neg (Nat.not_lt.mpr hslots)]
    have hkept (faults : List (WorkUnit σ × Fault)) :
        (faults.map fun x => Event.instanceFaulted x.1.code.name x.1.slice x.2).filter
            (·.message == "thread instance faulted") =
          faults.map fun x => Event.instanceFaulted x.1.code.name x.1.slice x.2 := by
      rw [List.filter_eq_self]
      intro event hevent
      obtain ⟨x, -, rfl⟩ := List.mem_map.mp hevent
      rfl
    refine (List.Perm.of_eq ?_).trans (hfaults.map _)
    exact hkept _

theorem range_threads_of_build {backend : Backend σ} {home : ConstantAddresses} {d : Descriptor}
    {workers : Workers} {requested : Nat} {events : List Event}
    (hk : build backend workers home d requested = (.ok k, events)) :
    k.units.map (·.slice.thread) = List.range k.threads := by
  rw [threads_of_build hk, threads, length_of_build hk]

/-- **An execution calls every unit once, with its own slice and the whole runtime data, and blames exactly
the threads whose units reported a fault.** The threads are named in increasing order, whatever the order
of completion, and one event is reported for each. Runtime data that is too short calls nobody. -/
theorem executeChecked_accounts {backend : Backend σ} {home : ConstantAddresses} {d : Descriptor}
    {workers : Workers} {requested : Nat} {k : Kernel σ} {events : List Event}
    (hk : build backend workers home d requested = (.ok k, events)) (data : RuntimeData)
    (schedule : List Nat) (s : σ) :
    let slots := Role.count d.affine
    let e := k.executeChecked data schedule s
    (data.pointers.length < slots →
      e = ⟨.error (.tooFewSlots slots data.pointers.length), s, []⟩ ∧
      ∀ schedule' notes, (k.observed.executeChecked data schedule' (s, notes)).state = (s, notes)) ∧
    (slots ≤ data.pointers.length → ∃ schedule' notes answer,
      k.observed.executeChecked data schedule' (s, []) = ⟨e.outcome, (e.state, notes), e.events⟩ ∧
      k.Accounts data answer notes ∧
      let threads := (k.faulty answer).map (·.1.slice.thread)
      threads.Pairwise (· < ·) ∧
      (∀ t, t ∈ threads ↔ ∃ u ∈ k.units, u.slice.thread = t ∧ ∃ f, answer t = .error f) ∧
      e.outcome = (if threads = [] then .ok () else .error (.faulted threads)) ∧
      (e.events.filter (·.message == "thread instance faulted")).Perm
        ((k.faulty answer).map fun x => .instanceFaulted x.1.code.name x.1.slice x.2)) := by
  dsimp only
  obtain ⟨rfl, -, -⟩ := build_eq_ok hk
  have hthreads := range_threads_of_build hk
  constructor
  · intro hshort
    refine ⟨executeChecked_of_short hshort, fun schedule' notes => ?_⟩
    rw [executeChecked_of_short (k := k.observed) hshort]
  · intro hslots
    obtain ⟨schedule', notes, hobserved⟩ := exists_observed k data schedule s []
    obtain ⟨answer, haccounts, hperm⟩ := observed_accounts hthreads data schedule' s
    have hnotes : (k.observed.runUnits data schedule' (s, [])).2.2 = notes := by
      rw [← executeChecked_state (k := k.observed) hslots, hobserved]
    have hthreads' : k.observed.units.map (·.slice.thread) = List.range k.observed.threads := by
      rw [threads, observed, List.map_map, List.length_map]
      exact hthreads
    obtain ⟨houtcome, hevents⟩ := executeChecked_of_answers hthreads' hslots hperm
    rw [faulty_observed, hobserved, List.map_map] at houtcome hevents
    refine ⟨schedule', notes, answer, hobserved, hnotes ▸ haccounts, ?_, fun t => mem_faulty_threads,
      houtcome, hevents⟩
    have hrange : (k.units.map (·.slice.thread)).Pairwise (· < ·) := by
      rw [hthreads]
      exact List.pairwise_lt_range
    exact hrange.sublist faulty_threads_sublist

/-- A description of two groups of one element. -/
def columnOperator : Operator where
  kind := .layernormBa
  propagation := .forwardInference
  engine := .cpu
  tensors := [⟨[2, 1], .float32⟩, ⟨[2, 1], .float32⟩]
  batchAxis := 0
  attributes := ∅

/-- Two threads, the second of which is told to fail and completes first. -/
theorem executeChecked_accounts_column : ∃ d k events, Descriptor.ofOperator columnOperator = .ok d ∧
    build (Backend.recording ⟨none, [1]⟩) (.sequential 2 true) ⟨0, 0, 0⟩ d 2 = (.ok k, events) ∧
    (k.executeChecked ⟨0, [1, 2]⟩ [1, 1, 0] []).outcome = .error (.faulted [1]) ∧
    ∃ notes answer, k.Accounts ⟨0, [1, 2]⟩ answer notes ∧ ∃ f, answer 1 = .error f := by
  have hcomputed : ((Descriptor.ofOperator columnOperator).toOption.bind
      fun d => (build (Backend.recording ⟨none, [1]⟩) (.sequential 2 true) ⟨0, 0, 0⟩ d 2).1.toOption.map
        fun k => (k.executeChecked ⟨0, [1, 2]⟩ [1, 1, 0] []).outcome) =
      some (.error (.faulted [1])) := by decide +kernel
  cases hd : Descriptor.ofOperator columnOperator with
  | error e => rw [hd] at hcomputed; cases hcomputed
  | ok d =>
    rw [hd] at hcomputed
    cases hk : build (Backend.recording ⟨none, [1]⟩) (.sequential 2 true) ⟨0, 0, 0⟩ d 2 with
    | mk result events =>
      have hcomputed := Option.map_eq_some_iff.mp hcomputed
      rw [hk] at hcomputed
      obtain ⟨k, hresult, houtcome⟩ := hcomputed
      obtain rfl : result = .ok k := by cases result <;> cases hresult; rfl
      obtain ⟨hshort, h⟩ := executeChecked_accounts hk ⟨0, [1, 2]⟩ [1, 1, 0] []
      have hslots : Role.count d.affine ≤ 2 := by
        by_contra hlt
        rw [(hshort (Nat.lt_of_not_le hlt)).1] at houtcome
        cases houtcome
      obtain ⟨-, notes, answer, -, haccounts, -, hthreads, hreported, -⟩ := h hslots
      rw [houtcome] at hreported
      split at hreported
      · cases hreported
      have hlist := ExecuteError.faulted.inj (Except.error.inj hreported)
      rw [← hlist] at hthreads
      obtain ⟨u, -, -, hone⟩ := (hthreads 1).mp (by decide)
      exact ⟨d, k, events, rfl, hk, houtcome, notes, answer, haccounts, hone⟩

end Kernel

end AxisNorm
