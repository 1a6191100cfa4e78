import AxisNorm.Activity
import AxisNorm.Proofs.Benchmark
import AxisNorm.Proofs.Kernel.Faults

/-!
# Benchmarks of kernels

An observer of a benchmark takes a new page for the notes of every call.

* `Kernel.observedCall`: a call under observation. Whatever a benchmark does can be observed
  (`Kernel.exists_observedCourse`).
* `Kernel.Accounts.length_calls`: the notes of a call name every unit once.
* `Kernel.benchmark_accounts`: **a benchmark makes as many calls as it should, each of which calls every unit
  once.**
-/

namespace AxisNorm

open Benchmark

/-- Whether a note says that a unit was called. -/
def Note.isCall : Note → Bool
  | .called .. => true
  | .answered .. => false

namespace Kernel

variable {σ : Type} {k : Kernel σ} {data : RuntimeData} {course : Course} {s : σ}

/-- A call whose units are observed, with a new page for its notes. -/
def observedCall (k : Kernel σ) (data : RuntimeData) (course : Course) (x : Calls σ × List (List Note)) :
    Run × (Calls σ × List (List Note)) :=
  let e := k.observed.execute data (course.schedule x.1.count) (x.1.state, [])
  (⟨e.succeeded, course.elapsed x.1.count⟩, ⟨e.state.1, x.1.events ++ e.events, x.1.count + 1⟩,
    x.2 ++ [e.state.2])

/-- Every unit was called once, or nobody was because the runtime data is too short. -/
structure Page (k : Kernel σ) (data : RuntimeData) (notes : List Note) : Prop where
  short : data.pointers.length < Role.count k.descriptor.affine → notes = []
  called : Role.count k.descriptor.affine ≤ data.pointers.length → ∃ answer, k.Accounts data answer notes

theorem exists_execute_observed (k : Kernel σ) (data : RuntimeData) (schedule : List Nat) (s : σ) :
    ∃ schedule' notes, k.observed.execute data schedule' (s, []) =
      ⟨(k.execute data schedule s).outcome, ((k.execute data schedule s).state, notes),
        (k.execute data schedule s).events⟩ := by
  obtain ⟨schedule', notes, h⟩ := exists_observed k data schedule s []
  refine ⟨schedule', notes, ?_⟩
  unfold execute
  rw [h]
  dsimp only
  cases houtcome : (k.executeChecked data schedule s).outcome with
  | ok _ => rw [houtcome]
  | error cause => rfl

theorem page_observed (hthreads : k.units.map (·.slice.thread) = List.range k.threads) (schedule : List Nat)
    (s : σ) : k.Page data (k.observed.execute data schedule (s, [])).state.2 := by
  rw [execute_state]
  refine ⟨fun hshort => ?_, fun hslots => ?_⟩
  · rw [executeChecked_of_short (k := k.observed) hshort]
  · obtain ⟨answer, haccounts, -⟩ := observed_accounts hthreads data schedule s
    exact ⟨answer, (executeChecked_state (k := k.observed) hslots).symm ▸ haccounts⟩

/-- What call `n` of a benchmark finds. -/
def found (k : Kernel σ) (data : RuntimeData) (course : Course) (s : σ) (n : Nat) : Calls σ :=
  after (k.timedCall data course) n ⟨s, [], 0⟩

/-- Under observation the calls of the second course do what those of the first do. -/
structure Shows (k : Kernel σ) (data : RuntimeData) (s : σ) (course course' : Course) : Prop where
  elapsed : course'.elapsed = course.elapsed
  execute : ∀ n, ∃ notes, k.observed.execute data (course'.schedule n) ((k.found data course s n).state, []) =
    ⟨(k.execute data (course.schedule n) (k.found data course s n).state).outcome,
      ((k.execute data (course.schedule n) (k.found data course s n).state).state, notes),
      (k.execute data (course.schedule n) (k.found data course s n).state).events⟩

theorem exists_shows (k : Kernel σ) (data : RuntimeData) (s : σ) (course : Course) :
    ∃ course', k.Shows data s course course' := by
  choose schedule hschedule using fun n =>
    exists_execute_observed k data (course.schedule n) (k.found data course s n).state
  exact ⟨⟨schedule, course.elapsed⟩, rfl, hschedule⟩

/-- The calls of an observed benchmark so far, and those of the benchmark itself. -/
structure Keeps (k : Kernel σ) (data : RuntimeData) (course : Course) (s : σ) (x : Calls σ × List (List Note))
    (c : Calls σ) : Prop where
  calls : x.1 = c
  found : c = k.found data course s c.count
  length : x.2.length = c.count
  pages : ∀ page ∈ x.2, k.Page data page

section

variable (hthreads : k.units.map (·.slice.thread) = List.range k.threads)

include hthreads

/-- A call and its observation do the same, and leave one page more. -/
theorem Keeps.call {course' : Course} (hshows : k.Shows data s course course')
    (x : Calls σ × List (List Note)) (c : Calls σ) (h : k.Keeps data course s x c) :
    (k.observedCall data course' x).1 = (k.timedCall data course c).1 ∧
      k.Keeps data course s (k.observedCall data course' x).2 (k.timedCall data course c).2 := by
  obtain ⟨c', pages⟩ := x
  obtain ⟨rfl, hfound, hlength, hpages⟩ := h
  obtain ⟨notes, hexecute⟩ := hshows.execute c'.count
  rw [← hfound] at hexecute
  have hpage : k.Page data (k.observed.execute data (course'.schedule c'.count) (c'.state, [])).state.2 :=
    page_observed hthreads _ _
  unfold observedCall
  dsimp only
  rw [hexecute] at hpage ⊢
  rw [hshows.elapsed]
  refine ⟨rfl, rfl, ?_, ?_, ?_⟩
  · have hnext : k.found data course s (c'.count + 1) =
        (k.timedCall data course (k.found data course s c'.count)).2 := after_add
    rw [← hfound] at hnext
    exact hnext.symm
  · rw [List.length_append, hlength]
    rfl
  · intro page hmem
    rcases List.mem_append.mp hmem with hmem | hmem
    · exact hpages page hmem
    · rw [List.mem_singleton.mp hmem]
      exact hpage

theorem exists_observedCourse (config : Config) (data : RuntimeData) (course : Course) (s : σ) :
    ∃ course' pages, course'.elapsed = course.elapsed ∧
      measure config (k.observedCall data course') (⟨s, [], 0⟩, []) =
        ((measure config (k.timedCall data course) ⟨s, [], 0⟩).1,
          (measure config (k.timedCall data course) ⟨s, [], 0⟩).2, pages) ∧
      pages.length = (measure config (k.timedCall data course) ⟨s, [], 0⟩).2.count ∧
      ∀ page ∈ pages, k.Page data page := by
  obtain ⟨course', hshows⟩ := exists_shows k data s course
  have hstart : k.Keeps data course s (⟨s, [], 0⟩, []) ⟨s, [], 0⟩ := ⟨rfl, rfl, rfl, nofun⟩
  obtain ⟨hresult, hend⟩ := measure_related (Keeps.call hthreads hshows) hstart config
  exact ⟨course', _, hshows.elapsed, Prod.ext hresult (Prod.ext hend.calls rfl), hend.length, hend.pages⟩

end

/-! ## How many units are called -/

theorem Accounts.length_calls {answer : Nat → Except Fault Unit} {notes : List Note}
    (h : k.Accounts data answer notes) (hthreads : k.units.map (·.slice.thread) = List.range k.threads) :
    (notes.filter Note.isCall).length = k.threads := by
  have hperm : ((notes.filter Note.isCall).map Note.thread).Perm (List.range k.threads) := by
    refine List.perm_iff_count.mpr fun t => ?_
    have hcount : ((notes.filter Note.isCall).map Note.thread).count t =
        ((Note.about t notes).filter Note.isCall).length := by
      rw [List.count, List.countP_map, List.countP_eq_length_filter, Note.about, List.filter_comm]
      rfl
    rw [hcount]
    by_cases ht : t ∈ List.range k.threads
    · rw [List.count_eq_one_of_mem List.nodup_range ht]
      rw [← hthreads] at ht
      obtain ⟨u, hu, rfl⟩ := List.mem_map.mp ht
      rw [h.unit u hu]
      rfl
    · have hnone : Note.about t notes = [] := by
        refine List.filter_eq_nil_iff.mpr fun n hn hthread => ht ?_
        obtain ⟨u, hu, heq⟩ := h.only n hn
        rw [← hthreads, ← beq_iff_eq.mp hthread, heq]
        exact List.mem_map_of_mem hu
      rw [hnone, List.count_eq_zero_of_not_mem ht]
      rfl
  rw [← List.length_map Note.thread, hperm.length_eq, List.length_range]

theorem length_calls_of_pages {pages : List (List Note)}
    (hthreads : k.units.map (·.slice.thread) = List.range k.threads)
    (hslots : Role.count k.descriptor.affine ≤ data.pointers.length)
    (hpages : ∀ page ∈ pages, k.Page data page) :
    (pages.flatten.filter Note.isCall).length = k.threads * pages.length := by
  induction pages with
  | nil => rfl
  | cons page pages ih =>
    obtain ⟨answer, haccounts⟩ := (hpages page List.mem_cons_self).called hslots
    rw [List.flatten_cons, List.filter_append, List.length_append, haccounts.length_calls hthreads,
      ih fun page hmem => hpages page (List.mem_cons_of_mem _ hmem), List.length_cons, Nat.mul_succ, Nat.add_comm]

/-- What a benchmark of a kernel comes to: the number of its calls, and the units that these call. -/
structure BenchmarkAccounts (k : Kernel σ) (config : Config) (data : RuntimeData) (course : Course) (s : σ) :
    Prop where
  result : k.benchmark config none data course s =
    (((measure config (k.timedCall data course) ⟨s, [], 0⟩).1.map some).mapError (·.map fun _ => .faulted []),
      (measure config (k.timedCall data course) ⟨s, [], 0⟩).2)
  count : (measure config (counted (k.timedCall data course)) (⟨s, [], 0⟩, 0)).2.2 =
    (k.benchmark config none data course s).2.count
  /-- Under observation there is a page for every call, and calls name every unit once. -/
  observed : ∃ course' pages, course'.elapsed = course.elapsed ∧
    measure config (k.observedCall data course') (⟨s, [], 0⟩, []) =
      ((measure config (k.timedCall data course) ⟨s, [], 0⟩).1, (k.benchmark config none data course s).2, pages) ∧
    pages.length = (k.benchmark config none data course s).2.count ∧
    (∀ page ∈ pages, k.Page data page) ∧
    (Role.count k.descriptor.affine ≤ data.pointers.length →
      (pages.flatten.filter Note.isCall).length = k.threads * (k.benchmark config none data course s).2.count)

/-- **A benchmark ends at the first failure, and otherwise makes all calls and records the times of the timed
ones. Each call of a kernel calls every unit of it once**, unless the runtime data is too short, whatever the
interleavings and the times of the calls are. -/
theorem benchmark_accounts :
    (∀ {σ : Type} (config : Config) (call : σ → Run × σ) (s : σ), Benchmark.Accounts config call s) ∧
    ∀ {σ : Type} {backend : Backend σ} {workers : Workers} {home : ConstantAddresses} {d : Descriptor}
      {requested : Nat} {k : Kernel σ} {events : List Event},
      build backend workers home d requested = (.ok k, events) →
      k.threads = effectiveThreads requested d.split.groupCount ∧
      ∀ (config : Config) (data : RuntimeData) (course : Course) (s : σ),
        k.BenchmarkAccounts config data course s := by
  refine ⟨Benchmark.accounts, fun {σ _ _ _ _ _ k _} hk =>
    ⟨length_of_build hk, fun config data course s => ⟨rfl, ?_, ?_⟩⟩⟩
  · have hcall (x : Calls σ × Nat) (c : Calls σ) (h : x.1 = c ∧ x.2 = c.count) :
        (counted (k.timedCall data course) x).1 = (k.timedCall data course c).1 ∧
          (counted (k.timedCall data course) x).2.1 = (k.timedCall data course c).2 ∧
          (counted (k.timedCall data course) x).2.2 = (k.timedCall data course c).2.count := by
      obtain ⟨rfl, hcount⟩ := h
      exact ⟨rfl, rfl, congrArg (· + 1) hcount⟩
    exact (measure_related (R := fun x (c : Calls σ) => x.1 = c ∧ x.2 = c.count) hcall
      (s := (⟨s, [], 0⟩, 0)) (t := ⟨s, [], 0⟩) ⟨rfl, rfl⟩ config).2.2
  · have hthreads := range_threads_of_build hk
    obtain ⟨course', pages, helapsed, hmeasure, hlength, hpages⟩ :=
      exists_observedCourse hthreads config data course s
    exact ⟨course', pages, helapsed, hmeasure, hlength, hpages,
      fun hslots => hlength ▸ length_calls_of_pages hthreads hslots hpages⟩

/-- Two threads, two warm-up calls and four timed ones: the units are called twelve times. -/
theorem benchmark_accounts_column : ∃ d k events, Descriptor.ofOperator columnOperator = .ok d ∧
    build (Backend.recording ⟨none, []⟩) (.sequential 2 false) ⟨0, 0, 0⟩ d 2 = (.ok k, events) ∧
    (k.benchmark ⟨2, 4, false⟩ none ⟨0, [1, 2]⟩ ⟨fun _ => [], id⟩ []).1 = .ok (some ⟨2, 3, [2, 3, 4, 5]⟩) ∧
    ∃ pages : List (List Note), pages.length = 6 ∧ (∀ page ∈ pages, k.Page ⟨0, [1, 2]⟩ page) ∧
      (pages.flatten.filter Note.isCall).length = 12 := by
  have hcomputed : ((Descriptor.ofOperator columnOperator).toOption.bind
      fun d => (build (Backend.recording ⟨none, []⟩) (.sequential 2 false) ⟨0, 0, 0⟩ d 2).1.toOption.map fun k =>
        ((k.benchmark ⟨2, 4, false⟩ none ⟨0, [1, 2]⟩ ⟨fun _ => [], id⟩ []).1,
          (k.benchmark ⟨2, 4, false⟩ none ⟨0, [1, 2]⟩ ⟨fun _ => [], id⟩ []).2.count,
          k.threads, k.descriptor.affine)) = some (.ok (some ⟨2, 3, [2, 3, 4, 5]⟩), 6, 2, false) := by decide +kernel
  cases hd : Descriptor.ofOperator columnOperator with
  | error e => rw [hd] at hcomputed; cases hcomputed
  | ok d =>
    rw [hd] at hcomputed
    cases hk : build (Backend.recording ⟨none, []⟩) (.sequential 2 false) ⟨0, 0, 0⟩ d 2 with
    | mk result events =>
      have hcomputed := Option.map_eq_some_iff.mp hcomputed
      rw [hk] at hcomputed
      obtain ⟨k, hresult, hcomputed⟩ := hcomputed
      obtain rfl : result = .ok k := by cases result <;> cases hresult; rfl
      simp only [Prod.mk.injEq] at hcomputed
      obtain ⟨htimes, hcount, hthreads, haffine⟩ := hcomputed
      obtain ⟨-, -, -, pages, -, -, hlength, hpages, hcalls⟩ :=
        (benchmark_accounts.2 hk).2 ⟨2, 4, false⟩ ⟨0, [1, 2]⟩ ⟨fun _ => [], id⟩ []
      refine ⟨d, k, events, rfl, hk, htimes, pages, hlength.trans hcount, hpages, ?_⟩
      rw [hcalls (by rw [haffine]; decide), hcount, hthreads]

end Kernel

end AxisNorm
