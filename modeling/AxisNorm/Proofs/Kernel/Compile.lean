import AxisNorm.Proofs.Kernel.Executable

/-!
# Every instance or none

A kernel is built from what its backend compiles, whichever instances fail and whoever compiles them when.

* `Kernel.unit_of_build`: a unit runs what was compiled under the name of its position.
* `Kernel.events_of_build`: building reports what compiling every instance reports.
* `Kernel.build_outcome`: **a kernel has every instance, or there is none and one of the failing instances is
  named.**
-/

namespace AxisNorm.Kernel

variable {σ : Type} {backend : Backend σ} {workers : Workers} {home : ConstantAddresses} {d : Descriptor}
  {requested : Nat} {k : Kernel σ} {events : List Event}

theorem unit_of_build {t : Nat} {u : WorkUnit σ} (h : build backend workers home d requested = (.ok k, events))
    (hu : k.units[t]? = some u) :
    u.slice.thread = t ∧ (backend.compile (d.parameters home) (instanceName t)).1 = .ok u.code := by
  have hthread : (k.units.map (·.slice.thread))[t]? = some u.slice.thread := by rw [List.getElem?_map, hu]; rfl
  rw [threads_of_build h, List.getElem?_eq_some_iff] at hthread
  obtain ⟨_, hthread⟩ := hthread
  rw [List.getElem_range] at hthread
  obtain ⟨events', hcode⟩ := (build_eq_ok h).2.2 u (List.mem_of_getElem? hu)
  rw [hthread, hcode]
  exact ⟨rfl, rfl⟩

theorem events_of_build (h : build backend workers home d requested = (.ok k, events)) :
    ∃ compiled, events = .buildStarted backend.name requested k.threads d.split.groupCount :: compiled ∧
      compiled.Perm (k.slices.flatMap fun x => (compileUnit backend (d.parameters home) x).2) := by
  obtain ⟨-, slices, hslices, hunits⟩ := exists_slices_of_build h
  obtain rfl : k.slices = slices := Except.ok.inj ((build_eq_ok h).2.1.symm.trans hslices)
  have hevents := congrArg Prod.snd h
  rw [build, hslices] at hevents
  rw [threads, length_of_build h]
  refine ⟨_, hevents.symm, ?_⟩
  unfold compileUnits at hunits ⊢
  split at hunits
  · next hseveral =>
    rw [if_pos hseveral]
    split at hunits
    · cases hunits
    · exact workers.collect_reports hunits
  · next hone =>
    rw [if_neg hone]
    exact .of_eq (collectInOrder_eq_ok (mapError_eq_ok_iff.mp hunits)).2

/-- **A kernel has every instance, or there is none and one of the failing instances is named.** There has to
be room for the lists of slices and of units, and several threads need a pool. -/
theorem build_outcome {op : Operator} (hd : Descriptor.ofOperator op = .ok d) (backend : Backend σ)
    (workers : Workers) (home : ConstantAddresses) (requested : Nat) :
    let n := effectiveThreads requested d.split.groupCount
    let compiled := fun t => (backend.compile (d.parameters home) (instanceName t)).1
    let result := (build backend workers home d requested).1
    (2 ^ 63 ≤ n * Slice.bytes → result = .error (.arithmetic .capacityOverflow)) ∧
      (n * Slice.bytes < 2 ^ 63 → 1 < n → ∀ reason, workers.start n = .error reason →
        result = .error (.error (.threadPool reason))) ∧
      (workers.Starts n → n * WorkUnit.bytes < 2 ^ 63 →
        ((∃ k, result = .ok k) ↔ ∀ t < n, ∃ code, compiled t = .ok code) ∧
        ∀ e, result = .error e →
          ∃ t < n, ∃ cause, e = .error (.compilation t cause) ∧ compiled t = .error cause) ∧
      (2 ^ 63 ≤ n * WorkUnit.bytes → ¬ ∃ k, result = .ok k) ∧
      ∀ k, result = .ok k →
        k.descriptor = d ∧ k.units.length = n ∧ partition d.split.groupCount n = .ok k.slices ∧
          ∀ t u, k.units[t]? = some u → u.slice.thread = t ∧ compiled t = .ok u.code := by
  dsimp only
  cases hbuild : build backend workers home d requested with
  | mk result events =>
  have hfst := congrArg Prod.fst hbuild
  refine ⟨fun hfull => hfst ▸ build_eq_capacityOverflow hfull,
    fun hslices hseveral reason h => hfst ▸ build_eq_threadPool hd hslices hseveral h,
    fun hstarts hroom => ⟨⟨?_, fun hall => ?_⟩, ?_⟩, fun hfull ⟨k, hk⟩ => ?_, ?_⟩
  · rintro ⟨k, rfl⟩ t ht
    have hlt : t < k.units.length := (length_of_build hbuild).symm ▸ ht
    exact ⟨_, (unit_of_build hbuild (List.getElem?_eq_getElem hlt)).2⟩
  · obtain ⟨k, events', hk⟩ := build_ok (partition_of_room hd hroom) hstarts hroom fun x hx => by
      obtain ⟨t, ht, rfl⟩ := List.mem_map.mp hx
      obtain ⟨code, hcode⟩ := hall t (List.mem_range.mp ht)
      exact ⟨code, _, Prod.ext hcode rfl⟩
    exact ⟨k, congrArg Prod.fst (hbuild.symm.trans hk)⟩
  · rintro e rfl
    obtain ⟨x, hx, cause, he, hcause⟩ := build_eq_error (partition_of_room hd hroom) hstarts hroom hfst
    obtain ⟨t, ht, rfl⟩ := List.mem_map.mp hx
    exact ⟨t, List.mem_range.mp ht, cause, he, hcause⟩
  · exact build_ne_ok_of_full hfull k (hfst.trans hk)
  · rintro k rfl
    obtain ⟨hdescriptor, hslices, -⟩ := build_eq_ok hbuild
    exact ⟨hdescriptor, length_of_build hbuild, hslices, fun t u hu => unit_of_build hbuild hu⟩

/-- Four instances compiled from the last one on, and four of which the third is not compiled. -/
theorem build_outcome_injected : ∃ d, Descriptor.ofOperator (matrix 4 2) = .ok d ∧
    (∃ k, (build (Backend.recording ⟨none, []⟩) (.sequential 4 true) ⟨0x4000, 0x5000, 0x6000⟩ d 4).1 = .ok k ∧
      ∃ u, k.units[3]? = some u ∧ u.slice.thread = 3) ∧
    (build (Backend.recording ⟨some 2, []⟩) (.sequential 4 true) ⟨0x4000, 0x5000, 0x6000⟩ d 4).1 =
      .error (.error (.compilation 2 (.injected "layernorm_ba_t2"))) := by
  obtain ⟨d, hd, hsplit⟩ : ∃ d, Descriptor.ofOperator (matrix 4 2) = .ok d ∧ d.split = ⟨1, 4, 2⟩ := ⟨_, rfl, rfl⟩
  have hn : effectiveThreads 4 d.split.groupCount = 4 := by
    rw [hsplit]
    decide
  have hthread : ∀ t < 4, instanceThread (instanceName t) = t := by decide
  refine ⟨d, hd, ?_, ?_⟩
  · obtain ⟨-, -, hbuilt, -, hunits⟩ :=
      build_outcome hd (Backend.recording ⟨none, []⟩) (.sequential 4 true) ⟨0x4000, 0x5000, 0x6000⟩ 4
    rw [hn] at hbuilt hunits
    obtain ⟨k, hk⟩ := (hbuilt (fun _ => rfl) (by decide)).1.mpr fun t _ => ⟨_, rfl⟩
    obtain ⟨-, hlength, -, hunit⟩ := hunits k hk
    have hlast : k.units[3]? = some k.units[3] := List.getElem?_eq_getElem (by omega)
    exact ⟨k, hk, _, hlast, (hunit 3 _ hlast).1⟩
  · obtain ⟨-, -, hbuilt, -⟩ :=
      build_outcome hd (Backend.recording ⟨some 2, []⟩) (.sequential 4 true) ⟨0x4000, 0x5000, 0x6000⟩ 4
    rw [hn] at hbuilt
    obtain ⟨hok, herror⟩ := hbuilt (fun _ => rfl) (by decide)
    cases hbuild : (build (Backend.recording ⟨some 2, []⟩) (.sequential 4 true) ⟨0x4000, 0x5000, 0x6000⟩ d 4).1 with
    | ok k =>
      obtain ⟨code, hcode⟩ := hok.mp ⟨k, hbuild⟩ 2 (by decide)
      cases hcode
    | error e =>
      obtain ⟨t, ht, cause, rfl, hcause⟩ := herror e hbuild
      have hinjected : (some 2 : Option Nat) = some (instanceThread (instanceName t)) := by
        by_contra hne
        rw [Backend.recording] at hcause
        dsimp only at hcause
        rw [if_neg hne] at hcause
        cases hcause
      rw [hthread t ht] at hinjected
      cases hinjected
      cases hcause
      rfl

/-- The instances of a hundred thousand threads all compile, and yet there is no kernel if the host has no pool
of so many. -/
theorem no_kernel_although_compiled : ∃ d, Descriptor.ofOperator (matrix 100000 1) = .ok d ∧
    (∀ t < effectiveThreads 100000 d.split.groupCount,
      ∃ code, ((Backend.recording ⟨none, []⟩).compile (d.parameters ⟨0x4000, 0x5000, 0x6000⟩)
        (instanceName t)).1 = .ok code) ∧
    (build (Backend.recording ⟨none, []⟩) (.sequential 0x8000 false) ⟨0x4000, 0x5000, 0x6000⟩ d 100000).1 =
      .error (.error (.threadPool "Resource temporarily unavailable (os error 11)")) := by
  obtain ⟨d, hd, hsplit⟩ : ∃ d, Descriptor.ofOperator (matrix 100000 1) = .ok d ∧
      d.split = ⟨1, 100000, 1⟩ := ⟨_, rfl, rfl⟩
  have hthreads : effectiveThreads 100000 d.split.groupCount = 100000 := by
    rw [hsplit]
    decide
  refine ⟨d, hd, fun t _ => ⟨_, rfl⟩, build_eq_threadPool hd ?_ ?_ ?_⟩
  all_goals
    rw [hthreads]
    decide

end AxisNorm.Kernel
