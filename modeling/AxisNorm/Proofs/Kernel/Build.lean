import AxisNorm.Kernel
import AxisNorm.Proofs.Normalization.Accepted
import AxisNorm.Proofs.Partition

/-!
# The units of a kernel

* `Kernel.compileUnits_eq_ok`, `Kernel.compileUnits_eq_error`: what compiling all instances comes to.
* `Kernel.build_eq_ok`: **a kernel that was built has one unit for each slice of its batch, and each
  runs what its backend compiled.**
* `Kernel.build_ok`, `Kernel.build_eq_error`: when a kernel is built, and why it is not.
* `Backend.native_compile`, `Backend.native_compile_ok`: what the native backend compiles.
-/

namespace AxisNorm

/-- A pool of that many threads is started, if it takes one. -/
def Workers.Starts (workers : Workers) (threads : Nat) : Prop := 1 < threads → workers.start threads = .ok ()

theorem Workers.starts_one (workers : Workers) : workers.Starts 1 := fun h => absurd h (Nat.lt_irrefl 1)

namespace Kernel

variable {σ : Type} {backend : Backend σ} {workers : Workers} {p : Parameters} {home : ConstantAddresses}
  {d : Descriptor} {requested threads : Nat} {slice : Slice} {slices : List Slice} {units : List (WorkUnit σ)}
  {events : List Event}

theorem compileUnit_eq_ok {u : WorkUnit σ} (h : (compileUnit backend p slice).1 = .ok u) :
    u.slice = slice ∧ ∃ events, backend.compile p (instanceName slice.thread) = (.ok u.code, events) := by
  unfold compileUnit at h
  dsimp only at h
  split at h
  · cases h
  · next code events hcode =>
    cases h
    exact ⟨rfl, events, hcode⟩

theorem compileUnit_eq_error {e : BuildError} (h : (compileUnit backend p slice).1 = .error e) :
    ∃ cause, e = .compilation slice.thread cause ∧
      (backend.compile p (instanceName slice.thread)).1 = .error cause := by
  unfold compileUnit at h
  dsimp only at h
  split at h
  · next cause events hcode =>
    cases h
    exact ⟨cause, rfl, congrArg Prod.fst hcode⟩
  · cases h

theorem units_of_compiled (h : slices.map (fun x => (compileUnit backend p x).1) = units.map .ok) :
    units.map (·.slice) = slices ∧
      ∀ u ∈ units, ∃ events, backend.compile p (instanceName u.slice.thread) = (.ok u.code, events) := by
  induction slices generalizing units with
  | nil =>
    obtain rfl := List.map_eq_nil_iff.mp h.symm
    exact ⟨rfl, nofun⟩
  | cons slice slices ih =>
    cases units with
    | nil => cases h
    | cons u units =>
      obtain ⟨hunit, hunits⟩ := List.cons.inj h
      obtain ⟨rfl, hcode⟩ := compileUnit_eq_ok hunit
      obtain ⟨hslices, hcodes⟩ := ih hunits
      exact ⟨by rw [List.map_cons, hslices], List.forall_mem_cons.mpr ⟨hcode, hcodes⟩⟩

theorem compileUnits_of_refused {reason : String} (hthreads : 1 < threads)
    (h : workers.start threads = .error reason) :
    compileUnits backend workers p threads slices = (.error (.error (.threadPool reason)), []) := by
  rw [compileUnits, if_pos hthreads, h]

theorem compileUnits_eq_ok (h : (compileUnits backend workers p threads slices).1 = .ok units) :
    slices.map (fun x => (compileUnit backend p x).1) = units.map .ok ∧ workers.Starts threads ∧
      (1 < threads → slices.length * WorkUnit.bytes < 2 ^ 63) := by
  unfold compileUnits at h
  split at h
  · split at h
    · cases h
    · next hstart =>
      obtain ⟨hresults, hroom⟩ := workers.collect_ok h
      exact ⟨hresults, fun _ => hstart, fun _ => Checked.reserve_eq_ok_iff.mp hroom⟩
  · next hone =>
    exact ⟨(collectInOrder_eq_ok (mapError_eq_ok_iff.mp h)).1, fun hseveral => absurd hseveral hone,
      fun hseveral => absurd hseveral hone⟩

/-- Instances are not compiled for want of a pool, or of room for the units, or because one of them fails. -/
theorem compileUnits_eq_error {e : Failure BuildError}
    (h : (compileUnits backend workers p threads slices).1 = .error e) :
    (¬ workers.Starts threads) ∨
      (2 ^ 63 ≤ slices.length * WorkUnit.bytes ∧ e = .arithmetic .capacityOverflow) ∨
      ∃ x ∈ slices, ∃ cause, e = .error (.compilation x.thread cause) ∧
        (backend.compile p (instanceName x.thread)).1 = .error cause := by
  have hcompiled {cause : BuildError} (hcause : ∃ x ∈ slices, (compileUnit backend p x).1 = .error cause) :
      ∃ x ∈ slices, ∃ cause', Failure.error cause = .error (.compilation x.thread cause') ∧
        (backend.compile p (instanceName x.thread)).1 = .error cause' := by
    obtain ⟨x, hx, hcause⟩ := hcause
    obtain ⟨cause', rfl, hcode⟩ := compileUnit_eq_error hcause
    exact ⟨x, hx, cause', rfl, hcode⟩
  unfold compileUnits at h
  split at h
  · next hseveral =>
    split at h
    · next reason hstart =>
      refine .inl fun hstarts => ?_
      rw [hstarts hseveral] at hstart
      cases hstart
    · cases e with
      | error cause => exact .inr (.inr (hcompiled (workers.collect_error h)))
      | arithmetic cause =>
        obtain ⟨rfl, hfull⟩ := Checked.reserve_eq_error_iff.mp (workers.collect_stops h)
        exact .inr (.inl ⟨hfull, rfl⟩)
  · obtain ⟨cause, hcollected, rfl⟩ := mapError_eq_error_iff.mp h
    exact .inr (.inr (hcompiled (collectInOrder_eq_error hcollected)))

/-! ## Kernels -/

theorem length_slices
    (hslices : partition d.split.groupCount (effectiveThreads requested d.split.groupCount) = .ok slices) :
    slices.length = effectiveThreads requested d.split.groupCount := by
  rw [← List.length_map (·.thread), partition_threads hslices, max_effectiveThreads, List.length_range]

theorem build_fst
    (hslices : partition d.split.groupCount (effectiveThreads requested d.split.groupCount) = .ok slices) :
    (build backend workers home d requested).1 = (compileUnits backend workers (d.parameters home)
      (effectiveThreads requested d.split.groupCount) slices).1.map (⟨d, ·⟩) := by
  rw [build, hslices]

theorem exists_slices_of_build {k : Kernel σ} (h : build backend workers home d requested = (.ok k, events)) :
    k.descriptor = d ∧
      ∃ slices, partition d.split.groupCount (effectiveThreads requested d.split.groupCount) = .ok slices ∧
        (compileUnits backend workers (d.parameters home)
          (effectiveThreads requested d.split.groupCount) slices).1 = .ok k.units := by
  cases hslices : partition d.split.groupCount (effectiveThreads requested d.split.groupCount) with
  | error e =>
    rw [build, hslices] at h
    cases h
  | ok slices =>
    have hfst := congrArg Prod.fst h
    rw [build_fst hslices] at hfst
    obtain ⟨units, hunits, rfl⟩ := map_eq_ok_iff.mp hfst
    exact ⟨rfl, slices, rfl, hunits⟩

/-- **A kernel that was built has one unit for each slice of its batch, and each runs what its backend
compiled.** -/
theorem build_eq_ok {k : Kernel σ} (h : build backend workers home d requested = (.ok k, events)) :
    k.descriptor = d ∧
      partition d.split.groupCount (effectiveThreads requested d.split.groupCount) = .ok k.slices ∧
      ∀ u ∈ k.units, ∃ events',
        backend.compile (d.parameters home) (instanceName u.slice.thread) = (.ok u.code, events') := by
  obtain ⟨hd, slices, hslices, hunits⟩ := exists_slices_of_build h
  obtain ⟨hslices', hcodes⟩ := units_of_compiled (compileUnits_eq_ok hunits).1
  exact ⟨hd, by rw [Kernel.slices, hslices', hslices], hcodes⟩

theorem threads_of_build {k : Kernel σ} (h : build backend workers home d requested = (.ok k, events)) :
    k.units.map (·.slice.thread) = List.range (effectiveThreads requested d.split.groupCount) := by
  have hthreads := partition_threads (build_eq_ok h).2.1
  rwa [max_effectiveThreads, Kernel.slices, List.map_map] at hthreads

theorem length_of_build {k : Kernel σ} (h : build backend workers home d requested = (.ok k, events)) :
    k.units.length = effectiveThreads requested d.split.groupCount := by
  rw [← List.length_map (·.slice.thread), threads_of_build h, List.length_range]

theorem units_ne_nil {k : Kernel σ} (h : build backend workers home d requested = (.ok k, events)) : k.units ≠ [] := by
  have hpos := effectiveThreads_pos requested d.split.groupCount
  rw [← length_of_build h] at hpos
  exact List.ne_nil_of_length_pos hpos

theorem starts_of_build {k : Kernel σ} (h : build backend workers home d requested = (.ok k, events)) :
    workers.Starts (effectiveThreads requested d.split.groupCount) ∧
      effectiveThreads requested d.split.groupCount * WorkUnit.bytes < 2 ^ 63 := by
  obtain ⟨-, slices, hslices, hunits⟩ := exists_slices_of_build h
  obtain ⟨-, hstarts, hroom⟩ := compileUnits_eq_ok hunits
  rw [length_slices hslices] at hroom
  refine ⟨hstarts, ?_⟩
  by_cases hseveral : 1 < effectiveThreads requested d.split.groupCount
  · exact hroom hseveral
  · unfold WorkUnit.bytes
    omega

theorem build_of_refused {reason : String}
    (hslices : partition d.split.groupCount (effectiveThreads requested d.split.groupCount) = .ok slices)
    (hseveral : 1 < effectiveThreads requested d.split.groupCount)
    (h : workers.start (effectiveThreads requested d.split.groupCount) = .error reason) :
    (build backend workers home d requested).1 = .error (.error (.threadPool reason)) := by
  rw [build_fst hslices, compileUnits_of_refused hseveral h]
  rfl

section

variable (hslices : partition d.split.groupCount (effectiveThreads requested d.split.groupCount) = .ok slices)
  (hstarts : workers.Starts (effectiveThreads requested d.split.groupCount))
  (hroom : effectiveThreads requested d.split.groupCount * WorkUnit.bytes < 2 ^ 63)

include hslices hstarts hroom

theorem build_eq_error {e : Failure BuildError} (h : (build backend workers home d requested).1 = .error e) :
    ∃ x ∈ slices, ∃ cause, e = .error (.compilation x.thread cause) ∧
      (backend.compile (d.parameters home) (instanceName x.thread)).1 = .error cause := by
  rw [build_fst hslices] at h
  rcases compileUnits_eq_error (map_eq_error_iff.mp h) with hrefused | ⟨hfull, -⟩ | hcompiled
  · exact absurd hstarts hrefused
  · rw [length_slices hslices] at hfull
    exact absurd hroom (Nat.not_lt.mpr hfull)
  · exact hcompiled

theorem build_ok (h : ∀ x ∈ slices, ∃ code events,
      backend.compile (d.parameters home) (instanceName x.thread) = (.ok code, events)) :
    ∃ k events, build backend workers home d requested = (.ok k, events) := by
  cases hbuild : build backend workers home d requested with
  | mk result events =>
  cases result with
  | ok k => exact ⟨k, events, rfl⟩
  | error e =>
    obtain ⟨x, hx, cause, -, hcause⟩ := build_eq_error hslices hstarts hroom (congrArg Prod.fst hbuild)
    obtain ⟨code, events', hcode⟩ := h x hx
    rw [hcode] at hcause
    cases hcause

end

end Kernel

theorem Backend.native_compile {level : OptLevel} {p : Parameters} {name : String}
    {code : Instance Memory} {events : List Event}
    (h : (Backend.native level).compile p name = (.ok code, events)) :
    ∃ routine, p.routine? name "system_v" .i64 = .ok routine ∧ code = .ofRoutine p routine name := by
  unfold Backend.native at h
  dsimp only at h
  split at h
  · cases h
  · next routine hroutine =>
    cases h
    exact ⟨routine, hroutine, rfl⟩

theorem Backend.native_compile_ok {p : Parameters} (hp : p.Accepted) (level : OptLevel) (name : String) :
    ∃ code events, (Backend.native level).compile p name = (.ok code, events) := by
  obtain ⟨routine, hroutine⟩ : ∃ routine, p.routine? name "system_v" .i64 = .ok routine :=
    Parameters.accepted_iff.mp hp
  unfold Backend.native
  simp only [hroutine]
  exact ⟨_, _, rfl⟩

end AxisNorm
