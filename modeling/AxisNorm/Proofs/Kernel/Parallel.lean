import AxisNorm.Proofs.Kernel.Build
import AxisNorm.Proofs.Kernel.Execute
import AxisNorm.Proofs.Kernel.Instance

/-!
# Parallel and serial execution

Each unit owns the elements of its groups, and relies on nobody else to change them.

* `Kernel.runUnits_ensures`: what units that leave each other alone ensure together.
* `Kernel.runUnits_fail`: with a null pointer no unit gets on.
* `Kernel.stores_of_placed`, `Kernel.nonnull_of_succeeded`: what an execution does, and when it succeeds.
* `Kernel.execute_eq_serial`: **an execution that succeeds leaves the memory that one instance leaves
  which processes the whole batch, whatever the number of threads and the schedule.**
-/

namespace AxisNorm.Kernel

open Code Memory Normalization

/-! ## Units that leave each other alone -/

section

variable {k : Kernel Memory} {data : RuntimeData} {m : Memory} (own others : WorkUnit Memory → Set UInt64)
  (post : WorkUnit Memory → Except Fault Unit → Memory → Prop) {whole : Set UInt64}

/-- The contract of a place in the list of units. -/
def placeContract (units : List (WorkUnit Memory)) (j : Nat) : Contract Memory :=
  match units[j]? with
  | some u => contract (own u) (others u)
  | none => contract ∅ Set.univ

theorem placeContract_compatible {units : List (WorkUnit Memory)}
    (hcompatible : units.Pairwise fun u v => own u ⊆ others v ∧ own v ⊆ others u) {i j : Nat}
    (hij : i ≠ j) {s s' : Memory} (h : (placeContract own others units i).guarantee s s') :
    (placeContract own others units j).rely s s' := by
  have hpair := List.pairwise_iff_getElem.mp hcompatible
  unfold placeContract at h ⊢
  cases hj : units[j]? with
  | none =>
    cases hi : units[i]? with
    | none => rw [hi] at h; exact ChangedIn.mono h (Set.subset_univ _)
    | some u => rw [hi] at h; exact ChangedIn.mono h (Set.subset_univ _)
  | some v =>
    cases hi : units[i]? with
    | none => rw [hi] at h; exact ChangedIn.mono h (Set.empty_subset _)
    | some u =>
      rw [hi] at h
      obtain ⟨hi', rfl⟩ := List.getElem?_eq_some_iff.mp hi
      obtain ⟨hj', rfl⟩ := List.getElem?_eq_some_iff.mp hj
      rcases Nat.lt_or_gt_of_ne hij with hlt | hlt
      · exact ChangedIn.mono h (hpair i j hi' hj' hlt).1
      · exact ChangedIn.mono h (hpair j i hj' hi' hlt).2

theorem runUnits_ensures
    (hcompatible : k.units.Pairwise fun u v => own u ⊆ others v ∧ own v ⊆ others u)
    (hwhole : ∀ u ∈ k.units, own u ⊆ whole)
    (h : ∀ u ∈ k.units, (u.code.invoke data u.slice.start u.slice.length).Ensures
      (contract (own u) (others u)) (post u) m) (schedule : List Nat) :
    (∀ u ∈ k.units, ∃ r, (u, r) ∈ (k.runUnits data schedule m).1) ∧
      (∀ x ∈ (k.runUnits data schedule m).1,
        x.1 ∈ k.units ∧ post x.1 x.2 (k.runUnits data schedule m).2) ∧
      ChangedIn whole m (k.runUnits data schedule m).2 := by
  have htask : ∀ j t, (k.units.map (invokeUnit data))[j]? = some t →
      Task.Ensures (placeContract own others k.units j)
        (fun (x : WorkUnit Memory × Except Fault Unit) m' =>
          k.units[j]? = some x.1 ∧ post x.1 x.2 m') t m := by
    intro j t ht
    rw [List.getElem?_map, Option.map_eq_some_iff] at ht
    obtain ⟨u, hu, rfl⟩ := ht
    unfold placeContract
    rw [hu]
    exact Task.Ensures.map ((h u (List.mem_of_getElem? hu)).weaken fun r m' hpost => ⟨rfl, hpost⟩)
  obtain ⟨results, hlength, hperm, hpost, hrely⟩ := Pool.run_ensures
    (fun i j hij s s' hg => placeContract_compatible own others hcompatible hij hg) htask schedule
  rw [List.length_map] at hlength
  refine ⟨fun u hu => ?_, fun x hx => ?_, hrely (contract ∅ whole) fun j hj s s' hg => ?_⟩
  · obtain ⟨j, hj, rfl⟩ := List.getElem_of_mem hu
    have hresult := List.getElem?_eq_getElem (show j < results.length by omega)
    obtain ⟨hunit, -⟩ := hpost j _ hresult
    rw [List.getElem?_eq_getElem hj] at hunit
    refine ⟨results[j].2, hperm.mem_iff.mpr ?_⟩
    rw [Option.some.inj hunit]
    exact List.getElem_mem _
  · obtain ⟨j, hj, rfl⟩ := List.getElem_of_mem (hperm.mem_iff.mp hx)
    obtain ⟨hunit, hpost⟩ := hpost j _ (List.getElem?_eq_getElem hj)
    exact ⟨List.mem_of_getElem? hunit, hpost⟩
  · rw [List.length_map] at hj
    unfold placeContract at hg
    rw [List.getElem?_eq_getElem hj] at hg
    exact ChangedIn.mono hg (hwhole _ (List.getElem_mem hj))

end

/-! ## Kernels of the native backend -/

section

variable {level : OptLevel} {home : ConstantAddresses} {d : Descriptor} {requested : Nat}
  {workers : Workers} {k : Kernel Memory} {events : List Event} {data : RuntimeData} {i : Inputs}
  {m : Memory}

theorem units_of_build (hk : build (Backend.native level) workers home d requested = (.ok k, events))
    (hp : (d.parameters home).Accepted) :
    k.descriptor = d ∧ Tiles d.split.batch (k.units.map (·.slice)) ∧ ∀ u ∈ k.units, ∃ name code,
      (d.parameters home).routine? name "system_v" .i64 = .ok code ∧
        u.code = .ofRoutine (d.parameters home) code name := by
  obtain ⟨hd, hslices, hcodes⟩ := build_eq_ok hk
  refine ⟨hd, tiles_partition hp.fits.batch_lt hslices, fun u hu => ?_⟩
  obtain ⟨events', hcompile⟩ := hcodes u hu
  obtain ⟨code, hcode, hunit⟩ := Backend.native_compile hcompile
  exact ⟨_, code, hcode, hunit⟩

variable (hk : build (Backend.native level) workers home d requested = (.ok k, events))
  (hp : (d.parameters home).Accepted)

include hk hp

theorem runUnits_fail (hslots : Role.count d.affine ≤ data.pointers.length)
    (hpointers : PointersAt (d.parameters home) data.pointer data.address m)
    (hnull : ∃ role ∈ Role.used d.affine, data.pointer role = 0) (schedule : List Nat) :
    (∀ x ∈ (k.runUnits data schedule m).1, x.2 = .error (.status x.1.code.name .nullPointer)) ∧
      (k.runUnits data schedule m).2 = m := by
  obtain ⟨-, htiles, hcodes⟩ := units_of_build hk hp
  obtain ⟨-, hresults, hchanged⟩ := runUnits_ensures (fun _ => ∅) (fun _ => ∅)
    (fun u r _ => r = .error (.status u.code.name .nullPointer))
    (List.pairwise_of_forall fun _ _ => ⟨Set.Subset.refl _, Set.Subset.refl _⟩)
    (fun _ _ => Set.Subset.refl ∅) (fun u hu => by
      obtain ⟨name, code, hcode, hunit⟩ := hcodes u hu
      rw [hunit]
      exact invoke_fails hcode (htiles.within _ (List.mem_map_of_mem hu)) hslots hpointers hnull) schedule
  exact ⟨fun x hx => (hresults x hx).2, hchanged.eq_of_empty⟩

/-- With pointers that are not null an execution succeeds, under every schedule, and stores all
results. -/
theorem stores_of_placed (hm : Placed (d.parameters home) data i m)
    (hslots : Role.count d.affine ≤ data.pointers.length)
    (hnonnull : ∀ role ∈ Role.used d.affine, data.pointer role ≠ 0) (schedule : List Nat) :
    (k.execute data schedule m).succeeded = true ∧
      Stored (d.parameters home) data.pointer i 0 d.split.batch (k.execute data schedule m).state ∧
      ChangedIn (region (d.parameters home) data.pointer (InSlice d.split 0 d.split.batch)) m
        (k.execute data schedule m).state := by
  obtain ⟨hd, htiles, hcodes⟩ := units_of_build hk hp
  obtain ⟨hwithin, hdisjoint, hcover⟩ := htiles
  rw [List.pairwise_map] at hdisjoint
  have hslots' : Role.count k.descriptor.affine ≤ data.pointers.length := hd ▸ hslots
  let own (u : WorkUnit Memory) := region (d.parameters home) data.pointer
    (InSlice d.split u.slice.start (u.slice.start + u.slice.length))
  let others (u : WorkUnit Memory) := region (d.parameters home) data.pointer
    (OutsideSlice d.split u.slice.start (u.slice.start + u.slice.length))
  have hslice (u : WorkUnit Memory) (hu : u ∈ k.units) :
      u.slice.start + u.slice.length ≤ d.split.batch := hwithin _ (List.mem_map_of_mem hu)
  -- Slices have no group in common, so that the elements of one are outside all others.
  have hown (u v : WorkUnit Memory) (hu : u ∈ k.units)
      (huv : ∀ b, ¬ (u.slice.Covers b ∧ v.slice.Covers b)) : own u ⊆ others v :=
    region_mono fun b k' hin => ⟨Nat.lt_of_lt_of_le hin.2.1 (hslice u hu),
      fun hv => huv b ⟨⟨hin.1, hin.2.1⟩, hv⟩, hin.2.2⟩
  have hcompatible : k.units.Pairwise fun u v => own u ⊆ others v ∧ own v ⊆ others u :=
    List.Pairwise.imp_of_mem (fun hu hv huv =>
      ⟨hown _ _ hu huv, hown _ _ hv fun b hb => huv b hb.symm⟩) hdisjoint
  have hwhole (u : WorkUnit Memory) (hu : u ∈ k.units) : own u ⊆
      region (d.parameters home) data.pointer (InSlice d.split 0 d.split.batch) :=
    region_mono fun b k' hin =>
      ⟨Nat.zero_le b, Nat.lt_of_lt_of_le hin.2.1 (hslice u hu), hin.2.2⟩
  obtain ⟨hall, hresults, hchanged⟩ := runUnits_ensures own others
    (fun u r m' => r = .ok () ∧ Stored (d.parameters home) data.pointer i u.slice.start
      (u.slice.start + u.slice.length) m') hcompatible hwhole (fun u hu => by
      obtain ⟨name, code, hcode, hunit⟩ := hcodes u hu
      rw [hunit]
      exact invoke_of_placed hcode (hslice u hu) hslots hm (Set.Subset.refl _) hnonnull) schedule
  rw [succeeded_iff, state_eq hslots']
  refine ⟨⟨hslots', fun x hx => (hresults x hx).2.1⟩, fun b k' hin => ?_, hchanged⟩
  obtain ⟨_, hx, hcovers⟩ := hcover b hin.2.1
  obtain ⟨u, hu, rfl⟩ := List.mem_map.mp hx
  obtain ⟨r, hr⟩ := hall u hu
  exact (hresults _ hr).2.2 b k' ⟨hcovers.1, hcovers.2, hin.2.2⟩

variable (hm : Prepared (d.parameters home) data i m)

include hm

theorem execute_stores (hslots : Role.count d.affine ≤ data.pointers.length)
    (hnonnull : ∀ role ∈ Role.used d.affine, data.pointer role ≠ 0) (schedule : List Nat) :
    (k.execute data schedule m).succeeded = true ∧
      Stored (d.parameters home) data.pointer i 0 d.split.batch (k.execute data schedule m).state ∧
      ChangedIn (region (d.parameters home) data.pointer (InSlice d.split 0 d.split.batch)) m
        (k.execute data schedule m).state :=
  stores_of_placed hk hp hm.toPlaced hslots hnonnull schedule

theorem nonnull_of_succeeded {schedule : List Nat} (h : (k.execute data schedule m).succeeded = true) :
    Role.count d.affine ≤ data.pointers.length ∧
      ∀ role ∈ Role.used d.affine, data.pointer role ≠ 0 := by
  obtain ⟨hd, -, -⟩ := units_of_build hk hp
  obtain ⟨hslots, hok⟩ := succeeded_iff.mp h
  rw [hd] at hslots
  refine ⟨hslots, fun role hrole hzero => ?_⟩
  -- There is a unit at least, and no unit gets on with a null pointer.
  obtain ⟨u, hu⟩ := List.exists_mem_of_ne_nil _ (units_ne_nil hk)
  obtain ⟨hresults, -⟩ := runUnits_fail hk hp hslots (hm.pointers.pointersAt hslots) ⟨role, hrole, hzero⟩ schedule
  obtain ⟨x, hx, -⟩ := List.mem_map.mp (runUnits_perm.mem_iff.mpr hu)
  have hfault := hresults x hx
  rw [hok x hx] at hfault
  cases hfault

end

/-- **An execution that succeeds leaves the memory that one instance leaves which processes the whole
batch.** Kernels for any other number of threads leave it as well, and so does a second execution. -/
theorem execute_eq_serial {level : OptLevel} {home : ConstantAddresses} {d : Descriptor}
    {requested : Nat} {workers : Workers} {k : Kernel Memory} {events : List Event}
    (hk : build (Backend.native level) workers home d requested = (.ok k, events)) {name : String}
    {code : Routine Label Value}
    (hcode : (d.parameters home).routine? name "system_v" .i64 = .ok code) {data : RuntimeData}
    {i : Inputs} {m : Memory} (hm : Prepared (d.parameters home) data i m) {schedule : List Nat}
    (hok : (k.execute data schedule m).succeeded = true) :
    ((Instance.ofRoutine (d.parameters home) code name).invoke data 0 d.split.batch).run m =
        (.ok (), (k.execute data schedule m).state) ∧
      (∀ level' workers' requested' k' events',
        build (Backend.native level') workers' home d requested' = (.ok k', events') → ∀ schedule',
          (k'.execute data schedule' m).succeeded = true ∧
            (k'.execute data schedule' m).state = (k.execute data schedule m).state) ∧
      ∀ schedule',
        (k.execute data schedule' (k.execute data schedule m).state).succeeded = true ∧
          (k.execute data schedule' (k.execute data schedule m).state).state =
            (k.execute data schedule m).state := by
  have hp := (Parameters.routine?_eq_ok_iff.mp hcode).1
  obtain ⟨hslots, hnonnull⟩ := nonnull_of_succeeded hk hp hm hok
  obtain ⟨-, hstored, hchanged⟩ := execute_stores hk hp hm hslots hnonnull schedule
  generalize (k.execute data schedule m).state = m' at hstored hchanged ⊢
  refine ⟨?_, fun level' workers' requested' k' events' hk' schedule' => ?_, fun schedule' => ?_⟩
  · have hserial : ((Instance.ofRoutine (d.parameters home) code name).invoke data 0 d.split.batch).Ensures
        (contract (region (d.parameters home) data.pointer (InSlice d.split 0 (0 + d.split.batch))) ∅)
        (fun r m' => r = .ok () ∧
          Stored (d.parameters home) data.pointer i 0 (0 + d.split.batch) m') m :=
      invoke_ensures hcode (Nat.le_of_eq (Nat.zero_add _)) hslots hm (Set.empty_subset _) hnonnull
    rw [Nat.zero_add] at hserial
    obtain ⟨hpost, hchanged'⟩ := hserial.run
    obtain ⟨hresult, hstored'⟩ := hpost _ (ChangedIn.refl ∅ _)
    exact Prod.ext hresult (eq_of_stored hchanged' hstored' hchanged hstored)
  · obtain ⟨hok', hstored', hchanged'⟩ := execute_stores hk' hp hm hslots hnonnull schedule'
    exact ⟨hok', eq_of_stored hchanged' hstored' hchanged hstored⟩
  · obtain ⟨hok', hstored', hchanged'⟩ :=
      execute_stores hk hp (hm.of_changed hchanged) hslots hnonnull schedule'
    exact ⟨hok', eq_of_stored (hchanged.trans hchanged') hstored' hchanged hstored⟩

/-- The description of a small case. -/
def pairOperator : Operator where
  kind := .layernormBa
  propagation := .forwardInference
  engine := .cpu
  tensors := [⟨[2, 2, 2], .float32⟩, ⟨[2, 2, 2], .float32⟩]
  batchAxis := 1
  attributes := ∅

def pairData : RuntimeData := ⟨0x1000, [0x2000, 0x3000]⟩

theorem prepared_pair : Prepared pair pairData pairInputs (ofCells pairCells) := by
  have hpointer : pairData.pointer = pairPointer := funext fun role => by cases role <;> rfl
  have hnames : ∀ role ∈ Role.used false, pairData.pointers[role.index]? = some (pairPointer role) := by
    decide
  refine ⟨⟨⟨fun role hrole x hx => ?_, hpointer ▸ holds_pair, fun role hrole e he => ?_⟩, hpointer ▸ apart_pair⟩,
    fun e he => hpointer ▸ source_apart_pair he he⟩
  · obtain rfl : pairPointer role = x := Option.some.inj ((hnames role hrole).symm.trans hx)
    exact pointersAt_pair role hrole
  · rw [hpointer]
    exact disjoint_pair (.inl ((by decide : ∀ role ∈ Role.used false,
      ((0x1000 : UInt64) + UInt64.ofNat (8 * role.index)).toNat + 8 ≤ 0x3000) role hrole)) he

theorem build_pair : ∃ d k events, Descriptor.ofOperator pairOperator = .ok d ∧
    d.parameters pair.constants = pair ∧
      build (Backend.native .speed) (.sequential 2 true) pair.constants d 2 = (.ok k, events) := by
  obtain ⟨d, hd, hp⟩ : ∃ d, Descriptor.ofOperator pairOperator = .ok d ∧
      d.parameters pair.constants = pair := ⟨_, rfl, rfl⟩
  have hsplit : d.split = pair.split := congrArg Parameters.split hp
  have haccepted : (d.parameters pair.constants).Accepted := hp ▸ pair_accepted
  obtain ⟨slices, hslices⟩ : ∃ slices,
      partition d.split.groupCount (effectiveThreads 2 d.split.groupCount) = .ok slices := by
    rw [hsplit]
    exact ⟨_, rfl⟩
  have hstarts : (Workers.sequential 2 true).Starts (effectiveThreads 2 d.split.groupCount) := by
    rw [hsplit]
    exact fun _ => rfl
  obtain ⟨k, events, hk⟩ := build_ok hslices hstarts (by rw [hsplit]; decide) fun x _ =>
    Backend.native_compile_ok haccepted .speed (instanceName x.thread)
  exact ⟨d, k, events, hd, hp, hk⟩

/-- Two threads, the second of which is compiled first, interleaved. -/
theorem execute_eq_serial_pair : ∃ d k events code,
    Descriptor.ofOperator pairOperator = .ok d ∧
      build (Backend.native .speed) (.sequential 2 true) pair.constants d 2 = (.ok k, events) ∧
      pair.routine? "pair" "system_v" .i64 = .ok code ∧
      (k.execute pairData [1, 0, 0, 1, 1] (ofCells pairCells)).succeeded = true ∧
      ((Instance.ofRoutine pair code "pair").invoke pairData 0 2).run (ofCells pairCells) =
        (.ok (), (k.execute pairData [1, 0, 0, 1, 1] (ofCells pairCells)).state) := by
  obtain ⟨d, k, events, hd, hp, hk⟩ := build_pair
  have hsplit : d.split = pair.split := congrArg Parameters.split hp
  have haffine : d.affine = false := congrArg Parameters.affine hp
  have haccepted : (d.parameters pair.constants).Accepted := hp ▸ pair_accepted
  obtain ⟨code, hcode⟩ : ∃ code, pair.routine? "pair" "system_v" .i64 = .ok code :=
    Parameters.accepted_iff.mp pair_accepted
  have hprepared : Prepared (d.parameters pair.constants) pairData pairInputs (ofCells pairCells) :=
    hp ▸ prepared_pair
  have hok := (execute_stores hk haccepted hprepared (by rw [haffine]; decide)
    (by rw [haffine]; decide) [1, 0, 0, 1, 1]).1
  have hserial := (execute_eq_serial hk (by rw [hp]; exact hcode) hprepared hok).1
  rw [hp, hsplit] at hserial
  exact ⟨d, k, events, code, hd, hk, hcode, hok, hserial⟩

end AxisNorm.Kernel
