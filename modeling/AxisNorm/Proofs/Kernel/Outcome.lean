import AxisNorm.Proofs.Kernel.Parallel

/-!
# How an execution ends

* `Provided`: what the caller of an execution answers for.
* `Kernel.runUnits_answer`, `Kernel.runUnits_fail`: the results of the units, by the pointers.
* `Kernel.runUnits_ignore`: units do not see what lies outside their `footprint`.
* `Kernel.execute_allOrNothing`: **an execution ends by the number of pointers and by whether one of those
  in use is null: all units succeed, or all fail and nothing is stored.**
-/

namespace AxisNorm

open Code Memory Normalization

/-- What the caller answers for: the pointers lie in memory, and if none of those in use is null, the
buffers are mapped and the destination does not meet the pointers. -/
structure Provided (p : Parameters) (data : RuntimeData) (m : Memory) : Prop where
  pointers : data.LiesIn p.affine m
  mapped : (∀ role ∈ Role.used p.affine, data.pointer role ≠ 0) →
    BuffersMapped p data.pointer 0 p.split.batch m
  apart : (∀ role ∈ Role.used p.affine, data.pointer role ≠ 0) →
    Disjoint (slots p data.address) (results p data.pointer)

/-- The bytes that an execution sees: the pointers in use, and if none is null the elements of the
buffers. -/
def footprint (p : Parameters) (data : RuntimeData) : Set UInt64 :=
  slots p data.address ∪
    {c | (∀ role ∈ Role.used p.affine, data.pointer role ≠ 0) ∧
      c ∈ inputs p data.pointer ∪ results p data.pointer}

/-! ## Pointers by role and by place -/

theorem exists_role {affine : Bool} {i : Nat} (h : i < Role.count affine) :
    ∃ role ∈ Role.used affine, role.index = i := by
  cases affine <;> revert i <;> decide

theorem RuntimeData.nonnull_iff {data : RuntimeData} {affine : Bool}
    (hslots : Role.count affine ≤ data.pointers.length) :
    (∀ x ∈ data.pointers.take (Role.count affine), x ≠ 0) ↔
      ∀ role ∈ Role.used affine, data.pointer role ≠ 0 := by
  constructor
  · intro h role hrole
    have hindex := index_lt_count hrole
    have hlt : role.index < data.pointers.length := by omega
    rw [RuntimeData.pointer, List.getElem?_eq_getElem hlt, Option.getD_some]
    exact h _ (List.mem_take_iff_getElem.mpr ⟨role.index, by omega, rfl⟩)
  · intro h x hx
    obtain ⟨i, hi, rfl⟩ := List.mem_take_iff_getElem.mp hx
    obtain ⟨role, hrole, rfl⟩ := exists_role (show i < Role.count affine by omega)
    have hnonnull := h role hrole
    rwa [RuntimeData.pointer, List.getElem?_eq_getElem (by omega), Option.getD_some] at hnonnull

namespace Kernel

section

variable {level : OptLevel} {home : ConstantAddresses} {d : Descriptor} {requested : Nat}
  {workers : Workers} {k : Kernel Memory} {events : List Event} {data : RuntimeData} {m : Memory}
  (hk : build (Backend.native level) workers home d requested = (.ok k, events))

include hk

theorem accepted_of_build : (d.parameters home).Accepted := by
  obtain ⟨u, hu⟩ := List.exists_mem_of_ne_nil _ (units_ne_nil hk)
  obtain ⟨-, -, hcodes⟩ := build_eq_ok hk
  obtain ⟨events', hcompile⟩ := hcodes u hu
  obtain ⟨code, hcode, -⟩ := Backend.native_compile hcompile
  exact Parameters.accepted_iff.mpr ⟨code, hcode⟩

variable (hslots : Role.count d.affine ≤ data.pointers.length)

include hslots

theorem runUnits_congr {data' : RuntimeData} (hslots' : Role.count d.affine ≤ data'.pointers.length)
    (haddress : data'.address = data.address) (schedule : List Nat) :
    k.runUnits data' schedule m = k.runUnits data schedule m := by
  obtain ⟨-, -, hcodes⟩ := units_of_build hk (accepted_of_build hk)
  have hinvoke : ∀ u ∈ k.units, invokeUnit data' u = invokeUnit data u := by
    intro u hu
    obtain ⟨name, code, -, hunit⟩ := hcodes u hu
    unfold invokeUnit
    rw [hunit, invoke_of_slots hslots', invoke_of_slots hslots, haddress]
  unfold runUnits
  rw [List.map_congr_left hinvoke]

variable (hnonnull : ∀ role ∈ Role.used d.affine, data.pointer role ≠ 0)

include hnonnull

theorem runUnits_ignore {m' : Memory} {seen : Set UInt64}
    (hpointers : PointersAt (d.parameters home) data.pointer data.address m)
    (hapart : Disjoint (slots (d.parameters home) data.address) (results (d.parameters home) data.pointer))
    (hseen : footprint (d.parameters home) data ⊆ seen) (hagree : Set.EqOn m.byte? m'.byte? seen)
    (schedule : List Nat) :
    (k.runUnits data schedule m').1 = (k.runUnits data schedule m).1 ∧
      Set.EqOn (k.runUnits data schedule m).2.byte? (k.runUnits data schedule m').2.byte? seen := by
  obtain ⟨-, htiles, hcodes⟩ := units_of_build hk (accepted_of_build hk)
  have hunits : ∀ t ∈ k.units.map (invokeUnit data), t.Ignores fun m m' =>
      PointersAt (d.parameters home) data.pointer data.address m ∧ Set.EqOn m.byte? m'.byte? seen := by
    intro t ht
    obtain ⟨u, hu, rfl⟩ := List.mem_map.mp ht
    obtain ⟨name, code, hcode, hunit⟩ := hcodes u hu
    unfold invokeUnit
    rw [hunit]
    refine (invoke_ignores hcode (htiles.within _ (List.mem_map_of_mem hu)) hslots hapart ?_).map
    rintro c (hc | hc)
    · exact hseen (.inl hc)
    · exact hseen (.inr ⟨hnonnull, hc⟩)
  obtain ⟨hresults, -, hstates⟩ := Pool.run_ignores hunits ⟨hpointers, hagree⟩ schedule
  exact ⟨hresults, hstates⟩

variable (hm : Provided (d.parameters home) data m)

include hm

theorem runUnits_answer (schedule : List Nat) : ∀ x ∈ (k.runUnits data schedule m).1, x.2 = .ok () := by
  obtain ⟨-, htiles, hcodes⟩ := units_of_build hk (accepted_of_build hk)
  obtain ⟨-, hresults, -⟩ := runUnits_ensures (fun _ => results (d.parameters home) data.pointer)
    (fun _ => results (d.parameters home) data.pointer) (fun _ r _ => r = .ok ())
    (List.pairwise_of_forall fun _ _ => ⟨Set.Subset.refl _, Set.Subset.refl _⟩)
    (fun _ _ => Set.Subset.refl _) (fun u hu => by
      obtain ⟨name, code, hcode, hunit⟩ := hcodes u hu
      rw [hunit]
      exact invoke_answers hcode (htiles.within _ (List.mem_map_of_mem hu)) hslots
        (hm.pointers.pointersAt hslots) (hm.mapped hnonnull) (hm.apart hnonnull) hnonnull) schedule
  exact fun x hx => (hresults x hx).2

end

/-! ## Executions -/

section

variable {level : OptLevel} {home : ConstantAddresses} {d : Descriptor} {requested : Nat}
  {workers : Workers} {k : Kernel Memory} {events : List Event} {data : RuntimeData} {m : Memory}
  (hk : build (Backend.native level) workers home d requested = (.ok k, events))
  (hm : Provided (d.parameters home) data m)

include hk

theorem descriptor_of_build : k.descriptor = d := (build_eq_ok hk).1

theorem executeChecked_congr (hslots : Role.count d.affine ≤ data.pointers.length) {data' : RuntimeData}
    (hslots' : Role.count d.affine ≤ data'.pointers.length) (haddress : data'.address = data.address)
    (schedule : List Nat) :
    (k.executeChecked data' schedule m).outcome = (k.executeChecked data schedule m).outcome ∧
      (k.executeChecked data' schedule m).state = (k.executeChecked data schedule m).state := by
  have hrun := runUnits_congr (m := m) hk hslots hslots' haddress schedule
  rw [← descriptor_of_build hk] at hslots hslots'
  rw [executeChecked_outcome hslots, executeChecked_outcome hslots', executeChecked_state hslots,
    executeChecked_state hslots', hrun]
  exact ⟨rfl, rfl⟩

theorem outcome_of_null (hslots : Role.count d.affine ≤ data.pointers.length)
    (hpointers : PointersAt (d.parameters home) data.pointer data.address m)
    (hnull : ∃ role ∈ Role.used d.affine, data.pointer role = 0) (schedule : List Nat) :
    (k.executeChecked data schedule m).outcome = .error (.faulted (List.range k.threads)) ∧
      (k.executeChecked data schedule m).state = m := by
  obtain ⟨hresults, hstate⟩ := runUnits_fail hk (accepted_of_build hk) hslots hpointers hnull schedule
  have hslots' : Role.count k.descriptor.affine ≤ data.pointers.length := descriptor_of_build hk ▸ hslots
  have hfault : ∀ x ∈ (k.runUnits data schedule m).1, x.2 ≠ .ok () := by
    intro x hx
    rw [hresults x hx]
    exact fun h => by cases h
  rw [outcome_of_faults hslots' (units_ne_nil hk) hfault, threads_of_build hk, ← length_of_build hk, ← threads,
    executeChecked_state hslots', hstate]
  exact ⟨by rw [List.mergeSort_of_pairwise (by simpa using List.pairwise_le_range)], rfl⟩

include hm

/-- The three ways in which an execution ends. -/
theorem executeChecked_cases (schedule : List Nat) :
    data.pointers.length < Role.count d.affine ∧
        k.executeChecked data schedule m =
          ⟨.error (.tooFewSlots (Role.count d.affine) data.pointers.length), m, []⟩ ∨
      Role.count d.affine ≤ data.pointers.length ∧
        (∀ x ∈ data.pointers.take (Role.count d.affine), x ≠ 0) ∧
        (k.executeChecked data schedule m).outcome = .ok () ∨
      Role.count d.affine ≤ data.pointers.length ∧
        (∃ x ∈ data.pointers.take (Role.count d.affine), x = 0) ∧
        (k.executeChecked data schedule m).outcome = .error (.faulted (List.range k.threads)) ∧
        (k.executeChecked data schedule m).state = m := by
  have hd := descriptor_of_build hk
  by_cases hslots : Role.count d.affine ≤ data.pointers.length
  · have hfirst := RuntimeData.nonnull_iff hslots
    by_cases hnonnull : ∀ role ∈ Role.used d.affine, data.pointer role ≠ 0
    · have hok := outcome_of_ok (hd ▸ hslots) (runUnits_answer hk hslots hnonnull hm schedule)
      exact .inr (.inl ⟨hslots, hfirst.mpr hnonnull, hok⟩)
    · have hnull := mt hfirst.mp hnonnull
      push Not at hnonnull hnull
      have hpointers := hm.pointers.pointersAt hslots
      exact .inr (.inr ⟨hslots, hnull, outcome_of_null hk hslots hpointers hnonnull schedule⟩)
  · refine .inl ⟨by omega, ?_⟩
    rw [executeChecked_of_short (by rw [hd]; omega), hd]

theorem null_of_event {schedule : List Nat} {name : String} {slice : Slice} {f : Fault}
    (hf : .instanceFaulted name slice f ∈ (k.executeChecked data schedule m).events) :
    ∃ name', f = .status name' .nullPointer := by
  have hd := descriptor_of_build hk
  by_cases hslots : Role.count d.affine ≤ data.pointers.length
  · obtain ⟨u, hu⟩ := result_of_event (hd ▸ hslots) hf
    by_cases hnonnull : ∀ role ∈ Role.used d.affine, data.pointer role ≠ 0
    · cases runUnits_answer hk hslots hnonnull hm schedule _ hu
    · push Not at hnonnull
      have hresults := (runUnits_fail hk (accepted_of_build hk) hslots
        (hm.pointers.pointersAt hslots) hnonnull schedule).1 _ hu
      exact ⟨_, Except.error.inj hresults⟩
  · rw [executeChecked_of_short (by rw [hd]; omega)] at hf
    cases hf

theorem executeChecked_ignore {data' : RuntimeData} {m' : Memory} {seen : Set UInt64}
    (haddress : data'.address = data.address)
    (hfirst : data'.pointers.take (Role.count d.affine) = data.pointers.take (Role.count d.affine))
    (hseen : footprint (d.parameters home) data ⊆ seen) (hagree : Set.EqOn m.byte? m'.byte? seen)
    (schedule : List Nat) :
    (k.executeChecked data' schedule m').outcome = (k.executeChecked data schedule m).outcome ∧
      Set.EqOn (k.executeChecked data schedule m).state.byte?
        (k.executeChecked data' schedule m').state.byte? seen := by
  have hd := descriptor_of_build hk
  have hlength := congrArg List.length hfirst
  rw [List.length_take, List.length_take] at hlength
  by_cases hslots : Role.count d.affine ≤ data.pointers.length
  · have hslots' : Role.count k.descriptor.affine ≤ data.pointers.length := hd ▸ hslots
    have hpointers := hm.pointers.pointersAt hslots
    obtain ⟨hsame, hsame'⟩ := executeChecked_congr (m := m') hk hslots (by omega) haddress schedule
    rw [hsame, hsame']
    by_cases hnonnull : ∀ role ∈ Role.used d.affine, data.pointer role ≠ 0
    · obtain ⟨hresults, hstates⟩ :=
        runUnits_ignore hk hslots hnonnull hpointers (hm.apart hnonnull) hseen hagree schedule
      rw [executeChecked_outcome hslots', executeChecked_outcome hslots', executeChecked_state hslots',
        executeChecked_state hslots', hresults]
      exact ⟨rfl, hstates⟩
    · push Not at hnonnull
      have hpointers' : PointersAt (d.parameters home) data.pointer data.address m' := by
        intro role hrole
        rw [← hpointers role hrole]
        exact load?_congr fun c hc => (hagree (hseen (.inl ⟨role, hrole, hc⟩))).symm
      obtain ⟨houtcome, hstate⟩ := outcome_of_null hk hslots hpointers hnonnull schedule
      obtain ⟨houtcome', hstate'⟩ := outcome_of_null hk hslots hpointers' hnonnull schedule
      rw [houtcome, houtcome', hstate, hstate']
      exact ⟨rfl, hagree⟩
  · have hshort : data.pointers.length < Role.count k.descriptor.affine := by rw [hd]; omega
    have hshort' : data'.pointers.length < Role.count k.descriptor.affine := by rw [hd]; omega
    rw [executeChecked_of_short hshort, executeChecked_of_short hshort',
      show data'.pointers.length = data.pointers.length by omega]
    exact ⟨rfl, hagree⟩

end

/-- **An execution ends by the number of pointers and by whether one of those in use is null.** All units
succeed, or all fail and nothing is stored; further pointers are not seen. -/
theorem execute_allOrNothing {level : OptLevel} {home : ConstantAddresses} {d : Descriptor}
    {requested : Nat} {workers : Workers} {k : Kernel Memory} {events : List Event}
    (hk : build (Backend.native level) workers home d requested = (.ok k, events)) {data : RuntimeData}
    {m : Memory} (hm : Provided (d.parameters home) data m) (schedule : List Nat) :
    let slots := Role.count d.affine
    let e := k.executeChecked data schedule m
    k.threads = effectiveThreads requested d.split.groupCount ∧
    (data.pointers.length < slots → e.outcome = .error (.tooFewSlots slots data.pointers.length)) ∧
    (slots ≤ data.pointers.length →
      (e.outcome = .ok () ↔ ∀ x ∈ data.pointers.take slots, x ≠ 0) ∧
      ((∃ x ∈ data.pointers.take slots, x = 0) →
        e.outcome = .error (.faulted (List.range k.threads)))) ∧
    (e.outcome ≠ .ok () → e.state = m) ∧
    (∀ name slice f, .instanceFaulted name slice f ∈ e.events →
      ∀ name', f ≠ .status name' .sliceOutOfBounds) ∧
    (∀ data' m' seen, data'.address = data.address →
      data'.pointers.take slots = data.pointers.take slots →
      footprint (d.parameters home) data ⊆ seen → Set.EqOn m.byte? m'.byte? seen →
        (k.executeChecked data' schedule m').outcome = e.outcome ∧
        Set.EqOn e.state.byte? (k.executeChecked data' schedule m').state.byte? seen) ∧
    ((k.execute data schedule m).succeeded = true ↔ e.outcome = .ok ()) := by
  dsimp only
  refine ⟨length_of_build hk, ?_, ?_, ?_, fun name slice f hf name' h => ?_, ?_, execute_succeeded⟩
  · intro hshort
    rcases executeChecked_cases hk hm schedule with ⟨-, he⟩ | ⟨hslots, -⟩ | ⟨hslots, -⟩
    · rw [he]
    · omega
    · omega
  · intro hslots
    rcases executeChecked_cases hk hm schedule with ⟨hshort, -⟩ | ⟨-, hnonnull, hok⟩ | ⟨-, hnull, hfault, -⟩
    · omega
    · exact ⟨iff_of_true hok hnonnull, fun ⟨x, hx, hzero⟩ => absurd hzero (hnonnull x hx)⟩
    · obtain ⟨x, hx, hzero⟩ := hnull
      rw [hfault]
      exact ⟨iff_of_false (fun h => by cases h) fun h => h x hx hzero, fun _ => rfl⟩
  · intro herror
    rcases executeChecked_cases hk hm schedule with ⟨-, he⟩ | ⟨-, -, hok⟩ | ⟨-, -, -, hstate⟩
    · rw [he]
    · exact absurd hok herror
    · exact hstate
  · obtain ⟨name'', rfl⟩ := null_of_event hk hm hf
    cases h
  · intro data' m' seen haddress hfirst hseen hagree
    exact executeChecked_ignore hk hm haddress hfirst hseen hagree schedule

/-- Runtime data with a further pointer, which is null. -/
def longData : RuntimeData := ⟨0x1000, [0x2000, 0x3000, 0]⟩

theorem provided_pair : Provided pair longData (ofCells pairCells) := by
  have hpointer : longData.pointer = pairPointer := funext fun role => by cases role <;> rfl
  have hnames : ∀ role ∈ Role.used false, longData.pointers[role.index]? = some (pairPointer role) := by
    decide
  refine ⟨fun role hrole x hx => ?_, fun _ => ?_, fun _ => ?_⟩
  · obtain rfl : pairPointer role = x := Option.some.inj ((hnames role hrole).symm.trans hx)
    exact pointersAt_pair role hrole
  · rw [hpointer]
    exact holds_pair.buffersMapped (Nat.le_refl _)
  · rw [hpointer, Set.disjoint_left]
    rintro c ⟨role, hrole, hc⟩ ⟨e, he, hc'⟩
    refine Set.disjoint_left.mp (disjoint_pair (.inl ?_) he) hc hc'
    exact (by decide : ∀ role ∈ Role.used false,
      ((0x1000 : UInt64) + UInt64.ofNat (8 * role.index)).toNat + 8 ≤ 0x3000) role hrole

/-- Runtime data with a null pointer, and nothing else in memory. -/
def nullData : RuntimeData := ⟨0x1000, [0x2000, 0]⟩

def nullCells : List Cell := [⟨0x1000, 8, 0x2000⟩, ⟨0x1008, 8, 0⟩]

theorem provided_null : Provided pair nullData (ofCells nullCells) := by
  have hnull : ¬ ∀ role ∈ Role.used pair.affine, nullData.pointer role ≠ 0 := by decide
  refine ⟨fun role hrole x hx => ?_, fun h => absurd h hnull, fun h => absurd h hnull⟩
  have hcell : ∀ role ∈ Role.used false,
      (⟨0x1000 + UInt64.ofNat (8 * role.index), 8, (nullData.pointer role).toNat⟩ : Cell) ∈ nullCells := by
    decide
  obtain rfl : nullData.pointer role = x := by rw [RuntimeData.pointer, hx, Option.getD_some]
  exact load?_ofCells (by decide) (by decide) (hcell role hrole)

/-- Two threads with a further pointer that is null, and with one in use that is. -/
theorem execute_allOrNothing_pair : ∃ d k events, Descriptor.ofOperator pairOperator = .ok d ∧
    build (Backend.native .speed) (.sequential 2 true) pair.constants d 2 = (.ok k, events) ∧
      (k.executeChecked longData [1, 0, 0, 1] (ofCells pairCells)).outcome = .ok () ∧
      (k.executeChecked nullData [1, 0, 0, 1] (ofCells nullCells)).outcome =
        .error (.faulted [0, 1]) := by
  obtain ⟨d, k, events, hd, hp, hk⟩ := build_pair
  have haffine : d.affine = false := congrArg Parameters.affine hp
  have hsplit : d.split = pair.split := congrArg Parameters.split hp
  obtain ⟨-, -, hok, -⟩ := execute_allOrNothing hk (hp ▸ provided_pair) [1, 0, 0, 1]
  obtain ⟨hthreads, -, hnull, -⟩ := execute_allOrNothing hk (hp ▸ provided_null) [1, 0, 0, 1]
  rw [haffine] at hok hnull
  have hnonzero : ∀ x ∈ longData.pointers.take (Role.count false), x ≠ 0 := by simp [longData, Role.count]
  have hzero : ∃ x ∈ nullData.pointers.take (Role.count false), x = 0 := by simp [nullData, Role.count]
  have hfault := (hnull (by decide)).2 hzero
  rw [hthreads, hsplit] at hfault
  exact ⟨d, k, events, hd, hk, (hok (by decide)).1.mpr hnonzero, hfault⟩

end Kernel

end AxisNorm
