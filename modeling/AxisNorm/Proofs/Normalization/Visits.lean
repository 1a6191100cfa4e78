import AxisNorm.Proofs.Code.Tour
import AxisNorm.Proofs.Normalization.WellFormed

/-!
# What a run shows of the loops

A run shows the group at the start of each round over groups, and the element and its number each time a walk
begins its body.

* `Visit`, `visit?`: what is shown, and by which frames.
* `groupsVisits`: the visits of a slice, in their order.
* `Counts`: the head of a loop that counts.
* `Counts.tours`: **a loop that counts shows its rounds in their order and is left after the last.**
-/

namespace AxisNorm.Normalization

open Code

/-- What a run shows of the loops, as it stands in the registers. -/
inductive Visit where
  /-- The loop over groups begins a round. -/
  | group (group : Option Word)
  /-- A walk begins its body. -/
  | element (pass : Pass) (position element : Option Word)
  deriving DecidableEq

/-- What is shown before line `n` of a block: the body of a walk begins after the two indices are computed. -/
def shown (r : Registers Value) : Label → Nat → Option Visit
  | .groupBody, 0 => some (.group (r.get? .group))
  | .walk q .innerBody, 2 => some (.element q (r.get? (.walk q .position)) (r.get? (.walk q .element)))
  | _, _ => none

/-- The block that a frame is in. No two blocks have the same end. -/
def blockOf? (code : Routine Label Value) (f : Frame Label Value) : Option Label :=
  layout.find? fun l => (code.block l).terminator = f.terminator

/-- What a frame shows. -/
def visit? (code : Routine Label Value) (f : Frame Label Value) : Option Visit := do
  let l ← blockOf? code f
  shown f.registers l ((code.block l).body.length - f.pending.length)

/-- Element `k` of group `b`. -/
def elementVisit (s : Split) (q : Pass) (b k : Nat) : Visit :=
  .element q (some (.ofNat k)) (some (.ofNat (s.position b k)))

/-- The elements of group `b` in the order of their numbers. -/
def walkVisits (s : Split) (q : Pass) (b : Nat) : List Visit :=
  (List.range (s.outer * s.inner)).map (elementVisit s q b)

/-- Row by row, the elements of a group are visited in the order of their numbers. -/
theorem walkVisits_eq_flatMap (s : Split) (q : Pass) (b : Nat) : walkVisits s q b =
    (List.range' 0 s.outer).flatMap fun o =>
      (List.range' 0 s.inner).flatMap fun i => [elementVisit s q b (o * s.inner + i)] := by
  rw [walkVisits]
  generalize s.outer = rows
  induction rows with
  | zero => simp
  | succ rows ih =>
    rw [List.range'_1_concat, List.flatMap_append, ← ih, Nat.succ_mul, List.range_add, List.map_append, List.map_map,
      List.flatMap_singleton, Nat.zero_add, ← List.range_eq_range']
    exact congrArg _ List.map_eq_flatMap

/-- Group `b` and the three walks over it. -/
def groupVisits (s : Split) (b : Nat) : List Visit :=
  .group (some (.ofNat b)) :: [Pass.mean, .variance, .normalize].flatMap fun q => walkVisits s q b

/-- The groups from `start` on, in their order. -/
def groupsVisits (s : Split) (start count : Nat) : List Visit :=
  (List.range' start count).flatMap (groupVisits s)

/-! ## What frames show -/

theorem shown_innerBody {q : Pass} {r : Registers Value} {n : Nat} (hn : n ≠ 2) :
    shown r (.walk q .innerBody) n = none := by
  rw [shown]
  · nofun
  · exact fun _ _ => hn

section

variable {p : Parameters} {storage : ValueType}

theorem terminator_skeleton (affine : Bool) : ∀ l ∈ layout, ∀ l' ∈ layout,
    ((skeleton affine .f32).block l').terminator = ((skeleton affine .f32).block l).terminator → l' = l := by
  cases affine <;> decide +kernel

theorem terminator_inj {l l' : Label} (h : (block p storage l').terminator = (block p storage l).terminator) :
    l' = l := by
  have hskeleton (l : Label) :
      (block p storage l).terminator = ((skeleton p.affine .f32).block l).terminator := by
    cases l with
    | walk q w => cases q <;> cases w <;> rfl
    | _ => rfl
  rw [hskeleton, hskeleton] at h
  exact terminator_skeleton _ l (mem_layout l) l' (mem_layout l') h

variable {code : Routine Label Value} (hcode : code.block = block p storage)

include hcode

theorem blockOf?_eq (l : Label) (r : Registers Value) (is : List (Instruction Value)) :
    blockOf? code ⟨r, is, (block p storage l).terminator⟩ = some l := by
  unfold blockOf?
  rw [hcode]
  cases hfind : layout.find? fun l' => (block p storage l').terminator = (block p storage l).terminator with
  | none => simpa using List.find?_eq_none.mp hfind l (mem_layout l)
  | some l' =>
    have hend := List.find?_some hfind
    rw [terminator_inj (of_decide_eq_true hend)]

theorem visit?_eq (l : Label) (r : Registers Value) (is : List (Instruction Value)) :
    visit? code ⟨r, is, (block p storage l).terminator⟩ =
      shown r l ((block p storage l).body.length - is.length) := by
  rw [visit?, blockOf?_eq hcode, hcode]
  rfl

theorem pending_of_visit? {f : Frame Label Value} {l : Label} {n : Nat} (hf : f.At code l n) {q : Pass}
    {position element : Option Word} (h : visit? code f = some (.element q position element)) :
    f.pending = (block p storage (.walk q .innerBody)).body.drop 2 ∧
      f.registers.get? (.walk q .element) = element := by
  obtain ⟨r, pending, e⟩ := f
  obtain rfl : e = (block p storage l).terminator := hcode ▸ hf.terminator
  obtain rfl : pending = (block p storage l).body.drop n := hcode ▸ hf.pending_eq
  rw [visit?_eq hcode, List.length_drop] at h
  unfold shown at h
  split at h
  · cases h
  · next q' hdrop =>
    cases h
    exact ⟨List.drop_eq_drop_iff.mpr (by omega), rfl⟩
  · cases h

end

/-! ## Loops that count -/

/-- The head of a loop: its first parameter is the index, and it compares the index with the bound. -/
structure Counts (code : Routine Label Value) (header round exit : Label) (index limit more : Value) : Prop where
  parameters : ∃ others, (code.block header).parameters = (index, .i64) :: others ∧
    ∀ x ∈ others, x.1 ≠ index ∧ x.1.level = index.level
  body : (code.block header).body = [.set more (.compare .ult .i64 index limit)]
  terminator : (code.block header).terminator = .branch more round exit
  more : more ≠ index ∧ more.level = index.level
  limit : limit.level < index.level
  quiet : ∀ r n, shown r header n = none

section

variable {p : Parameters} {storage : ValueType} {code : Routine Label Value} (hcode : code.block = block p storage)
  {goal : Progress Label Value → List Visit → Prop} {steps n : Nat} {items : List Visit} {r : Registers Value}

include hcode

theorem quiet_tours (assertion : Label → Registers Value → Prop) {l : Label} {c : Nat}
    (hquiet : ∀ r n, shown r l n = none) (hlength : (code.block l).body.length < c)
    (hend : ∀ v, (code.block l).terminator ≠ .ret v)
    (hleads : code.Leads assertion (code.block l).terminator (code.block l).body r)
    (h : ∀ l' r', assertion l' r' → code.Tours (visit? code) goal steps items (code.start l' r')) :
    code.Tours (visit? code) goal (steps + c) items (code.start l r) := by
  have hnone (r' : Registers Value) (is : List (Instruction Value)) :
      visit? code ⟨r', is, (code.block l).terminator⟩ = none := by
    rw [hcode, visit?_eq hcode, hquiet]
  exact (Routine.Tours.of_leads assertion (hnone _ _) (fun r' is _ => hnone r' is) hend hleads h).mono
    (Nat.add_le_add_left hlength steps)

namespace Counts

variable {header round exit : Label} {index limit more : Value} (hloop : Counts code header round exit index limit more)
  {bound : Nat}

include hloop

theorem header_tours (hbound : bound < 2 ^ 64) (hlimit : r.get? limit = some (.ofNat bound)) {i : Nat} (hi : i ≤ bound)
    (hindex : r.get? index = some (.ofNat i))
    (h : ∀ r', AgreeBelow index.level r r' → r'.get? index = some (.ofNat i) →
      code.Tours (visit? code) goal steps items (code.start (if i < bound then round else exit) r')) :
    code.Tours (visit? code) goal (steps + 2) items (code.start header r) := by
  refine quiet_tours hcode (fun l r' => l = (if i < bound then round else exit) ∧ AgreeBelow index.level r r' ∧
    r'.get? index = some (.ofNat i)) hloop.quiet (by simp [hloop.body]) (by simp [hloop.terminator]) ?_ ?_
  · rw [hloop.terminator, hloop.body]
    refine .set_of_eq trivial (evaluate?_ult hindex hlimit (by omega) hbound) ?_
    refine .branch (Registers.get?_set_self _ _ _) ⟨?_, ?_, ?_⟩
    · simp
    · exact .set (.refl _ _) _ (by rw [hloop.more.2]; omega)
    · rw [Registers.get?_set_of_ne hloop.more.1, hindex]
  · rintro l' r' ⟨rfl, ha, hr'⟩
    exact h r' ha hr'

omit hcode in
theorem jump_leads {assertion : Label → Registers Value → Prop} {u : Value} {us : List Value} {i : Nat}
    (hu : r.get? u = some (.ofNat i))
    (h : ∀ r', AgreeBelow index.level r r' → r'.get? index = some (.ofNat i) → assertion header r') :
    code.Leads assertion (.jump header (u :: us)) [] r := by
  obtain ⟨others, hparameters, hothers⟩ := hloop.parameters
  exact enter_checks hparameters hothers rfl hu h

/-- **A loop that counts shows its rounds in their order and is left after the last.** -/
theorem tours {r₀ : Registers Value} (hbound : bound < 2 ^ 64) (hlimit : r₀.get? limit = some (.ofNat bound))
    {shows : Nat → List Visit} {cost : Nat}
    (hround : ∀ i < bound, ∀ r steps items, AgreeBelow index.level r₀ r → r.get? index = some (.ofNat i) →
      (∀ r', AgreeBelow index.level r₀ r' → r'.get? index = some (.ofNat (i + 1)) →
        code.Tours (visit? code) goal steps items (code.start header r')) →
      code.Tours (visit? code) goal (steps + cost) (shows i ++ items) (code.start round r))
    (hexit : ∀ r, AgreeBelow index.level r₀ r → code.Tours (visit? code) goal steps items (code.start exit r))
    {count i : Nat} (hcount : i + count = bound) (hr : AgreeBelow index.level r₀ r)
    (hi : r.get? index = some (.ofNat i)) :
    code.Tours (visit? code) goal (steps + 2 + count * (2 + cost)) ((List.range' i count).flatMap shows ++ items)
      (code.start header r) := by
  induction count generalizing i r with
  | zero =>
    refine .mono ?_ (Nat.le_add_right _ _)
    refine hloop.header_tours hcode hbound (hr.get? hlimit hloop.limit) (by omega) hi fun r' ha _ => ?_
    rw [if_neg (by omega)]
    exact hexit r' (hr.trans ha)
  | succ count ih =>
    have hsteps : steps + 2 + count * (2 + cost) + cost + 2 ≤ steps + 2 + (count + 1) * (2 + cost) := by
      rw [Nat.succ_mul]
      omega
    refine .mono ?_ hsteps
    refine hloop.header_tours hcode hbound (hr.get? hlimit hloop.limit) (by omega) hi fun r₁ ha₁ hindex => ?_
    rw [if_pos (by omega), List.range'_succ, List.flatMap_cons, List.append_assoc]
    exact hround i (by omega) r₁ _ _ (hr.trans ha₁) hindex fun r₂ ha₂ hindex₂ => ih (by omega) ha₂ hindex₂

end Counts

end

end AxisNorm.Normalization
