import AxisNorm.Proofs.Code.Operands

/-!
# What a run shows, and in how many steps

* `Routine.Runs`: some steps of a run and what is seen of them, whatever memory holds at each step.
* `Routine.exists_runs`: a call that is executed makes such a run.
* `Routine.Tours`: every run shows the items of a list in their order, and within a number of steps it comes to a
  goal or traps.
* `Routine.Tours.of_runs`, `Routine.Tours.of_runs_of_ends`: **what a tour promises holds of every run.**
* `Routine.Leads`: what is left of a block leads to blocks whose assertions hold.
* `Routine.Tours.set`, `Routine.Tours.of_leads`: the rules for one instruction and for what is left of a block.
-/

namespace AxisNorm.Code

variable {L V : Type} [DecidableEq V] [Hashable V] {α : Type}

/-- Some steps of a run and what is seen of the frames before them. Memory may hold anything at each step. -/
inductive Routine.Runs (code : Routine L V) (see : Frame L V → Option α) :
    Nat → List α → Progress L V → Progress L V → Prop
  | refl (p : Progress L V) : Runs code see 0 [] p p
  | step {n : Nat} {seen : List α} {f : Frame L V} {p : Progress L V} (m : Memory)
    (h : Runs code see n seen (f.next code m) p) :
    Runs code see (n + 1) ((see f).toList ++ seen) (.running f) p

/-- Whatever memory holds at each step, a run shows the items of a list one after the other, and within a
number of steps it is at a goal, which says what rest of the list it may leave. Only a trap ends it before. -/
inductive Routine.Tours (code : Routine L V) (see : Frame L V → Option α)
    (goal : Progress L V → List α → Prop) : Nat → List α → Progress L V → Prop
  | here {steps : Nat} {items : List α} {p : Progress L V} (h : goal p items) :
    Tours code see goal steps items p
  | trapped (steps : Nat) (items : List α) (trap : Trap) : Tours code see goal steps items (.trapped trap)
  | step {steps : Nat} {items : List α} {f : Frame L V}
    (h : ∀ m, Tours code see goal steps items (f.next code m)) :
    Tours code see goal (steps + 1) ((see f).toList ++ items) (.running f)

/-- The start of a block whose parameters have got their words. -/
def Routine.start (code : Routine L V) (l : L) (r : Registers V) : Progress L V :=
  .running ⟨r, (code.block l).body, (code.block l).terminator⟩

/-- What is left of a block leads to blocks whose assertions hold, or the run ends. Nothing is asked of its
instructions. -/
abbrev Routine.Leads (code : Routine L V) (assertion : L → Registers V → Prop) :
    Terminator L V → List (Instruction V) → Registers V → Prop :=
  code.Checks (fun _ => True) (fun _ _ => True) assertion

/-- How a run has ended, if it has. -/
def Progress.exit? : Progress L V → Option Exit
  | .running _ => none
  | .returned status => some (.returned status)
  | .trapped trap => some (.trapped trap)

variable {code : Routine L V} {see : Frame L V → Option α} {goal : Progress L V → List α → Prop}
  {r : Registers V} {rest : List (Instruction V)} {e : Terminator L V} {steps steps' n : Nat}
  {items seen : List α} {p q : Progress L V}

/-! ## Runs -/

/-- What is executed makes a run, which is at its end unless the steps were too few. -/
theorem Routine.exists_runs (code : Routine L V) (see : Frame L V → Option α) (n : Nat) (p : Progress L V)
    (m : Memory) : ∃ k ≤ n, ∃ seen q, code.Runs see k seen p q ∧
      (q.exit? = some ((code.resume n p).run m).1 ∨ k = n ∧ ∃ f, q = .running f) := by
  induction n generalizing p m with
  | zero =>
    refine ⟨0, Nat.le_refl 0, [], p, .refl p, ?_⟩
    cases p with
    | running f => exact .inr ⟨rfl, f, rfl⟩
    | returned status => exact .inl rfl
    | trapped trap => exact .inl rfl
  | succ n ih =>
    cases p with
    | running f =>
      obtain ⟨k, hk, seen, q, hrun, hend⟩ := ih (f.next code m) (f.effect m)
      exact ⟨k + 1, Nat.succ_le_succ hk, _, q, .step m hrun, hend.imp id (And.imp_left (congrArg (· + 1)))⟩
    | returned status => exact ⟨0, Nat.zero_le _, [], _, .refl _, .inl rfl⟩
    | trapped trap => exact ⟨0, Nat.zero_le _, [], _, .refl _, .inl rfl⟩

theorem Routine.Runs.exists_succ {f : Frame L V} (h : code.Runs see n seen p (.running f)) :
    ∃ seen' q, code.Runs see (n + 1) seen' p q := by
  generalize hq : Progress.running f = q at h
  induction h with
  | refl p =>
    subst hq
    exact ⟨_, _, .step .empty (.refl _)⟩
  | step m _ ih =>
    obtain ⟨seen', q, hrun⟩ := ih hq
    exact ⟨_, q, .step m hrun⟩

theorem Routine.Runs.exists_reaches {v : α} (h : code.Runs see n seen p q) (hv : v ∈ seen) :
    ∃ f, code.Reaches p f ∧ see f = some v := by
  induction h with
  | refl p => cases hv
  | @step n seen f p m _ ih =>
    rcases List.mem_append.mp hv with hfirst | hlater
    · exact ⟨f, .here f, Option.mem_toList.mp hfirst⟩
    · obtain ⟨g, hreach, hg⟩ := ih hlater
      exact ⟨g, .step m hreach, hg⟩

theorem Frame.ret_of_next {f : Frame L V} {m : Memory} {status : UInt32} (h : f.next code m = .returned status) :
    f.pending = [] ∧ ∃ v, f.terminator = .ret v := by
  have henter (l : L) (words : List Word) : code.enter f.registers l words ≠ .returned status := by
    unfold Routine.enter
    split <;> simp
  obtain ⟨r, pending, e⟩ := f
  cases pending with
  | cons i rest =>
    cases i <;> simp only [Frame.next, Frame.proceed] at h <;> repeat' split at h
    all_goals cases h
  | nil =>
    cases e with
    | jump target arguments =>
      simp only [Frame.next] at h
      split at h
      · exact absurd h (henter _ _)
      · cases h
    | branch condition ifTrue ifFalse =>
      simp only [Frame.next] at h
      split at h
      · exact absurd h (henter _ _)
      · cases h
    | ret v => exact ⟨rfl, v, rfl⟩

theorem Routine.WellFormed.sound_of_runs [DecidableEq L] (h : code.WellFormed) (hresults : code.results = [.i32])
    (hp : p.Sound code) (hrun : code.Runs see n seen p q) : q.Sound code := by
  induction hrun with
  | refl p => exact hp
  | step m _ ih =>
    cases hp with
    | running hf => exact ih (h.next_sound hresults hf m)

/-! ## Tours -/

namespace Routine.Tours

/-- **What a tour promises holds of every run**: it comes to a goal after what the goal leaves to show, or it has
not yet come so far. -/
theorem of_runs (h : code.Tours see goal steps items p) (hrun : code.Runs see n seen p q) :
    (∃ k l shown later rest g, n = k + l ∧ k ≤ steps ∧ seen = shown ++ later ∧ items = shown ++ rest ∧
      code.Runs see k shown p g ∧ goal g rest ∧ code.Runs see l later g q) ∨
    n ≤ steps ∧ (∃ rest, items = seen ++ rest) ∧ ((∃ f, q = .running f) ∨ ∃ trap, q = .trapped trap) := by
  induction hrun generalizing steps items with
  | refl p =>
    cases h with
    | here h => exact .inl ⟨0, 0, [], [], items, p, rfl, Nat.zero_le _, rfl, rfl, .refl p, h, .refl p⟩
    | trapped _ _ trap => exact .inr ⟨Nat.zero_le _, ⟨items, rfl⟩, .inr ⟨trap, rfl⟩⟩
    | step => exact .inr ⟨Nat.zero_le _, ⟨_, rfl⟩, .inl ⟨_, rfl⟩⟩
  | @step n seen f q m hrun ih =>
    cases h with
    | here h =>
      exact .inl ⟨0, n + 1, [], _, items, _, (Nat.zero_add _).symm, Nat.zero_le _, rfl, rfl, .refl _, h, .step m hrun⟩
    | step h =>
      rcases ih (h m) with ⟨k, l, shown, later, rest, g, rfl, hk, rfl, rfl, hbefore, hg, hafter⟩ |
        ⟨hn, ⟨rest, rfl⟩, hend⟩
      · exact .inl ⟨k + 1, l, _, later, rest, g, Nat.add_right_comm k l 1, Nat.succ_le_succ hk,
          (List.append_assoc _ _ _).symm, (List.append_assoc _ _ _).symm, .step m hbefore, hg, hafter⟩
      · exact .inr ⟨Nat.succ_le_succ hn, ⟨rest, (List.append_assoc _ _ _).symm⟩, hend⟩

theorem of_runs_of_ends (h : code.Tours see goal steps items p) (hgoal : ∀ f rest, ¬ goal (.running f) rest)
    (hrun : code.Runs see n seen p q) : n ≤ steps ∧ ∃ rest, items = seen ++ rest ∧
      ((∃ f, q = .running f) ∨ (∃ trap, q = .trapped trap) ∨ goal q rest) := by
  rcases h.of_runs hrun with ⟨k, l, shown, later, rest, g, rfl, hk, rfl, rfl, -, hg, hafter⟩ | ⟨hn, ⟨rest, rfl⟩, hend⟩
  · cases hafter with
    | refl => exact ⟨hk, rest, by rw [List.append_nil], .inr (.inr hg)⟩
    | step => exact absurd hg (hgoal _ _)
  · exact ⟨hn, rest, rfl, hend.imp_right .inl⟩

theorem mono (h : code.Tours see goal steps items p) (hs : steps ≤ steps') :
    code.Tours see goal steps' items p := by
  induction h generalizing steps' with
  | here h => exact .here h
  | trapped _ _ trap => exact .trapped _ _ trap
  | step _ ih =>
    obtain ⟨n, rfl⟩ := Nat.exists_eq_add_of_le' (Nat.le_of_add_left_le hs)
    exact .step fun m => ih m (by omega)

theorem set {v : V} {op : Operation V} {w : Word} (hquiet : see ⟨r, .set v op :: rest, e⟩ = none)
    (hw : op.evaluate? r = some w) (h : code.Tours see goal steps items (.running ⟨r.set v w, rest, e⟩)) :
    code.Tours see goal (steps + 1) items (.running ⟨r, .set v op :: rest, e⟩) := by
  have hstep : code.Tours see goal (steps + 1) ((see ⟨r, .set v op :: rest, e⟩).toList ++ items)
      (.running ⟨r, .set v op :: rest, e⟩) := .step fun m => by simpa only [Frame.next, hw, Frame.proceed] using h
  rwa [hquiet] at hstep

/-- What is left of a block, of which only the first frame is seen. -/
theorem of_leads (assertion : L → Registers V → Prop) {is : List (Instruction V)} {first : Option α}
    (hfirst : see ⟨r, is, e⟩ = first) (hquiet : ∀ r' js, js.length < is.length → see ⟨r', js, e⟩ = none)
    (hend : ∀ v, e ≠ .ret v) (hleads : code.Leads assertion e is r)
    (h : ∀ l r', assertion l r' → code.Tours see goal steps items (code.start l r')) :
    code.Tours see goal (steps + is.length + 1) (first.toList ++ items) (.running ⟨r, is, e⟩) := by
  subst hfirst
  induction is generalizing r with
  | nil =>
    refine .step fun m => ?_
    cases hnext : Frame.next code ⟨r, [], e⟩ m with
    | running g =>
      obtain ⟨l, hbody, hterminator, hl⟩ := hleads m g trivial hnext
      have hstart : Progress.running g = code.start l g.registers := by
        rw [Routine.start, ← hbody, ← hterminator]
      rw [hstart]
      exact h l _ hl
    | returned status =>
      obtain ⟨-, v, hv⟩ := Frame.ret_of_next hnext
      exact absurd hv (hend v)
    | trapped trap => exact .trapped _ _ trap
  | cons i rest ih =>
    refine .step fun m => ?_
    cases hnext : Frame.next code ⟨r, i :: rest, e⟩ m with
    | running g =>
      obtain ⟨hpending, hterminator⟩ := Frame.next_cons hnext
      have hrest := ih (fun r' js hjs => hquiet r' js (Nat.lt_succ_of_lt hjs)) (hleads.2 m g trivial hnext)
      rw [hquiet g.registers rest (Nat.lt_succ_self _)] at hrest
      have hg : g = ⟨g.registers, rest, e⟩ := by rw [← hpending, ← hterminator]
      rw [hg]
      exact hrest
    | returned status => cases (Frame.ret_of_next hnext).1
    | trapped trap => exact .trapped _ _ trap

end Routine.Tours

/-! ## Code that is not looked into -/

theorem Routine.Checks.straight {ok : Memory → Prop} {fine : Registers V → Instruction V → Prop}
    {assertion : L → Registers V → Prop} {is : List (Instruction V)} (hfine : ∀ r, ∀ i ∈ is, fine r i)
    (h : ∀ r', Registers.AgreeOn (fun v => ∀ i ∈ is, ∀ u ∈ i.defines, u.1 ≠ v) r r' →
      code.Checks ok fine assertion e rest r') : code.Checks ok fine assertion e (is ++ rest) r := by
  induction is generalizing r with
  | nil => exact h r (.refl _ _)
  | cons i is ih =>
    obtain ⟨hi, his⟩ := List.forall_mem_cons.mp fun i hi r => hfine r i hi
    have hrest (r' : Registers V) (hr' : Registers.AgreeOn (fun v => ∀ u ∈ i.defines, u.1 ≠ v) r r') :
        code.Checks ok fine assertion e (is ++ rest) r' := by
      refine ih (fun r i hi => his i hi r) fun r'' ha => h r'' fun v hv => ?_
      obtain ⟨hv, hvs⟩ := List.forall_mem_cons.mp hv
      exact (ha v hvs).trans (hr' v hv)
    cases i with
    | set v op => exact .set (hi r) fun w _ => hrest _ (.set (.refl _ _) (by simp [Instruction.defines]) w)
    | load v type a offset =>
      exact .load (hi r) fun _ _ _ w _ _ _ _ => hrest _ (.set (.refl _ _) (by simp [Instruction.defines]) w)
    | store type v a offset => exact .store (hi r) (hrest r (.refl _ _))

end AxisNorm.Code
