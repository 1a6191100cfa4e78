import AxisNorm.Task

/-!
# Tasks that see only part of the state

Two states agree if they differ in nothing that matters. A task that sees only what matters takes the same
steps from both, and they still agree when it has ended.

* `Task.Ignores`: what a task does not see.
* `Pool.run_ignores`: **a pool of such tasks has the same results from states that agree, under every
  schedule, and leaves states that agree.**
-/

namespace AxisNorm

variable {σ α β : Type} {agree : σ → σ → Prop} {s s' : σ}

namespace Task

/-- From states that agree the same steps follow, and the states keep on agreeing. -/
def Ignores (agree : σ → σ → Prop) : Task σ α → Prop
  | .done _ => True
  | .act effect next => ∀ s s', agree s s' →
      agree (effect s) (effect s') ∧ next s' = next s ∧ (next s).Ignores agree

variable {t : Task σ α}

theorem Ignores.map {f : α → β} (h : t.Ignores agree) : (t.map f).Ignores agree := by
  induction t with
  | done a => trivial
  | act effect next ih =>
    intro s s' hs
    obtain ⟨heffect, hnext, hrest⟩ := h s s' hs
    exact ⟨heffect, congrArg (Task.map f) hnext, ih s hrest⟩

theorem Ignores.run (h : t.Ignores agree) (hs : agree s s') :
    (t.run s').1 = (t.run s).1 ∧ agree (t.run s).2 (t.run s').2 := by
  induction t generalizing s s' with
  | done a => exact ⟨rfl, hs⟩
  | act effect next ih =>
    obtain ⟨heffect, hnext, hrest⟩ := h s s' hs
    rw [run_act, run_act, hnext]
    exact ih s hrest heffect

end Task

namespace Pool

/-- A pool all of whose tasks see only what matters. -/
def Ignores (agree : σ → σ → Prop) (running : List (Option (Task σ α))) : Prop :=
  ∀ t, some t ∈ running → t.Ignores agree

theorem Ignores.set {running : List (Option (Task σ α))} (h : Ignores agree running) (i : Nat)
    {x : Option (Task σ α)} (hx : ∀ t, x = some t → t.Ignores agree) : Ignores agree (running.set i x) := by
  intro t ht
  rcases List.mem_or_eq_of_mem_set ht with ht | ht
  · exact h t ht
  · exact hx t ht.symm

theorem pick_ignores {p : Pool σ α} (h : Ignores agree p.running) (hs : agree s s') (i : Nat) :
    (p.pick s' i).1 = (p.pick s i).1 ∧ agree (p.pick s i).2 (p.pick s' i).2 ∧
      Ignores agree (p.pick s i).1.running := by
  unfold Pool.pick
  split
  case h_1 a hi => exact ⟨rfl, hs, h.set i fun t ht => by cases ht⟩
  case h_2 effect next hi =>
    obtain ⟨heffect, hnext, hrest⟩ := h _ (List.mem_of_getElem? hi) s s' hs
    refine ⟨by rw [hnext], heffect, h.set i fun t ht => ?_⟩
    obtain rfl : next s = t := Option.some.inj ht
    exact hrest
  case h_3 => exact ⟨rfl, hs, h⟩

theorem follow_cons (p : Pool σ α) (s : σ) (i : Nat) (schedule : List Nat) :
    p.follow s (i :: schedule) = (p.pick s i).1.follow (p.pick s i).2 schedule := rfl

theorem follow_append (p : Pool σ α) (s : σ) (schedule schedule' : List Nat) :
    p.follow s (schedule ++ schedule') =
      (p.follow s schedule).1.follow (p.follow s schedule).2 schedule' := by
  induction schedule generalizing p s with
  | nil => rfl
  | cons i schedule ih => exact ih _ _

theorem follow_ignores {p : Pool σ α} (h : Ignores agree p.running) (hs : agree s s')
    (schedule : List Nat) :
    (p.follow s' schedule).1 = (p.follow s schedule).1 ∧
      agree (p.follow s schedule).2 (p.follow s' schedule).2 ∧
      Ignores agree (p.follow s schedule).1.running := by
  induction schedule generalizing p s s' with
  | nil => exact ⟨rfl, hs, h⟩
  | cons i schedule ih =>
    obtain ⟨hpool, hstates, hrest⟩ := pick_ignores h hs i
    rw [follow_cons, follow_cons, hpool]
    exact ih hrest hstates

theorem drain_ignores {running : List (Option (Task σ α))} (h : Ignores agree running) (hs : agree s s') :
    (drain running s').1 = (drain running s).1 ∧ agree (drain running s).2 (drain running s').2 := by
  induction running generalizing s s' with
  | nil => exact ⟨rfl, hs⟩
  | cons x running ih =>
    have hrest : Ignores agree running := fun t ht => h t (List.mem_cons_of_mem x ht)
    cases x with
    | none => exact ih hrest hs
    | some t =>
      obtain ⟨hresult, hstates⟩ := Task.Ignores.run (h t List.mem_cons_self) hs
      obtain ⟨hresults, hend⟩ := ih hrest hstates
      refine ⟨?_, hend⟩
      show (t.run s').1 :: (drain running (t.run s').2).1 = _
      rw [hresult, hresults]
      rfl

/-- **A pool of tasks that see only what matters has the same results from states that agree.** -/
theorem run_ignores {tasks : List (Task σ α)} (h : ∀ t ∈ tasks, t.Ignores agree) (hs : agree s s')
    (schedule : List Nat) :
    (Pool.run schedule tasks s').1 = (Pool.run schedule tasks s).1 ∧
      agree (Pool.run schedule tasks s).2 (Pool.run schedule tasks s').2 := by
  have hstart : Ignores agree (tasks.map some) := by
    intro t ht
    obtain ⟨u, hu, hut⟩ := List.mem_map.mp ht
    exact Option.some.inj hut ▸ h u hu
  obtain ⟨hpool, hstates, hrest⟩ := follow_ignores (p := ⟨tasks.map some, []⟩) hstart hs schedule
  obtain ⟨hresults, hend⟩ := drain_ignores hrest hstates
  unfold Pool.run
  dsimp only
  rw [hpool, hresults]
  exact ⟨rfl, hend⟩

end Pool

end AxisNorm
