import AxisNorm.Proofs.Task.Agreement

/-!
# Tasks under observation

An observed task works on a state with notes beside it. It does to the state what the task does, and it
notes when it begins and what it ends with.

* `Task.observed`: the observed task.
* `Task.Observes`: what an observed task has to do with the task itself, step by step.
* `Pool.exists_run_observes`: **every interleaving of tasks can be observed, with the same results and the
  same last state.**
-/

namespace AxisNorm

variable {σ τ α β : Type}

namespace Task

/-- The same steps, and a note of the result. -/
def noting (after : α → τ → τ) : Task σ α → Task (σ × τ) α
  | .done a => .act (fun x => (x.1, after a x.2)) fun _ => .done a
  | .act effect next => .act (fun x => (effect x.1, x.2)) fun x => (next x.1).noting after

/-- The same steps between two notes. -/
def observed (before : τ → τ) (after : α → τ → τ) (t : Task σ α) : Task (σ × τ) α :=
  .act (fun x => (x.1, before x.2)) fun _ => t.noting after

/-- The first task does to the state what the second does, and between these steps changes only the
notes. Its result is that of the second under `f`. -/
inductive Observes (f : α → β) : Task (σ × τ) β → Task σ α → Prop
  | done (a : α) : Observes f (.done (f a)) (.done a)
  | note {effect : σ × τ → σ × τ} {next : σ × τ → Task (σ × τ) β} {u : Task σ α}
    (heffect : ∀ x, (effect x).1 = x.1) (hnext : ∀ x, Observes f (next x) u) :
    Observes f (.act effect next) u
  | act {effect : σ × τ → σ × τ} {next : σ × τ → Task (σ × τ) β} {effect' : σ → σ}
    {next' : σ → Task σ α} (heffect : ∀ x, (effect x).1 = effect' x.1)
    (hnext : ∀ x, Observes f (next x) (next' x.1)) : Observes f (.act effect next) (.act effect' next')

theorem noting_observes {γ : Type} (after : α → τ → τ) (f : β → γ) (g : α → β) (t : Task σ α) :
    ((t.noting after).map fun a => f (g a)).Observes f (t.map g) := by
  induction t with
  | done a => exact .note (fun _ => rfl) fun _ => .done (g a)
  | act effect next ih => exact .act (fun _ => rfl) fun x => ih x.1

theorem observed_observes {γ : Type} (before : τ → τ) (after : α → τ → τ) (f : β → γ) (g : α → β)
    (t : Task σ α) : ((t.observed before after).map fun a => f (g a)).Observes f (t.map g) :=
  .note (fun _ => rfl) fun _ => noting_observes after f g t

theorem Observes.run {f : α → β} {t : Task (σ × τ) β} {u : Task σ α} (h : t.Observes f u) (x : σ × τ) :
    (t.run x).1 = f (u.run x.1).1 ∧ (t.run x).2.1 = (u.run x.1).2 := by
  induction h generalizing x with
  | done a => exact ⟨rfl, rfl⟩
  | note heffect _ ih =>
    rw [run_act, ← heffect x]
    exact ih x _
  | act heffect _ ih =>
    rw [run_act, run_act, ← heffect x]
    exact ih x _

end Task

namespace Pool

variable {f : α → β}

/-- Place by place, one pool observes another. -/
def Observes (f : α → β) (running : List (Option (Task (σ × τ) β))) (running' : List (Option (Task σ α))) :
    Prop :=
  ∀ i : Nat, Option.Rel (Option.Rel (Task.Observes f)) running[i]? running'[i]?

section

variable {running : List (Option (Task (σ × τ) β))} {running' : List (Option (Task σ α))}

theorem Observes.set (h : Observes f running running') (i : Nat) {x : Option (Task (σ × τ) β)}
    {y : Option (Task σ α)} (hxy : Option.Rel (Task.Observes f) x y) :
    Observes f (running.set i x) (running'.set i y) := by
  intro j
  by_cases hj : i = j
  · subst hj
    have hi := h i
    rw [List.getElem?_set_self', List.getElem?_set_self']
    cases hx : running[i]? <;> cases hy : running'[i]? <;> rw [hx, hy] at hi <;> cases hi
    · exact .none
    all_goals exact .some hxy
  · rw [List.getElem?_set_ne hj, List.getElem?_set_ne hj]
    exact h j

theorem Observes.set_left (h : Observes f running running') {i : Nat} {x : Option (Task (σ × τ) β)}
    {y : Option (Task σ α)} (hy : running'[i]? = some y) (hxy : Option.Rel (Task.Observes f) x y) :
    Observes f (running.set i x) running' := by
  have hset := h.set i hxy
  obtain ⟨hi, rfl⟩ := List.getElem?_eq_some_iff.mp hy
  rwa [List.set_getElem_self] at hset

/-- The observing pool and the observed one, each with its state. -/
structure Agrees (f : α → β) (p : Pool (σ × τ) β) (x : σ × τ) (p' : Pool σ α) (s : σ) : Prop where
  running : Observes f p.running p'.running
  finished : p.finished = p'.finished.map f
  state : x.1 = s

variable {p : Pool (σ × τ) β} {x : σ × τ} {p' : Pool σ α} {s : σ}

/-- For a pick there are picks that are seen as it: some notes, and then the step itself. -/
theorem Agrees.pick_task {i : Nat} {t : Task (σ × τ) β} {u : Task σ α} (htu : t.Observes f u)
    (h : Agrees f p x p' s) (ht : p.running[i]? = some (some t)) (hu : p'.running[i]? = some (some u)) :
    ∃ picks, Agrees f (p.follow x picks).1 (p.follow x picks).2 (p'.pick s i).1 (p'.pick s i).2 := by
  induction htu generalizing p x with
  | done a =>
    refine ⟨[i], ?_⟩
    simp only [follow, pick, ht, hu]
    exact ⟨h.running.set i .none, by rw [h.finished, List.map_append]; rfl, h.state⟩
  | @note effect next u heffect hnext ih =>
    have hpick : p.pick x i = ({ p with running := p.running.set i (some (next x)) }, effect x) := by
      simp only [pick, ht]
    have hagrees : Agrees f { p with running := p.running.set i (some (next x)) } (effect x) p' s :=
      ⟨h.running.set_left hu (.some (hnext x)), h.finished, (heffect x).trans h.state⟩
    obtain ⟨hi, -⟩ := List.getElem?_eq_some_iff.mp ht
    obtain ⟨picks, hpicks⟩ := ih x hagrees (List.getElem?_set_self hi) hu
    refine ⟨i :: picks, ?_⟩
    rw [follow, hpick]
    exact hpicks
  | act heffect hnext ih =>
    refine ⟨[i], ?_⟩
    obtain rfl := h.state
    simp only [follow, pick, ht, hu]
    exact ⟨h.running.set i (.some (hnext x)), h.finished, heffect x⟩

theorem Agrees.pick (h : Agrees f p x p' s) (i : Nat) :
    ∃ picks, Agrees f (p.follow x picks).1 (p.follow x picks).2 (p'.pick s i).1 (p'.pick s i).2 := by
  have hi := h.running i
  cases hu : p'.running[i]? with
  | none =>
    rw [show p'.pick s i = (p', s) by simp only [Pool.pick, hu]]
    exact ⟨[], h⟩
  | some y =>
    cases y with
    | none =>
      rw [show p'.pick s i = (p', s) by simp only [Pool.pick, hu]]
      exact ⟨[], h⟩
    | some u =>
      rw [hu] at hi
      cases ht : p.running[i]? with
      | none => rw [ht] at hi; cases hi
      | some z =>
        rw [ht] at hi
        cases hi with
        | some hz =>
          cases hz with
          | some htu => exact h.pick_task htu ht hu

theorem Agrees.follow (h : Agrees f p x p' s) (schedule : List Nat) :
    ∃ picks, Agrees f (p.follow x picks).1 (p.follow x picks).2 (p'.follow s schedule).1
      (p'.follow s schedule).2 := by
  induction schedule generalizing p x p' s with
  | nil => exact ⟨[], h⟩
  | cons i schedule ih =>
    obtain ⟨picks, hpicks⟩ := h.pick i
    obtain ⟨picks', hpicks'⟩ := ih hpicks
    exact ⟨picks ++ picks', by rw [follow_append]; exact hpicks'⟩

theorem Observes.drain (h : Observes f running running') (x : σ × τ) :
    (drain running x).1 = (drain running' x.1).1.map f ∧
      (drain running x).2.1 = (drain running' x.1).2 := by
  induction running' generalizing running x with
  | nil =>
    cases running with
    | nil => exact ⟨rfl, rfl⟩
    | cons y running => cases h 0
  | cons y running' ih =>
    cases running with
    | nil => cases h 0
    | cons z running =>
      have hrest : Observes f running running' := fun i => h (i + 1)
      cases h 0 with
      | some hzy =>
        cases hzy with
        | none => exact ih hrest x
        | some htu =>
          obtain ⟨hresult, hstate⟩ := htu.run x
          obtain ⟨hresults, hend⟩ := ih hrest (Task.run _ x).2
          rw [hstate] at hresults hend
          refine ⟨?_, hend⟩
          show (Task.run _ x).1 :: (Pool.drain running (Task.run _ x).2).1 = _
          rw [hresult, hresults]
          rfl

end

/-- **Every interleaving of tasks can be observed.** -/
theorem exists_run_observes {tasks : List (Task (σ × τ) β)} {tasks' : List (Task σ α)}
    (h : ∀ i : Nat, Option.Rel (Task.Observes f) tasks[i]? tasks'[i]?) (schedule : List Nat) (x : σ × τ) :
    ∃ picks notes, Pool.run picks tasks x =
      ((Pool.run schedule tasks' x.1).1.map f, ((Pool.run schedule tasks' x.1).2, notes)) := by
  have hstart : Agrees f ⟨tasks.map some, []⟩ x ⟨tasks'.map some, []⟩ x.1 := by
    refine ⟨fun i => ?_, rfl, rfl⟩
    show Option.Rel _ (tasks.map some)[i]? (tasks'.map some)[i]?
    have hi := h i
    rw [List.getElem?_map, List.getElem?_map]
    cases ht : tasks[i]? <;> cases hu : tasks'[i]? <;> rw [ht, hu] at hi <;> cases hi
    · exact .none
    · next htu => exact .some (.some htu)
  obtain ⟨picks, hpicks⟩ := hstart.follow schedule
  obtain ⟨hresults, hend⟩ := hpicks.running.drain (Pool.follow ⟨tasks.map some, []⟩ x picks).2
  rw [hpicks.state] at hresults hend
  refine ⟨picks, _, Prod.ext ?_ (Prod.ext hend rfl)⟩
  show (Pool.follow ⟨tasks.map some, []⟩ x picks).1.finished ++ (Pool.drain _ _).1 = _
  rw [hpicks.finished, hresults, ← List.map_append]
  rfl

end Pool

end AxisNorm
