/-!
# Tasks on a shared state

A `Task` is a computation that takes atomic steps on a state other tasks use as well.

* `Task.run`: all steps of one task, one after the other.
* `Pool.run`: several tasks under a schedule, which names the task that takes the next step; what is
  left when the schedule ends runs task after task. Every interleaving is that of some schedule.
-/

namespace AxisNorm

/-- A computation in atomic steps: a step changes the state, and what it saw decides what follows. -/
inductive Task (σ α : Type) where
  | done (result : α)
  | act (effect : σ → σ) (next : σ → Task σ α)

namespace Task

variable {σ α β : Type}

/-- The same steps with another result. -/
def map (f : α → β) : Task σ α → Task σ β
  | .done a => .done (f a)
  | .act effect next => .act effect fun s => (next s).map f

/-- The result and the state after all steps. -/
def run : Task σ α → σ → α × σ
  | .done a, s => (a, s)
  | .act effect next, s => (next s).run (effect s)

@[simp] theorem run_done (a : α) (s : σ) : (Task.done a).run s = (a, s) := rfl

@[simp] theorem run_act (effect : σ → σ) (next : σ → Task σ α) (s : σ) :
    (Task.act effect next).run s = (next s).run (effect s) := rfl

@[simp] theorem run_map (f : α → β) (t : Task σ α) (s : σ) :
    (t.map f).run s = (f (t.run s).1, (t.run s).2) := by
  induction t generalizing s with
  | done a => rfl
  | act effect next ih => simp [map, ih]

end Task

/-- Tasks under way. A task leaves its place when it hands in its result. -/
structure Pool (σ α : Type) where
  running : List (Option (Task σ α))
  /-- The results, in the order in which they were handed in. -/
  finished : List α

namespace Pool

variable {σ α : Type}

/-- Task `i` takes its next step, or hands in its result if it has no more. -/
def pick (p : Pool σ α) (s : σ) (i : Nat) : Pool σ α × σ :=
  match p.running[i]? with
  | some (some (.done a)) => ({ running := p.running.set i none, finished := p.finished ++ [a] }, s)
  | some (some (.act effect next)) =>
    ({ p with running := p.running.set i (some (next s)) }, effect s)
  | _ => (p, s)

/-- What is under way is run task after task. -/
def drain : List (Option (Task σ α)) → σ → List α × σ
  | [], s => ([], s)
  | none :: ts, s => drain ts s
  | some t :: ts, s =>
    let (a, s) := t.run s
    let (rest, s) := drain ts s
    (a :: rest, s)

/-- The pool and the state after the picks of a schedule. -/
def follow (p : Pool σ α) (s : σ) : (schedule : List Nat) → Pool σ α × σ
  | [] => (p, s)
  | i :: schedule =>
    let (p, s) := p.pick s i
    p.follow s schedule

/-- The results in the order of completion, and the last state. -/
def run (schedule : List Nat) (tasks : List (Task σ α)) (s : σ) : List α × σ :=
  let (p, s) := follow ⟨tasks.map some, []⟩ s schedule
  let (rest, s) := drain p.running s
  (p.finished ++ rest, s)

end Pool

end AxisNorm
