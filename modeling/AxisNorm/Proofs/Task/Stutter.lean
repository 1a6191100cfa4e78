import AxisNorm.Task

/-!
# Idle steps

`Task.Stutters`: a task that does what another does, with idle steps added. A run does not see the
difference, and neither does an interleaving.
-/

namespace AxisNorm.Task

variable {σ α : Type}

/-- The first task takes the steps of the second, in their order, and idle steps between them. -/
inductive Stutters : Task σ α → Task σ α → Prop
  | done (a : α) : Stutters (.done a) (.done a)
  | idle {effect : σ → σ} {next : σ → Task σ α} {u : Task σ α} (idle : ∀ s, effect s = s)
    (h : ∀ s, Stutters (next s) u) : Stutters (.act effect next) u
  | act {effect : σ → σ} {next next' : σ → Task σ α} (h : ∀ s, Stutters (next s) (next' s)) :
    Stutters (.act effect next) (.act effect next')

namespace Stutters

variable {t u : Task σ α}

theorem run_eq (h : Stutters t u) (s : σ) : t.run s = u.run s := by
  induction h generalizing s with
  | done a => rfl
  | idle idle _ ih => rw [run_act, idle, ih]
  | act _ ih => rw [run_act, run_act, ih]

end Stutters

end AxisNorm.Task
