import AxisNorm.Proofs.Task.Stutter

/-!
# Contracts between tasks

A task in a pool runs under a contract: what the others may do to the state between its steps
(`rely`) and what its own steps may do (`guarantee`).

* `Task.Ensures`: under its contract a task keeps its guarantee and ends with a result and a state
  that satisfy a postcondition.
* `Pool.run_ensures`: **tasks whose guarantees the others rely on end as they ensure, under every
  schedule.**
-/

namespace AxisNorm

/-- What the steps of others and a task's own steps may do to the state. -/
structure Contract (σ : Type) where
  rely : σ → σ → Prop
  guarantee : σ → σ → Prop
  rely_refl : ∀ s, rely s s
  rely_trans : ∀ {s s' s''}, rely s s' → rely s' s'' → rely s s''
  guarantee_refl : ∀ s, guarantee s s
  guarantee_trans : ∀ {s s' s''}, guarantee s s' → guarantee s' s'' → guarantee s s''

/-- Everybody may do anything. -/
def Contract.any (σ : Type) : Contract σ where
  rely _ _ := True
  guarantee _ _ := True
  rely_refl _ := trivial
  rely_trans _ _ := trivial
  guarantee_refl _ := trivial
  guarantee_trans _ _ := trivial

namespace Task

variable {σ α β : Type} {c : Contract σ} {post : α → σ → Prop}

/-- From a state that others keep changing within `rely`, every step keeps the guarantee, and the
result satisfies the postcondition for as long as only others go on. -/
def Ensures (c : Contract σ) (post : α → σ → Prop) : Task σ α → σ → Prop
  | .done a, s => ∀ s', c.rely s s' → post a s'
  | .act effect next, s =>
    ∀ s', c.rely s s' → c.guarantee s' (effect s') ∧ (next s').Ensures c post (effect s')

namespace Ensures

variable {t u : Task σ α} {s s' : σ}

theorem rely (h : t.Ensures c post s) (hs : c.rely s s') : t.Ensures c post s' := by
  cases t with
  | done a => exact fun r hr => h r (c.rely_trans hs hr)
  | act effect next => exact fun r hr => h r (c.rely_trans hs hr)

theorem weaken {post' : α → σ → Prop} (h : t.Ensures c post s) (hp : ∀ a s, post a s → post' a s) :
    t.Ensures c post' s := by
  induction t generalizing s with
  | done a => exact fun r hr => hp a r (h r hr)
  | act effect next ih => exact fun r hr => ⟨(h r hr).1, ih r (h r hr).2⟩

theorem map {f : α → β} {post : β → σ → Prop} (h : t.Ensures c (fun a => post (f a)) s) :
    (t.map f).Ensures c post s := by
  induction t generalizing s with
  | done a => exact h
  | act effect next ih => exact fun r hr => ⟨(h r hr).1, ih r (h r hr).2⟩

theorem any (t : Task σ α) (s : σ) : t.Ensures (.any σ) (fun _ _ => True) s := by
  induction t generalizing s with
  | done a => exact fun _ _ => trivial
  | act effect next ih => exact fun s' _ => ⟨trivial, ih s' _⟩

theorem of_stutters (hs : Stutters t u) (h : u.Ensures c post s) : t.Ensures c post s := by
  induction hs generalizing s with
  | done a => exact h
  | idle idle _ ih =>
    intro r hr
    rw [idle]
    exact ⟨c.guarantee_refl r, ih r (h.rely hr)⟩
  | act _ ih => exact fun r hr => ⟨(h r hr).1, ih r (h r hr).2⟩

theorem run (h : t.Ensures c post s) :
    (∀ r, c.rely (t.run s).2 r → post (t.run s).1 r) ∧ c.guarantee s (t.run s).2 := by
  induction t generalizing s with
  | done a => exact ⟨h, c.guarantee_refl s⟩
  | act effect next ih =>
    obtain ⟨hg, hn⟩ := h s (c.rely_refl s)
    obtain ⟨hp, hg'⟩ := ih s hn
    exact ⟨hp, c.guarantee_trans hg hg'⟩

end Ensures

end Task

namespace Pool

variable {σ α : Type}

/-- A place in a pool: a task under way, or the result that it handed in. -/
def Place (c : Contract σ) (post : α → σ → Prop) (s : σ) : Option (Task σ α) → Option α → Prop
  | some t, none => t.Ensures c post s
  | none, some a => ∀ s', c.rely s s' → post a s'
  | _, _ => False

theorem Place.rely {c : Contract σ} {post : α → σ → Prop} {s s' : σ} {x : Option (Task σ α)}
    {y : Option α} (h : Place c post s x y) (hs : c.rely s s') : Place c post s' x y := by
  cases x <;> cases y
  · exact h
  · exact fun r hr => h r (c.rely_trans hs hr)
  · exact Task.Ensures.rely h hs
  · exact h

/-- The places of a pool, each with its own contract and postcondition. -/
structure Sound (c : Nat → Contract σ) (post : Nat → α → σ → Prop) (s : σ)
    (running : List (Option (Task σ α))) (answers : List (Option α)) : Prop where
  length : answers.length = running.length
  place : ∀ i x y, running[i]? = some x → answers[i]? = some y → Place (c i) (post i) s x y

variable {c : Nat → Contract σ} {post : Nat → α → σ → Prop} {s : σ}
  {running : List (Option (Task σ α))} {answers : List (Option α)}

theorem Sound.place_of_running {i : Nat} {x : Option (Task σ α)} (h : Sound c post s running answers)
    (hx : running[i]? = some x) : ∃ y, answers[i]? = some y ∧ Place (c i) (post i) s x y := by
  have hi : i < answers.length := h.length ▸ (List.getElem?_eq_some_iff.mp hx).1
  have hy := List.getElem?_eq_getElem hi
  exact ⟨_, hy, h.place i x _ hx hy⟩

theorem Sound.head {x : Option (Task σ α)} {y : Option α}
    (h : Sound c post s (x :: running) (y :: answers)) : Place (c 0) (post 0) s x y :=
  h.place 0 x y rfl rfl

theorem Sound.tail {x : Option (Task σ α)} {y : Option α}
    (h : Sound c post s (x :: running) (y :: answers)) :
    Sound (fun i => c (i + 1)) (fun i => post (i + 1)) s running answers :=
  ⟨by simpa using h.length, fun i x y hx hy => h.place (i + 1) x y (by simpa using hx) (by simpa using hy)⟩

theorem Sound.rely {s' : σ} (h : Sound c post s running answers)
    (hs : ∀ i < running.length, (c i).rely s s') : Sound c post s' running answers :=
  ⟨h.length, fun i x y hx hy =>
    (h.place i x y hx hy).rely (hs i (List.getElem?_eq_some_iff.mp hx).1)⟩

theorem Sound.set {s' : σ} {i : Nat} {x : Option (Task σ α)} {y : Option α}
    (h : Sound c post s running answers) (hi : Place (c i) (post i) s' x y)
    (hs : ∀ j < running.length, j ≠ i → (c j).rely s s') :
    Sound c post s' (running.set i x) (answers.set i y) := by
  refine ⟨by simp [h.length], fun j x' y' hx hy => ?_⟩
  rw [List.getElem?_set] at hx hy
  by_cases hj : i = j
  · subst hj
    rw [if_pos rfl] at hx hy
    split at hx
    · split at hy
      · obtain rfl := Option.some.inj hx
        obtain rfl := Option.some.inj hy
        exact hi
      · cases hy
    · cases hx
  · rw [if_neg hj] at hx hy
    exact (h.place j x' y' hx hy).rely (hs j (List.getElem?_eq_some_iff.mp hx).1 (Ne.symm hj))

theorem perm_set_some {answers : List (Option α)} {i : Nat} (a : α) (h : answers[i]? = some none) :
    ((answers.set i (some a)).filterMap id).Perm (a :: answers.filterMap id) := by
  induction answers generalizing i with
  | nil => simp at h
  | cons y answers ih =>
    cases i with
    | zero =>
      obtain rfl : y = none := by simpa using h
      exact .refl _
    | succ i =>
      have hrest := ih (List.getElem?_cons_succ ▸ h)
      cases y with
      | none => exact hrest
      | some b => exact (hrest.cons b).trans (.swap a b _)

section

variable (compatible : ∀ i j, i ≠ j → ∀ s s', (c i).guarantee s s' → (c j).rely s s')

include compatible

/-- One pick keeps the pool sound, and the state changes only by a guarantee. -/
theorem Sound.pick {p : Pool σ α} (h : Sound c post s p.running answers)
    (hf : p.finished.Perm (answers.filterMap id)) (i : Nat) :
    ∃ answers', Sound c post (p.pick s i).2 (p.pick s i).1.running answers' ∧
      (p.pick s i).1.finished.Perm (answers'.filterMap id) ∧
      (p.pick s i).1.running.length = p.running.length ∧
      ((p.pick s i).2 = s ∨ i < p.running.length ∧ (c i).guarantee s (p.pick s i).2) := by
  unfold Pool.pick
  split
  case h_1 a hi =>
    obtain ⟨y, hy, hp⟩ := h.place_of_running hi
    cases y with
    | some b => exact hp.elim
    | none =>
      -- The result takes the empty answer of its place.
      refine ⟨answers.set i (some a), h.set hp fun j _ _ => (c j).rely_refl s, ?_, by simp, .inl rfl⟩
      exact ((List.perm_append_singleton a _).trans (hf.cons a)).trans (perm_set_some a hy).symm
  case h_2 effect next hi =>
    obtain ⟨y, hy, hp⟩ := h.place_of_running hi
    cases y with
    | some b => exact hp.elim
    | none =>
      -- The task keeps its place, and all others rely on what it did.
      obtain ⟨hg, hn⟩ := hp s ((c i).rely_refl s)
      refine ⟨answers, ?_, hf, by simp, .inr ⟨(List.getElem?_eq_some_iff.mp hi).1, hg⟩⟩
      have hset := h.set (show Place (c i) (post i) _ (some (next s)) none from hn)
        fun j _ hj => compatible i j (Ne.symm hj) _ _ hg
      obtain ⟨hlt, hnone⟩ := List.getElem?_eq_some_iff.mp hy
      have hself := List.set_getElem_self hlt
      rw [hnone] at hself
      rwa [hself] at hset
  case h_3 => exact ⟨answers, h, hf, rfl, .inl rfl⟩

theorem Sound.drain (h : Sound c post s running answers) :
    ∃ results : List α, results.length = running.length ∧
      ((drain running s).1 ++ answers.filterMap id).Perm results ∧
      (∀ i a, results[i]? = some a → ∀ r, (c i).rely (drain running s).2 r → post i a r) ∧
      ∀ d : Contract σ, (∀ i < running.length, ∀ s s', (c i).guarantee s s' → d.rely s s') →
        d.rely s (drain running s).2 := by
  induction running generalizing c post s answers with
  | nil =>
    obtain rfl := List.eq_nil_of_length_eq_zero h.length
    exact ⟨[], rfl, .refl _, by simp, fun d _ => d.rely_refl s⟩
  | cons x running ih =>
    obtain ⟨y, answers, rfl⟩ := List.exists_cons_of_length_eq_add_one h.length
    have hcompatible : ∀ i j, i ≠ j → ∀ s s', (c (i + 1)).guarantee s s' → (c (j + 1)).rely s s' :=
      fun i j hij => compatible _ _ (by omega)
    have hp := h.head
    cases x with
    | none =>
      cases y with
      | none => exact hp.elim
      | some a =>
        obtain ⟨results, hl, hperm, hpost, hrely⟩ := ih hcompatible h.tail
        refine ⟨a :: results, by simp [hl], ?_, ?_, fun d hd => hrely d fun i hi => hd _ (by simpa using hi)⟩
        · exact List.perm_middle.trans (hperm.cons a)
        · rintro (_ | i) b hb r hr
          · obtain rfl : a = b := by simpa using hb
            refine hp r ((c 0).rely_trans (hrely (c 0) fun i _ => compatible _ _ (by omega)) hr)
          · exact hpost i b (by simpa using hb) r hr
    | some t =>
      cases y with
      | some a => exact hp.elim
      | none =>
        -- The first task runs to its end, which is one long step for all others.
        obtain ⟨hend, hg⟩ := Task.Ensures.run hp
        have htail := h.tail.rely fun i _ => compatible 0 (i + 1) (by omega) _ _ hg
        obtain ⟨results, hl, hperm, hpost, hrely⟩ := ih hcompatible htail
        refine ⟨(t.run s).1 :: results, by simp [hl], hperm.cons _, ?_, fun d hd => ?_⟩
        · rintro (_ | i) b hb r hr
          · obtain rfl : (t.run s).1 = b := by simpa using hb
            exact hend r ((c 0).rely_trans (hrely (c 0) fun i _ => compatible _ _ (by omega)) hr)
          · exact hpost i b (by simpa using hb) r hr
        · exact d.rely_trans (hd 0 (by simp) _ _ hg) (hrely d fun i hi => hd _ (by simpa using hi))

theorem Sound.follow {p : Pool σ α} (h : Sound c post s p.running answers)
    (hf : p.finished.Perm (answers.filterMap id)) (schedule : List Nat) :
    ∃ answers', Sound c post (p.follow s schedule).2 (p.follow s schedule).1.running answers' ∧
      (p.follow s schedule).1.finished.Perm (answers'.filterMap id) ∧
      (p.follow s schedule).1.running.length = p.running.length ∧
      ∀ d : Contract σ, (∀ i < p.running.length, ∀ s s', (c i).guarantee s s' → d.rely s s') →
        d.rely s (p.follow s schedule).2 := by
  induction schedule generalizing p s answers with
  | nil => exact ⟨answers, h, hf, rfl, fun d _ => d.rely_refl s⟩
  | cons i schedule ih =>
    obtain ⟨answers', h', hf', hl', hg⟩ := h.pick compatible hf i
    obtain ⟨answers'', h'', hf'', hl'', hrely⟩ := ih h' hf'
    refine ⟨answers'', h'', hf'', hl''.trans hl', fun d hd => ?_⟩
    refine d.rely_trans ?_ (hrely d fun j hj => hd j (hl' ▸ hj))
    rcases hg with he | ⟨hi, hg⟩
    · rw [he]
      exact d.rely_refl s
    · exact hd i hi _ _ hg

/-- **Tasks whose guarantees the others rely on end as they ensure, under every schedule.** The
results are theirs in the order of completion, and whoever relies on all guarantees sees only
changes within its `rely`. -/
theorem run_ensures {tasks : List (Task σ α)}
    (h : ∀ i t, tasks[i]? = some t → Task.Ensures (c i) (post i) t s) (schedule : List Nat) :
    ∃ results : List α, results.length = tasks.length ∧
      (Pool.run schedule tasks s).1.Perm results ∧
      (∀ i a, results[i]? = some a → post i a (Pool.run schedule tasks s).2) ∧
      ∀ d : Contract σ, (∀ i < tasks.length, ∀ s s', (c i).guarantee s s' → d.rely s s') →
        d.rely s (Pool.run schedule tasks s).2 := by
  have hstart : Sound c post s (tasks.map some) (tasks.map fun _ => none) := by
    refine ⟨by simp, fun i x y hx hy => ?_⟩
    rw [List.getElem?_map, Option.map_eq_some_iff] at hx hy
    obtain ⟨t, ht, rfl⟩ := hx
    obtain ⟨_, _, rfl⟩ := hy
    exact h i t ht
  have hnone : (tasks.map fun _ => (none : Option α)).filterMap id = [] := by
    simp [List.filterMap_map]
  obtain ⟨answers, hsound, hf, hl, hrely⟩ :=
    hstart.follow compatible (p := ⟨tasks.map some, []⟩) (hnone ▸ .refl _) schedule
  obtain ⟨results, hl', hperm, hpost, hrely'⟩ := hsound.drain compatible
  have hlen := hl.trans (List.length_map some)
  refine ⟨results, hl'.trans hlen, ?_, fun i a ha => hpost i a ha _ ((c i).rely_refl _), fun d hd => ?_⟩
  · exact ((hf.append_right _).trans List.perm_append_comm).trans hperm
  · exact d.rely_trans (hrely d fun i hi => hd i (by simpa using hi))
      (hrely' d fun i hi => hd i (hlen ▸ hi))

end

end Pool

end AxisNorm
