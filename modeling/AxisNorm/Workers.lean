import AxisNorm.Arithmetic

/-!
# Pools of worker threads

What a kernel asks of the library that runs threads, and what that library promises.

* `collectInOrder`: a list of results, made one after the other.
* `Workers`: a host and its library of threads. It starts pools, or refuses to, and the threads of a pool
  make a list of results together.
* `Workers.sequential`: a pool of which one thread does all the work.
-/

namespace AxisNorm

section

variable {α β ε ω : Type}

/-- Applies a function to the elements of a list, one after the other, up to the first failure. With the
results comes what was reported. -/
def collectInOrder (f : α → Except ε β × List ω) : List α → Except ε (List β) × List ω
  | [] => (.ok [], [])
  | x :: xs =>
    match f x with
    | (.error e, reports) => (.error e, reports)
    | (.ok y, reports) =>
      let (ys, more) := collectInOrder f xs
      (ys.map (y :: ·), reports ++ more)

variable {f : α → Except ε β × List ω} {xs : List α}

theorem collectInOrder_eq_ok {ys : List β} (h : (collectInOrder f xs).1 = .ok ys) :
    xs.map (fun x => (f x).1) = ys.map .ok ∧ (collectInOrder f xs).2 = xs.flatMap fun x => (f x).2 := by
  induction xs generalizing ys with
  | nil =>
    cases h
    exact ⟨rfl, rfl⟩
  | cons x xs ih =>
    rw [collectInOrder] at h ⊢
    rcases hx : f x with ⟨result, reports⟩
    rw [hx] at h
    cases result with
    | error e => cases h
    | ok y =>
      obtain ⟨rest, hrest, rfl⟩ := map_eq_ok_iff.mp h
      obtain ⟨hresults, hreports⟩ := ih hrest
      dsimp only
      rw [List.map_cons, List.map_cons, List.flatMap_cons, hresults, hreports, hx]
      exact ⟨rfl, rfl⟩

theorem collectInOrder_eq_error {e : ε} (h : (collectInOrder f xs).1 = .error e) : ∃ x ∈ xs, (f x).1 = .error e := by
  induction xs with
  | nil => cases h
  | cons x xs ih =>
    rw [collectInOrder] at h
    rcases hx : f x with ⟨result, reports⟩
    rw [hx] at h
    cases result with
    | error e' =>
      cases h
      exact ⟨x, List.mem_cons_self, by rw [hx]⟩
    | ok y =>
      obtain ⟨z, hz, herror⟩ := ih (map_eq_error_iff.mp h)
      exact ⟨z, List.mem_cons_of_mem x hz, herror⟩

end

/-- A host and its library of threads. It is left open which pools the host refuses to start, which thread
of a pool takes up which element of a list and when, and which failure is given if there are several. -/
structure Workers where
  /-- Starts a pool of that many threads. A host that refuses it says why. -/
  start : (threads : Nat) → Except String Unit
  /-- Applies a function to the elements of a list on the threads of a pool. The results have `width` bytes
  each. -/
  collect : {α β ε ω : Type} → (width : Nat) → (α → Except ε β × List ω) → List α →
    Except (Failure ε) (List β) × List ω
  /-- The results are those of all elements, in the order of the elements, whatever the order in which they
  were made. -/
  collect_ok : ∀ {α β ε ω : Type} {width : Nat} {f : α → Except ε β × List ω} {xs : List α} {ys : List β},
    (collect width f xs).1 = .ok ys →
      xs.map (fun x => (f x).1) = ys.map .ok ∧ Checked.reserve xs.length width = .ok ()
  /-- Every application has reported what it reports, in the order in which they came to it. -/
  collect_reports : ∀ {α β ε ω : Type} {width : Nat} {f : α → Except ε β × List ω} {xs : List α} {ys : List β},
    (collect width f xs).1 = .ok ys → (collect width f xs).2.Perm (xs.flatMap fun x => (f x).2)
  /-- A failure is that of one of the elements. -/
  collect_error : ∀ {α β ε ω : Type} {width : Nat} {f : α → Except ε β × List ω} {xs : List α} {e : ε},
    (collect width f xs).1 = .error (.error e) → ∃ x ∈ xs, (f x).1 = .error e
  /-- Nothing else stops it but want of room for the results. -/
  collect_stops : ∀ {α β ε ω : Type} {width : Nat} {f : α → Except ε β × List ω} {xs : List α}
      {e : ArithmeticError},
    (collect width f xs).1 = .error (.arithmetic e) → Checked.reserve xs.length width = .error e

namespace Workers

section

variable {α β ε ω : Type}

/-- A list from its other end, or as it is. -/
def turn (backwards : Bool) (xs : List α) : List α := if backwards then xs.reverse else xs

/-- Results for which there has to be room. -/
def withRoom (width : Nat) : Except ε (List β) → Except (Failure ε) (List β)
  | .error e => .error (.error e)
  | .ok ys =>
    match Checked.reserve ys.length width with
    | .error e => .error (.arithmetic e)
    | .ok () => .ok ys

theorem turn_perm (backwards : Bool) (xs : List α) : (turn backwards xs).Perm xs := by
  cases backwards
  · exact .refl xs
  · exact List.reverse_perm xs

theorem map_turn (backwards : Bool) (f : α → β) (xs : List α) :
    (turn backwards xs).map f = turn backwards (xs.map f) := by
  cases backwards
  · rfl
  · exact List.map_reverse

theorem turn_turn (backwards : Bool) (xs : List α) : turn backwards (turn backwards xs) = xs := by
  cases backwards
  · rfl
  · exact List.reverse_reverse xs

theorem withRoom_eq_ok {width : Nat} {r : Except ε (List β)} {ys : List β} (h : withRoom width r = .ok ys) :
    r = .ok ys ∧ Checked.reserve ys.length width = .ok () := by
  unfold withRoom at h
  split at h
  · cases h
  split at h
  · cases h
  next hroom =>
  cases h
  exact ⟨rfl, hroom⟩

theorem withRoom_eq_error {width : Nat} {r : Except ε (List β)} {e : ε} (h : withRoom width r = .error (.error e)) :
    r = .error e := by
  unfold withRoom at h
  split at h
  · cases h
    rfl
  · split at h <;> cases h

theorem withRoom_eq_arithmetic {width : Nat} {r : Except ε (List β)} {e : ArithmeticError}
    (h : withRoom width r = .error (.arithmetic e)) :
    ∃ ys, r = .ok ys ∧ Checked.reserve ys.length width = .error e := by
  unfold withRoom at h
  split at h
  · cases h
  next ys =>
  split at h
  · next hroom =>
    cases h
    exact ⟨ys, rfl, hroom⟩
  · cases h

/-- The results of a list, which is gone through from one end or the other. -/
def collectTurned (backwards : Bool) (f : α → Except ε β × List ω) (xs : List α) : Except ε (List β) × List ω :=
  let (ys, reports) := collectInOrder f (turn backwards xs)
  (ys.map (turn backwards), reports)

variable {backwards : Bool} {f : α → Except ε β × List ω} {xs : List α}

theorem collectTurned_eq_ok {ys : List β} (h : (collectTurned backwards f xs).1 = .ok ys) :
    xs.map (fun x => (f x).1) = ys.map .ok ∧
      (collectTurned backwards f xs).2.Perm (xs.flatMap fun x => (f x).2) := by
  obtain ⟨zs, hcollected, rfl⟩ := map_eq_ok_iff.mp h
  obtain ⟨hresults, hreports⟩ := collectInOrder_eq_ok hcollected
  rw [collectTurned, map_turn, ← hresults, map_turn, turn_turn, hreports]
  exact ⟨rfl, (turn_perm backwards xs).flatMap_right _⟩

theorem collectTurned_eq_error {e : ε} (h : (collectTurned backwards f xs).1 = .error e) :
    ∃ x ∈ xs, (f x).1 = .error e := by
  obtain ⟨x, hx, herror⟩ := collectInOrder_eq_error (map_eq_error_iff.mp h)
  exact ⟨x, (turn_perm backwards xs).mem_iff.mp hx, herror⟩

theorem length_collectTurned {ys : List β} (h : (collectTurned backwards f xs).1 = .ok ys) :
    ys.length = xs.length := by
  have hlength := congrArg List.length (collectTurned_eq_ok h).1
  rw [List.length_map, List.length_map] at hlength
  exact hlength.symm

end

/-- One thread of a pool does all the work, from one end or the other. The host refuses pools of more than
`limit` threads. -/
def sequential (limit : Nat) (backwards : Bool) : Workers where
  start threads :=
    if threads ≤ limit then .ok () else .error "Resource temporarily unavailable (os error 11)"
  collect width f xs :=
    let (ys, reports) := collectTurned backwards f xs
    (withRoom width ys, reports)
  collect_ok h := by
    obtain ⟨hcollected, hroom⟩ := withRoom_eq_ok h
    exact ⟨(collectTurned_eq_ok hcollected).1, length_collectTurned hcollected ▸ hroom⟩
  collect_reports h := (collectTurned_eq_ok (withRoom_eq_ok h).1).2
  collect_error h := collectTurned_eq_error (withRoom_eq_error h)
  collect_stops h := by
    obtain ⟨ys, hcollected, hroom⟩ := withRoom_eq_arithmetic h
    exact length_collectTurned hcollected ▸ hroom

end Workers

end AxisNorm
