import AxisNorm.Cache
import AxisNorm.Proofs.Task.Agreement

/-!
# Histories of a cache

Callers request descriptors and clear the cache, and their steps interleave in any way.

* `History`: the calls, and the schedule that names the call which takes the next step.
* `History.Decides`, `History.Returns`, `History.Clears`: what a step of a history does.
* `Phase`: how far a call has got. The pool of calls goes on as the phases do (`History.running_eq`), and
  `Phase.Moves` says once what a step can do.
-/

namespace AxisNorm

namespace Cache

/-- What a caller does with the cache. -/
inductive Call where
  | request (op : Operator)
  | clear

/-- What a call hands in; a caller that clears the cache gets nothing. -/
abbrev Answer := Option (Except (Failure DescriptorError) SharedDescriptor)

/-- The steps of a call. -/
def Call.task : Call → Task Cache Answer
  | .request op => (Cache.request op).map some
  | .clear => .act Cache.clear fun _ => .done none

end Cache

open Cache

/-- Calls whose steps interleave; the schedule names the calls by their places. -/
structure History where
  calls : List Call
  schedule : List Nat

namespace History

variable (h : History)

/-- The calls under way and the cache after the first `n` steps. -/
def moment (n : Nat) : Pool Cache Answer × Cache :=
  Pool.follow ⟨(h.calls.map Call.task).map some, []⟩ Cache.empty (h.schedule.take n)

def running (n : Nat) : List (Option (Task Cache Answer)) := (h.moment n).1.running

def cache (n : Nat) : Cache := (h.moment n).2

/-- With step `n` call `i` comes to know its answer. -/
def Decides (i n : Nat) (r : Answer) : Prop :=
  h.schedule[n]? = some i ∧ (∃ effect next, (h.running n)[i]? = some (some (.act effect next))) ∧
    (h.running (n + 1))[i]? = some (some (.done r))

/-- With step `n` call `i` hands in its answer. -/
def Returns (i n : Nat) (r : Answer) : Prop :=
  h.schedule[n]? = some i ∧ (h.running n)[i]? = some (some (.done r))

/-- Step `n` clears the cache. -/
def Clears (n : Nat) : Prop := ∃ i, h.calls[i]? = some .clear ∧ h.Decides i n none

theorem moment_succ {n i : Nat} (hn : h.schedule[n]? = some i) :
    h.moment (n + 1) = (h.moment n).1.pick (h.moment n).2 i := by
  obtain ⟨hlt, hi⟩ := List.getElem?_eq_some_iff.mp hn
  rw [moment, List.take_succ_eq_append_getElem hlt, hi, Pool.follow_append]
  rfl

theorem moment_of_none {n : Nat} (hn : h.schedule[n]? = none) : h.moment (n + 1) = h.moment n := by
  have hlength := List.getElem?_eq_none_iff.mp hn
  rw [moment, moment, List.take_of_length_le hlength, List.take_of_length_le (by omega)]

end History

theorem eq_or_of_getElem?_set {α : Type} {l : List α} {i j : Nat} {b x : α}
    (h : (l.set i b)[j]? = some x) : j = i ∧ x = b ∨ j ≠ i ∧ l[j]? = some x := by
  by_cases hij : i = j
  · subst hij
    have hlt : i < l.length := by simpa using (List.getElem?_eq_some_iff.mp h).1
    rw [List.getElem?_set_self hlt] at h
    exact .inl ⟨rfl, (Option.some.inj h).symm⟩
  · rw [List.getElem?_set_ne hij] at h
    exact .inr ⟨Ne.symm hij, h⟩

/-! ## Phases -/

/-- How far a call has got. -/
inductive Phase where
  | looking (op : Operator)
  | building (op : Operator) (built : Descriptor)
  | inserting (op : Operator) (d : SharedDescriptor)
  | clearing
  | settled (r : Answer)
  | returned

namespace Phase

/-- What is left of a request once its descriptor is there as an object of its own. -/
def insertion (op : Operator) (d : SharedDescriptor) : Task Cache Answer :=
  .act (insertIfAbsent · op d) fun c => .done (some (.ok ((c.lookup? op).getD d)))

/-- What is left of a request that did not find its description. -/
def creation (op : Operator) (built : Descriptor) : Task Cache Answer :=
  .act advance fun c => insertion op ⟨c.fresh, built⟩

/-- What is left of a call. -/
def place : Phase → Option (Task Cache Answer)
  | looking op => some (Call.request op).task
  | building op built => some (creation op built)
  | inserting op d => some (insertion op d)
  | clearing => some Call.clear.task
  | settled r => some (.done r)
  | returned => none

/-- The phase of a call that has not taken a step. -/
def first : Call → Phase
  | .request op => looking op
  | .clear => clearing

/-- The call that is in a phase, if the phase tells. -/
def call? : Phase → Option Call
  | looking op | building op _ | inserting op _ => some (.request op)
  | clearing => some .clear
  | settled _ | returned => none

/-- At most so many steps are left. -/
def left : Phase → Nat
  | looking _ => 4
  | building _ _ => 3
  | inserting _ _ | clearing => 2
  | settled _ => 1
  | returned => 0

theorem place_eq_done_iff {a : Phase} {r : Answer} : a.place = some (.done r) ↔ a = settled r := by
  cases a with
  | settled r' => simp [place]
  | looking op => rw [place, Call.task, Cache.request, Task.map]; simp
  | building | inserting | clearing | returned => simp [place, creation, insertion, Call.task]

theorem place_eq_none_iff {a : Phase} : a.place = none ↔ a = returned := by
  cases a with
  | returned => simp [place]
  | looking | building | inserting | clearing | settled => simp [place]

theorem place_first (call : Call) : (first call).place = some call.task := by
  cases call with
  | request op => rfl
  | clear => rfl

/-- What the step of a call does: to its phase, and to the cache. -/
inductive Moves (c : Cache) : Phase → Phase → Cache → Prop
  | found {op : Operator} {d : SharedDescriptor} (hd : c.lookup? op = some d) :
    Moves c (looking op) (settled (some (.ok d))) c
  | failed {op : Operator} {e : Failure DescriptorError} (hnone : c.lookup? op = none)
    (he : Descriptor.ofOperator op = .error e) : Moves c (looking op) (settled (some (.error e))) c
  | missed {op : Operator} {built : Descriptor} (hnone : c.lookup? op = none)
    (hbuilt : Descriptor.ofOperator op = .ok built) : Moves c (looking op) (building op built) c
  | created (op : Operator) (built : Descriptor) :
    Moves c (building op built) (inserting op ⟨c.fresh, built⟩) c.advance
  | inserted (op : Operator) (d : SharedDescriptor) :
    Moves c (inserting op d) (settled (some (.ok ((c.lookup? op).getD d)))) (c.insertIfAbsent op d)
  | cleared : Moves c clearing (settled none) c.clear
  | handedIn (r : Answer) : Moves c (settled r) returned c

theorem task_request (op : Operator) : (Call.request op).task = .act id fun c =>
    match c.lookup? op with
    | some d => .done (some (.ok d))
    | none =>
      match Descriptor.ofOperator op with
      | .error e => .done (some (.error e))
      | .ok built => creation op built := by
  rw [Call.task, Cache.request, Task.map]
  congr 1
  funext c
  cases c.lookup? op with
  | some d => rfl
  | none =>
    cases Descriptor.ofOperator op with
    | error e => rfl
    | ok built => rfl

namespace Moves

variable {c c' : Cache} {a b : Phase}

theorem left_lt (h : Moves c a b c') : b.left < a.left := by
  cases h with
  | found | failed | missed | created | inserted | cleared | handedIn => simp [left]

theorem call? (h : Moves c a b c') {call : Call} (hcall : call ∈ b.call?) : call ∈ a.call? := by
  cases h with
  | missed | created => exact hcall
  | found | failed | inserted | cleared | handedIn => cases hcall

theorem eq_settled (h : Moves c a returned c') : ∃ r, a = settled r := by
  cases h with
  | handedIn r => exact ⟨r, rfl⟩

theorem cleared_eq (h : Moves c a (settled none) c') : a = clearing ∧ c' = c.clear := by
  cases h with
  | cleared => exact ⟨rfl, rfl⟩

theorem known {d : SharedDescriptor} (h : Moves c a (settled (some (.ok d))) c') : ∃ op,
    (.request op) ∈ a.call? ∧ (a = looking op ∧ c.lookup? op = some d ∧ c' = c ∨
      ∃ made, a = inserting op made ∧ d = (c.lookup? op).getD made ∧ c' = c.insertIfAbsent op made) := by
  cases h with
  | found hd => exact ⟨_, rfl, .inl ⟨rfl, hd, rfl⟩⟩
  | inserted op made => exact ⟨op, rfl, .inr ⟨made, rfl, rfl, rfl⟩⟩

theorem error {e : Failure DescriptorError} (h : Moves c a (settled (some (.error e))) c') : ∃ op,
    (.request op) ∈ a.call? ∧ Descriptor.ofOperator op = .error e := by
  cases h with
  | failed _ he => exact ⟨_, rfl, he⟩

theorem place_of_settled {r : Answer} (h : Moves c a (settled r) c') :
    ∃ effect next, a.place = some (.act effect next) := by
  cases h with
  | found | failed => exact ⟨_, _, congrArg some (task_request _)⟩
  | inserted | cleared => exact ⟨_, _, rfl⟩

end Moves

theorem exists_moves {p : Pool Cache Answer} {c : Cache} {i : Nat} {a : Phase}
    (hi : p.running[i]? = some a.place) :
    a = returned ∧ (p.pick c i) = (p, c) ∨ ∃ b, Moves c a b (p.pick c i).2 ∧
      (p.pick c i).1.running = p.running.set i b.place := by
  unfold Pool.pick
  cases a with
  | looking op =>
    rw [place, task_request] at hi
    rw [hi]
    dsimp only
    refine .inr ?_
    cases hlookup : c.lookup? op with
    | some d => exact ⟨_, .found hlookup, rfl⟩
    | none =>
      cases hbuilt : Descriptor.ofOperator op with
      | error e => exact ⟨_, .failed hlookup hbuilt, rfl⟩
      | ok built => exact ⟨_, .missed hlookup hbuilt, rfl⟩
  | building op built =>
    rw [place, creation] at hi
    rw [hi]
    exact .inr ⟨_, .created op built, rfl⟩
  | inserting op d =>
    rw [place, insertion] at hi
    rw [hi]
    exact .inr ⟨_, .inserted op d, rfl⟩
  | clearing =>
    rw [place, Call.task] at hi
    rw [hi]
    exact .inr ⟨_, .cleared, rfl⟩
  | settled r =>
    rw [place] at hi
    rw [hi]
    exact .inr ⟨_, .handedIn r, rfl⟩
  | returned =>
    rw [place] at hi
    rw [hi]
    exact .inl ⟨rfl, rfl⟩

end Phase

end AxisNorm
