import AxisNorm.Proofs.Cache.History
import AxisNorm.Proofs.Descriptor
import Mathlib.Data.List.Nodup
import Mathlib.Data.Set.Insert

/-!
# What a cache holds

* `Cache.Consistent`: one descriptor for each description, which is its own.
* `Cache.Sane`: the invariant of a cache and the calls under way. Every move keeps it (`Sane.moves`).
-/

namespace AxisNorm

namespace Cache

/-- The descriptor under a description is its own, there is one at most, and the list of the held
descriptors has exactly those that are found under a description. -/
structure Consistent (c : Cache) : Prop where
  unique : (c.entries.map (·.1)).Nodup
  key : ∀ e ∈ c.entries, e.2.descriptor.operator = e.1
  held : ∀ d, d ∈ c.held ↔ ∃ op, c.lookup? op = some d
  listed : (c.held.map (·.descriptor.operator)).Nodup

variable {c c' : Cache} {op : Operator} {d : SharedDescriptor}

theorem mem_of_lookup? (h : c.lookup? op = some d) : (op, d) ∈ c.entries := by
  obtain ⟨e, he, rfl⟩ := Option.map_eq_some_iff.mp h
  have hop : e.1 = op := by simpa using List.find?_some he
  exact hop ▸ List.mem_of_find?_eq_some he

theorem lookup?_eq_none_iff : c.lookup? op = none ↔ op ∉ c.entries.map (·.1) := by
  unfold lookup?
  rw [Option.map_eq_none_iff, List.find?_eq_none, List.mem_map]
  constructor
  · rintro h ⟨e, he, rfl⟩
    exact h e he (beq_self_eq_true e.1)
  · intro h e he hop
    exact h ⟨e, he, by simpa using hop⟩

theorem lookup?_eq_some_iff (h : (c.entries.map (·.1)).Nodup) :
    c.lookup? op = some d ↔ (op, d) ∈ c.entries := by
  refine ⟨mem_of_lookup?, fun hmem => ?_⟩
  cases hlookup : c.lookup? op with
  | none => exact absurd (List.mem_map_of_mem hmem) (lookup?_eq_none_iff.mp hlookup)
  | some d' =>
    have heq := List.inj_on_of_nodup_map h (mem_of_lookup? hlookup) hmem rfl
    rw [(Prod.mk.inj heq).2]

theorem lookup?_insertIfAbsent (c : Cache) (op : Operator) (d : SharedDescriptor) :
    (c.insertIfAbsent op d).lookup? op = some ((c.lookup? op).getD d) := by
  unfold insertIfAbsent
  cases h : c.lookup? op with
  | some d' => exact h
  | none =>
    rw [lookup?, Option.map_eq_none_iff] at h
    simp [lookup?, List.find?_append, h]

theorem lookup?_insertIfAbsent_of_some {op' : Operator} {d' : SharedDescriptor}
    (h : c.lookup? op = some d) : (c.insertIfAbsent op' d').lookup? op = some d := by
  unfold insertIfAbsent
  split
  · exact h
  · obtain ⟨e, he, rfl⟩ := Option.map_eq_some_iff.mp h
    simp [lookup?, List.find?_append, he]

theorem mem_insertIfAbsent {e : Operator × SharedDescriptor} (h : e ∈ (c.insertIfAbsent op d).entries) :
    e ∈ c.entries ∨ e = (op, d) := by
  unfold insertIfAbsent at h
  split at h
  · exact .inl h
  · simpa using h

theorem nodup_insertIfAbsent (h : (c.entries.map (·.1)).Nodup) :
    ((c.insertIfAbsent op d).entries.map (·.1)).Nodup := by
  unfold insertIfAbsent
  split
  · exact h
  · next hnone =>
    rw [List.map_append, List.map_singleton]
    exact List.nodup_append_comm.mp (List.nodup_cons.mpr ⟨lookup?_eq_none_iff.mp hnone, h⟩)

/-! ## The invariant -/

/-- The identities of the held descriptors. -/
def identities (c : Cache) : Set Nat := {x | ∃ e ∈ c.entries, e.2.identity = x}

theorem identity_mem_of_lookup? (h : c.lookup? op = some d) : d.identity ∈ c.identities :=
  ⟨_, mem_of_lookup? h, rfl⟩

end Cache

namespace Phase

/-- The identity of the descriptor that a call is about to insert. -/
def pending? : Phase → Option Nat
  | inserting _ d => some d.identity
  | looking _ | building _ _ | clearing | settled _ | returned => none

/-- What a call carries was made for its description, and its identity was given out but never held. -/
def Sane (fresh : Nat) (past : Set Nat) : Phase → Prop
  | building op built => Descriptor.ofOperator op = .ok built
  | inserting op d => Descriptor.ofOperator op = .ok d.descriptor ∧ d.identity < fresh ∧ d.identity ∉ past
  | looking _ | clearing | settled _ | returned => True

variable {c c' : Cache} {a b : Phase} {fresh fresh' : Nat} {past past' : Set Nat}

theorem Sane.mono (h : a.Sane fresh past) (hfresh : fresh ≤ fresh')
    (hpast : ∀ x ∈ past', a.pending? = some x → x ∈ past) : a.Sane fresh' past' := by
  cases a with
  | inserting op d => exact ⟨h.1, h.2.1.trans_le hfresh, fun hd => h.2.2 (hpast _ hd rfl)⟩
  | building op built => exact h
  | looking | clearing | settled | returned => trivial

theorem Sane.not_mem {x : Nat} (h : a.Sane fresh past) (hx : a.pending? = some x) : x ∉ past := by
  cases a with
  | inserting op d =>
    cases hx
    exact h.2.2
  | looking | building | clearing | settled | returned => cases hx

theorem Sane.pending_lt {x : Nat} (h : a.Sane fresh past) (hx : a.pending? = some x) : x < fresh := by
  cases a with
  | inserting op d =>
    cases hx
    exact h.2.1
  | looking | building | clearing | settled | returned => cases hx

namespace Moves

theorem fresh_le (h : Moves c a b c') : c.fresh ≤ c'.fresh := by
  cases h with
  | created => exact Nat.le_succ _
  | inserted op d =>
    unfold Cache.insertIfAbsent
    split <;> exact le_rfl
  | found | failed | missed | cleared | handedIn => exact le_rfl

/-- A descriptor that is held after a move was held before it, or the call was about to insert it. -/
theorem entries (h : Moves c a b c') {e : Operator × SharedDescriptor} (he : e ∈ c'.entries) :
    e ∈ c.entries ∨ a = inserting e.1 e.2 := by
  cases h with
  | inserted op d => exact (Cache.mem_insertIfAbsent he).imp_right fun h => by rw [h]
  | cleared => exact absurd he List.not_mem_nil
  | found | failed | missed | created | handedIn => exact .inl he

theorem identities (h : Moves c a b c') {x : Nat} (hx : x ∈ c'.identities) :
    x ∈ c.identities ∨ a.pending? = some x := by
  obtain ⟨e, he, rfl⟩ := hx
  rcases h.entries he with he | rfl
  · exact .inl ⟨e, he, rfl⟩
  · exact .inr rfl

theorem unique (h : Moves c a b c') (hc : (c.entries.map (·.1)).Nodup) : (c'.entries.map (·.1)).Nodup := by
  cases h with
  | inserted => exact Cache.nodup_insertIfAbsent hc
  | cleared => exact List.nodup_nil
  | found | failed | missed | created | handedIn => exact hc

theorem pending (h : Moves c a b c') {x : Nat} (hx : b.pending? = some x) : x = c.fresh := by
  cases h with
  | created =>
    cases hx
    rfl
  | found | failed | missed | inserted | cleared | handedIn => cases hx

theorem sane (h : Moves c a b c') (ha : a.Sane c.fresh past) (hpast : ∀ x ∈ past, x < c.fresh)
    (hheld : c.identities ⊆ past) : b.Sane c'.fresh (past ∪ c'.identities) := by
  cases h with
  | missed _ hbuilt => exact hbuilt
  | created op built =>
    refine ⟨ha, Nat.lt_succ_self _, fun hmem => ?_⟩
    exact lt_irrefl _ (hpast _ (hmem.elim id fun h => hheld h))
  | found | failed | inserted | cleared | handedIn => trivial

theorem lookup? (h : Moves c a b c') {op : Operator} {d : SharedDescriptor} (hd : c.lookup? op = some d) :
    c'.lookup? op = some d ∨ a = clearing ∧ b = settled none := by
  cases h with
  | inserted => exact .inl (Cache.lookup?_insertIfAbsent_of_some hd)
  | cleared => exact .inr ⟨rfl, rfl⟩
  | found | failed | missed | created | handedIn => exact .inl hd

end Moves

end Phase

namespace Cache

/-- A cache and calls under way. `past` has the identities of all descriptors that were ever held: no
call is about to insert one of them, and no two calls the same. -/
structure Sane (c : Cache) (phases : List Phase) (past : Set Nat) : Prop where
  unique : (c.entries.map (·.1)).Nodup
  built : ∀ e ∈ c.entries, Descriptor.ofOperator e.1 = .ok e.2.descriptor
  held : c.identities ⊆ past
  older : ∀ x ∈ past, x < c.fresh
  calls : ∀ a ∈ phases, a.Sane c.fresh past
  distinct : ∀ i j x : Nat, phases[i]?.bind Phase.pending? = some x →
    phases[j]?.bind Phase.pending? = some x → i = j

namespace Sane

variable {c c' : Cache} {phases : List Phase} {past : Set Nat} {i : Nat} {a b : Phase}

theorem empty (calls : List Call) : Sane Cache.empty (calls.map Phase.first) Cache.empty.identities where
  unique := List.nodup_nil
  built e he := absurd he List.not_mem_nil
  held := le_rfl
  older := fun x ⟨e, he, _⟩ => absurd he List.not_mem_nil
  calls a ha := by
    obtain ⟨call, -, rfl⟩ := List.mem_map.mp ha
    cases call with
    | request | clear => trivial
  distinct i j x hi := by
    obtain ⟨a, ha, hx⟩ := Option.bind_eq_some_iff.mp hi
    obtain ⟨call, -, rfl⟩ := List.mem_map.mp (List.mem_of_getElem? ha)
    cases call with
    | request | clear => cases hx

theorem pending_lt (h : Sane c phases past) {x : Nat} (hx : phases[i]?.bind Phase.pending? = some x) :
    x < c.fresh := by
  obtain ⟨a, ha, hx⟩ := Option.bind_eq_some_iff.mp hx
  exact (h.calls a (List.mem_of_getElem? ha)).pending_lt hx

theorem pending_set (hmoves : Phase.Moves c a b c') {j x : Nat}
    (hx : (phases.set i b)[j]?.bind Phase.pending? = some x) :
    j = i ∧ x = c.fresh ∨ j ≠ i ∧ phases[j]?.bind Phase.pending? = some x := by
  obtain ⟨a', ha', hpending⟩ := Option.bind_eq_some_iff.mp hx
  rcases eq_or_of_getElem?_set ha' with ⟨rfl, rfl⟩ | ⟨hj, ha'⟩
  · exact .inl ⟨rfl, hmoves.pending hpending⟩
  · exact .inr ⟨hj, Option.bind_eq_some_iff.mpr ⟨a', ha', hpending⟩⟩

/-- **A move keeps the invariant.** -/
theorem moves (h : Sane c phases past) (hi : phases[i]? = some a) (hmoves : Phase.Moves c a b c') :
    Sane c' (phases.set i b) (past ∪ c'.identities) where
  unique := hmoves.unique h.unique
  built e he := by
    rcases hmoves.entries he with he | rfl
    · exact h.built e he
    · exact (h.calls _ (List.mem_of_getElem? hi)).1
  held := Set.subset_union_right
  older x hx := by
    have ha := h.calls a (List.mem_of_getElem? hi)
    refine lt_of_lt_of_le ?_ hmoves.fresh_le
    rcases hx with hx | hx
    · exact h.older x hx
    · rcases hmoves.identities hx with hx | hx
      · exact h.older x (h.held hx)
      · exact ha.pending_lt hx
  calls a' ha' := by
    obtain ⟨j, hj⟩ := List.getElem?_of_mem ha'
    rcases eq_or_of_getElem?_set hj with ⟨rfl, rfl⟩ | ⟨hij, hj⟩
    · exact hmoves.sane (h.calls a (List.mem_of_getElem? hi)) h.older h.held
    · refine (h.calls a' (List.mem_of_getElem? hj)).mono hmoves.fresh_le fun x hx hpending => ?_
      rcases hx with hx | hx
      · exact hx
      rcases hmoves.identities hx with hx | hx
      · exact h.held hx
      · exact absurd (h.distinct j i x (by rw [hj]; exact hpending) (by rw [hi]; exact hx)) hij
  distinct j k x hj hk := by
    rcases pending_set hmoves hj with ⟨rfl, rfl⟩ | ⟨-, hj⟩ <;>
      rcases pending_set hmoves hk with ⟨hk, hx⟩ | ⟨-, hk⟩
    · exact hk.symm
    · exact absurd (h.pending_lt hk) (lt_irrefl _)
    · exact absurd (hx ▸ h.pending_lt hj) (lt_irrefl _)
    · exact h.distinct j k x hj hk

theorem consistent (h : Sane c phases past) : c.Consistent where
  unique := h.unique
  key e he := Descriptor.operator_of_ofOperator (h.built e he)
  held d := by
    unfold Cache.held
    rw [List.mem_map]
    constructor
    · rintro ⟨e, he, rfl⟩
      exact ⟨e.1, (lookup?_eq_some_iff h.unique).mpr he⟩
    · rintro ⟨op, hop⟩
      exact ⟨_, mem_of_lookup? hop, rfl⟩
  listed := by
    have hkeys : c.held.map (·.descriptor.operator) = c.entries.map (·.1) := by
      rw [Cache.held, List.map_map]
      exact List.map_congr_left fun e he => Descriptor.operator_of_ofOperator (h.built e he)
    rw [hkeys]
    exact h.unique

end Sane

end Cache

end AxisNorm
