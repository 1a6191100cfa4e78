import AxisNorm.Proofs.Cache.Consistency
import AxisNorm.Proofs.Operator

/-!
# Attributes and shared descriptors

A descriptor that is inserted was never held before, and so no two descriptions have one object together.

* `History.nodup_identities`: the held descriptors are objects of their own.
* `History.withAttributes_shared`: **requests of updated descriptions get the identical descriptor if and only if
  their attributes agree.**
-/

namespace AxisNorm

open Cache Phase

theorem Phase.Moves.nodup_identities {c c' : Cache} {a b : Phase} {past : Set Nat} (h : Moves c a b c')
    (ha : a.Sane c.fresh past) (hheld : c.identities ⊆ past) (hc : (c.entries.map (·.2.identity)).Nodup) :
    (c'.entries.map (·.2.identity)).Nodup := by
  cases h with
  | inserted op d =>
    unfold Cache.insertIfAbsent
    split
    · exact hc
    · have hnew : d.identity ∉ c.entries.map (·.2.identity) := by
        intro hmem
        obtain ⟨e, he, heq⟩ := List.mem_map.mp hmem
        exact ha.2.2 (hheld ⟨e, he, heq⟩)
      rw [List.map_append, List.map_singleton]
      exact List.nodup_append_comm.mp (List.nodup_cons.mpr ⟨hnew, hc⟩)
  | cleared => exact List.nodup_nil
  | found | failed | missed | created | handedIn => exact hc

namespace History

variable {h : History} {i j n m : Nat} {op op' : Operator} {d d' : SharedDescriptor}

theorem nodup_identities (h : History) (n : Nat) : ((h.cache n).entries.map (·.2.identity)).Nodup := by
  induction n with
  | zero =>
    rw [cache, moment, List.take_zero, Pool.follow]
    exact List.nodup_nil
  | succ n ih =>
    obtain ⟨phases, hat⟩ := h.exists_at n
    rcases hat.next with ⟨i, a, b, -, hi, hmoves, -⟩ | ⟨hmoment, -⟩
    · exact hmoves.nodup_identities (hat.sane.calls a (List.mem_of_getElem? hi)) hat.sane.held ih
    · rwa [cache, hmoment]

theorem eq_of_identity_eq (hd : (h.cache n).lookup? op = some d) (hd' : (h.cache n).lookup? op' = some d')
    (heq : d.identity = d'.identity) : op = op' ∧ d = d' :=
  Prod.mk.inj (List.inj_on_of_nodup_map (h.nodup_identities n) (mem_of_lookup? hd) (mem_of_lookup? hd') heq)

theorem Decides.exists_moment (hi : h.calls[i]? = some (.request op)) (hj : h.calls[j]? = some (.request op'))
    (hn : h.Decides i n (some (.ok d))) (hm : h.Decides j m (some (.ok d')))
    (hclear : ∀ x, min n m < x → x < max n m → ¬ h.Clears x) :
    ∃ k, (h.cache k).lookup? op = some d ∧ (h.cache k).lookup? op' = some d' := by
  rcases Nat.le_total n m with hnm | hmn
  · refine ⟨m + 1, ?_, (hm.shares hj).1⟩
    refine lookup?_of_le (hn.shares hi).1 (Nat.succ_le_succ hnm) fun x hx hxm => ?_
    rcases Nat.lt_succ_iff_lt_or_eq.mp hxm with hxm | rfl
    · exact hclear x (by omega) (by omega)
    · exact hm.not_clears hj
  · refine ⟨n + 1, (hn.shares hi).1, ?_⟩
    refine lookup?_of_le (hm.shares hj).1 (Nat.succ_le_succ hmn) fun x hx hxn => ?_
    rcases Nat.lt_succ_iff_lt_or_eq.mp hxn with hxn | rfl
    · exact hclear x (by omega) (by omega)
    · exact hn.not_clears hi

theorem Decides.exists_ok {r : Answer} {built : Descriptor} (hcall : h.calls[i]? = some (.request op))
    (hdecides : h.Decides i n r) (hbuilt : Descriptor.ofOperator op = .ok built) :
    ∃ d, r = some (.ok d) ∧ d.descriptor = built := by
  match r with
  | some (.ok d) =>
    obtain ⟨phases, hat⟩ := h.exists_at (n + 1)
    have hd := hat.sane.built _ (mem_of_lookup? (hdecides.shares hcall).1)
    exact ⟨d, rfl, Except.ok.inj (hd.symm.trans hbuilt)⟩
  | some (.error e) => exact absurd ((hdecides.error hcall).symm.trans hbuilt) nofun
  | none => exact absurd hdecides (Decides.ne_none hcall)

/-- **Updates leave the last value that was given under each name, and descriptions are equal if their attributes
agree. Requests of such descriptions, the cache not being cleared between them, get the identical descriptor if and
only if the attributes agree.** -/
theorem withAttributes_shared :
    (∀ op us, Operator.Updated op us (op.withAttributes us)) ∧
    (∀ (op : Operator) us vs, op.withAttributes us = op.withAttributes vs ↔
      ∀ name, (op.withAttributes us).attribute? name = (op.withAttributes vs).attribute? name) ∧
    ∀ (h : History) (op : Operator) us vs i j, h.calls[i]? = some (.request (op.withAttributes us)) →
      h.calls[j]? = some (.request (op.withAttributes vs)) →
      (∀ n, 4 ≤ (h.schedule.take n).count i → ∃ m < n, ∃ r, h.Decides i m r) ∧
      ∀ built built', Descriptor.ofOperator (op.withAttributes us) = .ok built →
        Descriptor.ofOperator (op.withAttributes vs) = .ok built' →
        ∀ n m r r', h.Decides i n r → h.Decides j m r' → (∀ x, min n m < x → x < max n m → ¬ h.Clears x) →
        ∃ d d', r = some (.ok d) ∧ r' = some (.ok d') ∧ d.descriptor = built ∧ d'.descriptor = built' ∧
          ((∀ name, (op.withAttributes us).attribute? name = (op.withAttributes vs).attribute? name) → d = d') ∧
          (d.identity = d'.identity →
            ∀ name, (op.withAttributes us).attribute? name = (op.withAttributes vs).attribute? name) := by
  refine ⟨Operator.withAttributes_updated, Operator.withAttributes_eq_iff, fun h op us vs i j hi hj => ⟨?_, ?_⟩⟩
  · intro n hcount
    obtain ⟨m, hm, r, hreturns⟩ := exists_returns_of_count hi hcount
    obtain ⟨k, hk, hdecides⟩ := exists_decides hreturns.2
    exact ⟨k, hk.trans hm, r, hdecides⟩
  · intro built built' hbuilt hbuilt' n m r r' hn hm hclear
    obtain ⟨d, rfl, hd⟩ := hn.exists_ok hi hbuilt
    obtain ⟨d', rfl, hd'⟩ := hm.exists_ok hj hbuilt'
    obtain ⟨k, hlookup, hlookup'⟩ := hn.exists_moment hi hj hm hclear
    refine ⟨d, d', rfl, rfl, hd, hd', fun hagree => ?_, fun hidentity => ?_⟩
    · rw [(Operator.withAttributes_eq_iff op us vs).mpr hagree] at hlookup
      exact Option.some.inj (hlookup.symm.trans hlookup')
    · exact (Operator.withAttributes_eq_iff op us vs).mp (eq_of_identity_eq hlookup hlookup' hidentity).1

/-- Requests of one description with different updates. The first two updates leave the same. -/
def threeRequests : History where
  calls := [[("a", "1"), ("b", "2"), ("a", "3")], [("b", "2"), ("a", "3")], [("a", "3")]].map fun updates =>
    .request ((Descriptor.sample ⟨[3], .float32⟩ .float32).withAttributes updates)
  schedule := [0, 0, 0, 0, 1, 1, 1, 1, 2, 2, 2, 2]

/-- The first two requests get one descriptor, and the third gets another. -/
theorem withAttributes_shared_sample : ∃ d d' n n' n'', threeRequests.Decides 0 n (some (.ok d)) ∧
    threeRequests.Decides 1 n' (some (.ok d)) ∧ threeRequests.Decides 2 n'' (some (.ok d')) ∧
    d.identity ≠ d'.identity := by
  let op := Descriptor.sample ⟨[3], .float32⟩ .float32
  let us := [("a", "1"), ("b", "2"), ("a", "3")]
  let vs := [("b", "2"), ("a", "3")]
  let ws := [("a", "3")]
  obtain ⟨hupdated, -, hshared⟩ := withAttributes_shared
  obtain ⟨hfirst, hsame⟩ := hshared threeRequests op us vs 0 1 rfl rfl
  obtain ⟨hsecond, hother⟩ := hshared threeRequests op vs ws 1 2 rfl rfl
  obtain ⟨hthird, -⟩ := hshared threeRequests op ws ws 2 2 rfl rfl
  have hclear (x : Nat) : ¬ threeRequests.Clears x := by
    rintro ⟨i, hi, -⟩
    obtain ⟨_, -, h⟩ := List.mem_map.mp (List.mem_of_getElem? hi)
    cases h
  have hagree (name : String) :
      (op.withAttributes us).attribute? name = (op.withAttributes vs).attribute? name := by
    rw [(hupdated op us).value, (hupdated op vs).value]
    change (List.lookup name [("a", "3"), ("b", "2"), ("a", "1")]).or _ =
      (List.lookup name [("a", "3"), ("b", "2")]).or _
    simp only [List.lookup_cons]
    cases name == "a" <;> cases name == "b" <;> rfl
  obtain ⟨n, -, r, hn⟩ := hfirst 12 (by decide)
  obtain ⟨n', -, r', hn'⟩ := hsecond 12 (by decide)
  obtain ⟨n'', -, r'', hn''⟩ := hthird 12 (by decide)
  obtain ⟨d, d', rfl, rfl, -, -, hequal, -⟩ := hsame _ _ rfl rfl n n' r r' hn hn' fun x _ _ => hclear x
  obtain ⟨e, e', he, rfl, -, -, -, hdiffer⟩ := hother _ _ rfl rfl n' n'' _ r'' hn' hn'' fun x _ _ => hclear x
  cases he
  cases hequal hagree
  exact ⟨_, e', n, n', n'', hn, hn', hn'', fun hidentity => absurd (hdiffer hidentity "b") (by decide)⟩

end History

end AxisNorm
