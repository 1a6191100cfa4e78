import AxisNorm.Proofs.Cache.Entries

/-!
# Callers share descriptors

* `History.At`: the phases of the calls at a moment of a history, with the invariant of the cache.
  `History.At.next` says what the next step of the history does.
* `History.Consistent`: what callers can rely on.
* `History.cache_consistent`: **however the steps of callers interleave, they can rely on it.**
-/

namespace AxisNorm

namespace History

open Cache Phase

variable {h : History} {i n : Nat} {op : Operator} {r : Answer} {d : SharedDescriptor}

/-! ## Moments -/

/-- The identities of the descriptors that were held at moment `n` or before. -/
def past (h : History) (n : Nat) : Set Nat := {x | ∃ m ≤ n, x ∈ (h.cache m).identities}

theorem past_mono {m : Nat} (hmn : m ≤ n) : h.past m ⊆ h.past n :=
  fun _ ⟨k, hk, hx⟩ => ⟨k, hk.trans hmn, hx⟩

theorem past_succ (h : History) (n : Nat) : h.past (n + 1) = h.past n ∪ (h.cache (n + 1)).identities := by
  refine Set.Subset.antisymm ?_ (Set.union_subset (past_mono (Nat.le_succ n)) fun x hx => ⟨_, le_rfl, hx⟩)
  rintro x ⟨m, hm, hx⟩
  rcases Nat.le_succ_iff.mp hm with hm | rfl
  · exact .inl ⟨m, hm, hx⟩
  · exact .inr hx

/-- At moment `n` the calls are in the given phases. -/
structure At (h : History) (n : Nat) (phases : List Phase) : Prop where
  running : h.running n = phases.map Phase.place
  length : phases.length = h.calls.length
  calls : ∀ (i : Nat) (a : Phase), phases[i]? = some a → ∀ call ∈ a.call?, h.calls[i]? = some call
  steps : ∀ (i : Nat) (a : Phase), phases[i]? = some a → a = returned ∨ a.left + (h.schedule.take n).count i ≤ 4
  sane : (h.cache n).Sane phases (h.past n)

namespace At

variable {phases : List Phase} {a b : Phase}

theorem zero (h : History) : h.At 0 (h.calls.map first) where
  running := by
    rw [History.running, moment, List.take_zero, Pool.follow, List.map_map, List.map_map]
    exact List.map_congr_left fun call _ => (place_first call).symm
  length := List.length_map _
  calls i a hi call hcall := by
    rw [List.getElem?_map] at hi
    obtain ⟨call', hcall', rfl⟩ := Option.map_eq_some_iff.mp hi
    cases call' with
    | request op | clear =>
      cases hcall
      exact hcall'
  steps i a hi := by
    obtain ⟨call, -, rfl⟩ := List.mem_map.mp (List.mem_of_getElem? hi)
    cases call with
    | request | clear => exact .inr (by simp [left, first])
  sane := by
    have hpast : h.past 0 = Cache.empty.identities := by
      refine Set.Subset.antisymm ?_ fun x hx => ⟨0, le_rfl, hx⟩
      rintro x ⟨m, hm, hx⟩
      rwa [Nat.le_zero.mp hm] at hx
    rw [hpast]
    exact Sane.empty h.calls

theorem count_take_succ (h : History) (n j : Nat) : (h.schedule.take (n + 1)).count j =
    (h.schedule.take n).count j + if h.schedule[n]? = some j then 1 else 0 := by
  rw [List.take_add_one, List.count_append]
  cases h.schedule[n]? with
  | none => simp
  | some i => simp [List.count_singleton]

theorem idle (hat : h.At n phases) (hmoment : h.moment (n + 1) = h.moment n)
    (hidle : ∀ i, h.schedule[n]? = some i → phases[i]? = none ∨ phases[i]? = some returned) :
    h.At (n + 1) phases where
  running := (congrArg (·.1.running) hmoment).trans hat.running
  length := hat.length
  calls := hat.calls
  steps i a hi := by
    rw [count_take_succ]
    split
    · next hn =>
      refine .inl (Option.some.inj ?_)
      rw [← hi]
      exact (hidle i hn).resolve_left (by simp [hi])
    · exact hat.steps i a hi
  sane := by
    have hcache : h.cache (n + 1) = h.cache n := congrArg Prod.snd hmoment
    rw [past_succ, hcache, Set.union_eq_left.mpr hat.sane.held]
    exact hat.sane

theorem move (hat : h.At n phases) (hn : h.schedule[n]? = some i) (hi : phases[i]? = some a)
    (hmoves : Moves (h.cache n) a b (h.cache (n + 1)))
    (hrunning : h.running (n + 1) = (h.running n).set i b.place) : h.At (n + 1) (phases.set i b) where
  running := by rw [hrunning, hat.running, List.map_set]
  length := (List.length_set).trans hat.length
  calls j a' hj call hcall := by
    rcases eq_or_of_getElem?_set hj with ⟨rfl, rfl⟩ | ⟨-, hj⟩
    · exact hat.calls j a hi call (hmoves.call? hcall)
    · exact hat.calls j a' hj call hcall
  steps j a' hj := by
    rw [count_take_succ, hn]
    rcases eq_or_of_getElem?_set hj with ⟨rfl, rfl⟩ | ⟨hij, hj⟩
    · have hleft := hmoves.left_lt
      rcases hat.steps j a hi with rfl | hsteps
      · cases hmoves
      · rw [if_pos rfl]
        exact .inr (by omega)
    · rw [if_neg (by simpa using Ne.symm hij)]
      exact hat.steps j a' hj
  sane := by
    rw [past_succ]
    exact hat.sane.moves hi hmoves

/-- **What the next step does**: a call under way makes a move, or nothing changes. -/
theorem next (hat : h.At n phases) :
    (∃ i a b, h.schedule[n]? = some i ∧ phases[i]? = some a ∧ Moves (h.cache n) a b (h.cache (n + 1)) ∧
      h.At (n + 1) (phases.set i b)) ∨
    h.moment (n + 1) = h.moment n ∧
      ∀ i, h.schedule[n]? = some i → phases[i]? = none ∨ phases[i]? = some returned := by
  rcases Option.eq_none_or_eq_some h.schedule[n]? with hn | ⟨i, hn⟩
  · exact .inr ⟨h.moment_of_none hn, fun i hi => by simp [hn] at hi⟩
  have hmoment := h.moment_succ hn
  have hplace : (h.moment n).1.running[i]? = phases[i]?.map Phase.place := by
    rw [← List.getElem?_map, ← hat.running]
    rfl
  cases hi : phases[i]? with
  | none =>
    rw [hi] at hplace
    refine .inr ⟨hmoment.trans ?_, fun j hj => ?_⟩
    · unfold Pool.pick
      rw [hplace]
      rfl
    · cases hn.symm.trans hj
      exact .inl hi
  | some a =>
    rw [hi] at hplace
    rcases exists_moves hplace with ⟨rfl, hpick⟩ | ⟨b, hmoves, hrunning⟩
    · refine .inr ⟨hmoment.trans hpick, fun j hj => ?_⟩
      cases hn.symm.trans hj
      exact .inr hi
    · rw [← hmoment] at hmoves hrunning
      exact .inl ⟨i, a, b, hn, hi, hmoves, hat.move hn hi hmoves hrunning⟩

theorem running_eq (hat : h.At n phases) (i : Nat) :
    (h.running n)[i]? = phases[i]?.map Phase.place := by
  rw [hat.running, List.getElem?_map]

theorem next_of_ne (hat : h.At n phases) (hn : h.schedule[n]? = some i) (hi : phases[i]? = some a)
    (ha : a ≠ returned) :
    ∃ b, Moves (h.cache n) a b (h.cache (n + 1)) ∧ h.At (n + 1) (phases.set i b) := by
  rcases hat.next with ⟨j, a', b, hj, hi', hmoves, hnext⟩ | ⟨-, hidle⟩
  · cases hn.symm.trans hj
    cases hi.symm.trans hi'
    exact ⟨b, hmoves, hnext⟩
  · rcases hidle i hn with hnone | hreturned
    · cases hi.symm.trans hnone
    · cases hi.symm.trans hreturned
      exact absurd rfl ha

end At

theorem exists_at (h : History) (n : Nat) : ∃ phases, h.At n phases := by
  induction n with
  | zero => exact ⟨_, At.zero h⟩
  | succ n ih =>
    obtain ⟨phases, hat⟩ := ih
    rcases hat.next with ⟨i, a, b, -, -, -, hnext⟩ | ⟨hmoment, hidle⟩
    · exact ⟨_, hnext⟩
    · exact ⟨_, hat.idle hmoment hidle⟩

/-! ## What a call comes to know -/

variable {phases : List Phase} {a b : Phase}

theorem Decides.moves (hdecides : h.Decides i n r) (hat : h.At n phases) : ∃ a, phases[i]? = some a ∧
    Moves (h.cache n) a (settled r) (h.cache (n + 1)) := by
  obtain ⟨hn, ⟨effect, task, hbefore⟩, hafter⟩ := hdecides
  rw [hat.running_eq] at hbefore
  obtain ⟨a, hi, ha⟩ := Option.map_eq_some_iff.mp hbefore
  have hne : a ≠ returned := by
    rintro rfl
    cases ha
  obtain ⟨b, hmoves, hnext⟩ := hat.next_of_ne hn hi hne
  rw [hnext.running_eq, List.getElem?_set_self (List.getElem?_eq_some_iff.mp hi).1] at hafter
  rw [place_eq_done_iff.mp (Option.some.inj hafter)] at hmoves
  exact ⟨a, hi, hmoves⟩

theorem At.decides (hat : h.At n phases) (hn : h.schedule[n]? = some i) (hi : phases[i]? = some a)
    (hmoves : Moves (h.cache n) a (settled r) (h.cache (n + 1)))
    (hnext : h.At (n + 1) (phases.set i (settled r))) : h.Decides i n r := by
  obtain ⟨effect, task, ha⟩ := hmoves.place_of_settled
  refine ⟨hn, ⟨effect, task, ?_⟩, ?_⟩
  · rw [hat.running_eq, hi, Option.map_some, ha]
  · rw [hnext.running_eq, List.getElem?_set_self (List.getElem?_eq_some_iff.mp hi).1]
    rfl

theorem exists_turn {P : Nat → Prop} (hzero : ¬ P 0) (hn : P n) : ∃ m < n, ¬ P m ∧ P (m + 1) := by
  induction n with
  | zero => exact absurd hn hzero
  | succ n ih =>
    by_cases hP : P n
    · obtain ⟨m, hm, hturn⟩ := ih hP
      exact ⟨m, hm.trans (Nat.lt_succ_self n), hturn⟩
    · exact ⟨n, Nat.lt_succ_self n, hP, hn⟩

theorem exists_move {v : Option (Task Cache Answer)} (hv : ∀ call : Call, some call.task ≠ v)
    (hn : (h.running n)[i]? = some v) :
    ∃ m < n, ∃ phases a b, h.At m phases ∧ h.schedule[m]? = some i ∧ phases[i]? = some a ∧
      Moves (h.cache m) a b (h.cache (m + 1)) ∧ h.At (m + 1) (phases.set i b) ∧ b.place = v := by
  have hzero : (h.running 0)[i]? ≠ some v := by
    rw [(At.zero h).running_eq]
    intro hstart
    obtain ⟨a, ha, hplace⟩ := Option.map_eq_some_iff.mp hstart
    obtain ⟨call, -, rfl⟩ := List.mem_map.mp (List.mem_of_getElem? ha)
    exact hv call ((place_first call).symm.trans hplace)
  obtain ⟨m, hm, hbefore, hafter⟩ := exists_turn (P := fun n => (h.running n)[i]? = some v) hzero hn
  obtain ⟨phases, hat⟩ := h.exists_at m
  refine ⟨m, hm, phases, ?_⟩
  rcases hat.next with ⟨j, a, b, hj, hi, hmoves, hnext⟩ | ⟨hmoment, -⟩
  · by_cases hij : j = i
    · subst hij
      rw [hnext.running_eq, List.getElem?_set_self (List.getElem?_eq_some_iff.mp hi).1] at hafter
      exact ⟨a, b, hat, hj, hi, hmoves, hnext, Option.some.inj hafter⟩
    · rw [hnext.running_eq, List.getElem?_set_ne hij, ← hat.running_eq] at hafter
      exact absurd hafter hbefore
  · rw [History.running, hmoment] at hafter
    exact absurd hafter hbefore

theorem exists_decides (hdone : (h.running n)[i]? = some (some (.done r))) : ∃ m < n, h.Decides i m r := by
  have hstart (call : Call) : some call.task ≠ some (.done r) := by
    intro hplace
    rw [← place_first, place_eq_done_iff] at hplace
    cases call with
    | request | clear => cases hplace
  obtain ⟨m, hm, phases, a, b, hat, hn, hi, hmoves, hnext, hplace⟩ := exists_move hstart hdone
  cases place_eq_done_iff.mp hplace
  exact ⟨m, hm, hat.decides hn hi hmoves hnext⟩

theorem exists_returns (hover : (h.running n)[i]? = some none) : ∃ m < n, ∃ r, h.Returns i m r := by
  obtain ⟨m, hm, phases, a, b, hat, hn, hi, hmoves, -, hplace⟩ := exists_move (fun _ => Option.some_ne_none _) hover
  rw [place_eq_none_iff.mp hplace] at hmoves
  obtain ⟨r, rfl⟩ := hmoves.eq_settled
  refine ⟨m, hm, r, hn, ?_⟩
  rw [hat.running_eq, hi]
  rfl

/-- A call with four steps of its own has handed in its answer. -/
theorem exists_returns_of_count {call : Call} (hcall : h.calls[i]? = some call)
    (hcount : 4 ≤ (h.schedule.take n).count i) : ∃ m < n, ∃ r, h.Returns i m r := by
  obtain ⟨phases, hat⟩ := h.exists_at n
  have hlt : i < phases.length := hat.length ▸ (List.getElem?_eq_some_iff.mp hcall).1
  have hi := List.getElem?_eq_getElem hlt
  refine exists_returns ?_
  rw [hat.running_eq, hi, Option.map_some, Option.some_inj, place_eq_none_iff]
  rcases hat.steps i _ hi with hreturned | hleft
  · exact hreturned
  · generalize phases[i] = a at hleft
    cases a with
    | returned => rfl
    | looking | building | inserting | clearing | settled => simp only [left] at hleft; omega

/-! ## What the cache keeps -/

theorem lookup?_succ (hd : (h.cache n).lookup? op = some d) (hclear : ¬ h.Clears n) :
    (h.cache (n + 1)).lookup? op = some d := by
  obtain ⟨phases, hat⟩ := h.exists_at n
  rcases hat.next with ⟨i, a, b, hn, hi, hmoves, hnext⟩ | ⟨hmoment, -⟩
  · rcases hmoves.lookup? hd with hd | ⟨rfl, rfl⟩
    · exact hd
    · exact absurd ⟨i, hat.calls i _ hi _ rfl, hat.decides hn hi hmoves hnext⟩ hclear
  · rwa [cache, hmoment]

/-- A description keeps its descriptor until the cache is cleared. -/
theorem lookup?_of_le {m : Nat} (hd : (h.cache n).lookup? op = some d) (hnm : n ≤ m)
    (hclear : ∀ x, n ≤ x → x < m → ¬ h.Clears x) : (h.cache m).lookup? op = some d := by
  induction m, hnm using Nat.le_induction with
  | base => exact hd
  | succ m hnm ih =>
    exact lookup?_succ (ih fun x hx hxm => hclear x hx (hxm.trans (Nat.lt_succ_self m)))
      (hclear m hnm (Nat.lt_succ_self m))

theorem cache_of_clears {x : Nat} (hclear : h.Clears x) : h.cache (x + 1) = (h.cache x).clear := by
  obtain ⟨i, -, hdecides⟩ := hclear
  obtain ⟨phases, hat⟩ := h.exists_at x
  obtain ⟨a, -, hmoves⟩ := hdecides.moves hat
  exact hmoves.cleared_eq.2

theorem not_mem_past {x m y : Nat} (hclear : h.Clears x) (hxm : x < m) (hy : y ∈ (h.cache m).identities) :
    y ∉ h.past x := by
  induction m, hxm using Nat.le_induction with
  | base =>
    rw [cache_of_clears hclear] at hy
    obtain ⟨e, he, -⟩ := hy
    exact absurd he List.not_mem_nil
  | succ m hxm ih =>
    obtain ⟨phases, hat⟩ := h.exists_at m
    rcases hat.next with ⟨i, a, b, -, hi, hmoves, -⟩ | ⟨hmoment, -⟩
    · rcases hmoves.identities hy with hy | hpending
      · exact ih hy
      · -- The call is about to insert what was never held.
        have hnever := (hat.sane.calls a (List.mem_of_getElem? hi)).not_mem hpending
        exact fun hpast => hnever (past_mono (Nat.le_of_succ_le hxm) hpast)
    · rw [cache, hmoment] at hy
      exact ih hy

/-! ## What callers can rely on -/

/-- With step `n` a call has got the descriptor that is then held under its description: it was there at
the lookup, or it is there once the call has inserted what it made. -/
def Shares (h : History) (op : Operator) (n : Nat) (d : SharedDescriptor) : Prop :=
  (h.cache (n + 1)).lookup? op = some d ∧
    ((h.cache n).lookup? op = some d ∧ h.cache (n + 1) = h.cache n ∨
      ∃ made, Descriptor.ofOperator op = .ok made.descriptor ∧
        h.cache (n + 1) = (h.cache n).insertIfAbsent op made)

/-- What callers can rely on. -/
structure Consistent (h : History) : Prop where
  /-- At every moment a description has one descriptor at most, and it is its own. -/
  held : ∀ n, (h.cache n).Consistent
  /-- Every call comes to its end. -/
  returns : ∀ i call n, h.calls[i]? = some call → 4 ≤ (h.schedule.take n).count i →
    ∃ m < n, ∃ r, h.Returns i m r
  /-- What a call hands in it has come to know with one of its steps. -/
  decides : ∀ i n r, h.Returns i n r → ∃ m < n, h.Decides i m r
  /-- A request ends with a descriptor that callers share, or with the error of its description. -/
  answers : ∀ i op n r, h.calls[i]? = some (.request op) → h.Decides i n r →
    (∃ d, r = some (.ok d) ∧ h.Shares op n d) ∨
      ∃ e, r = some (.error e) ∧ Descriptor.ofOperator op = .error e
  /-- Equal requests get the identical descriptor unless the cache is cleared in between. -/
  identical : ∀ i j op n m d d', h.calls[i]? = some (.request op) → h.calls[j]? = some (.request op) →
    h.Decides i n (some (.ok d)) → h.Decides j m (some (.ok d')) → n ≤ m →
    (∀ x, n < x → x < m → ¬ h.Clears x) → d = d'
  /-- Once the cache has been cleared, requests get descriptors that are new. -/
  fresh : ∀ x i op n d, h.Clears x → x < n → h.calls[i]? = some (.request op) →
    h.Decides i n (some (.ok d)) → ∀ y ≤ x, ∀ d' ∈ (h.cache y).held, d'.identity ≠ d.identity
  /-- A description that has no descriptor fails whenever it is requested, and nothing changes. -/
  failing : ∀ i op n e, h.calls[i]? = some (.request op) → Descriptor.ofOperator op = .error e →
    h.schedule[n]? = some i → h.cache (n + 1) = h.cache n ∧ ∀ r, h.Decides i n r → r = some (.error e)

theorem Decides.shares (hcall : h.calls[i]? = some (.request op)) (hdecides : h.Decides i n (some (.ok d))) :
    h.Shares op n d := by
  obtain ⟨phases, hat⟩ := h.exists_at n
  obtain ⟨a, hi, hmoves⟩ := hdecides.moves hat
  obtain ⟨op', hrequest, hknown⟩ := hmoves.known
  cases hcall.symm.trans (hat.calls i a hi _ hrequest)
  rcases hknown with ⟨rfl, hd, hcache⟩ | ⟨made, rfl, rfl, hcache⟩
  · exact ⟨hcache ▸ hd, .inl ⟨hd, hcache⟩⟩
  · refine ⟨?_, .inr ⟨made, (hat.sane.calls _ (List.mem_of_getElem? hi)).1, hcache⟩⟩
    rw [hcache]
    exact Cache.lookup?_insertIfAbsent _ _ _

theorem Decides.error {e : Failure DescriptorError} (hcall : h.calls[i]? = some (.request op))
    (hdecides : h.Decides i n (some (.error e))) : Descriptor.ofOperator op = .error e := by
  obtain ⟨phases, hat⟩ := h.exists_at n
  obtain ⟨a, hi, hmoves⟩ := hdecides.moves hat
  obtain ⟨op', hrequest, he⟩ := hmoves.error
  cases hcall.symm.trans (hat.calls i a hi _ hrequest)
  exact he

theorem Decides.ne_none (hcall : h.calls[i]? = some (.request op)) : ¬ h.Decides i n none := by
  intro hdecides
  obtain ⟨phases, hat⟩ := h.exists_at n
  obtain ⟨a, hi, hmoves⟩ := hdecides.moves hat
  obtain ⟨rfl, -⟩ := hmoves.cleared_eq
  cases hcall.symm.trans (hat.calls i _ hi _ rfl)

theorem Decides.not_clears (hcall : h.calls[i]? = some (.request op)) (hdecides : h.Decides i n r) :
    ¬ h.Clears n := by
  rintro ⟨j, hclear, hn, -⟩
  cases hdecides.1.symm.trans hn
  cases hcall.symm.trans hclear

theorem cache_succ_of_error {e : Failure DescriptorError} (hcall : h.calls[i]? = some (.request op))
    (he : Descriptor.ofOperator op = .error e) (hn : h.schedule[n]? = some i) :
    h.cache (n + 1) = h.cache n := by
  obtain ⟨phases, hat⟩ := h.exists_at n
  rcases hat.next with ⟨j, a, b, hj, hi, hmoves, -⟩ | ⟨hmoment, -⟩
  · cases hn.symm.trans hj
    have ha := hat.sane.calls a (List.mem_of_getElem? hi)
    have hop (op' : Operator) (hrequest : .request op' ∈ a.call?) : op' = op := by
      cases hcall.symm.trans (hat.calls i a hi _ hrequest)
      rfl
    generalize h.cache (n + 1) = c' at hmoves
    cases hmoves with
    | found | failed | missed | handedIn => rfl
    | created op' built =>
      cases hop op' rfl
      exact absurd (he.symm.trans ha) nofun
    | inserted op' made =>
      cases hop op' rfl
      exact absurd (he.symm.trans ha.1) nofun
    | cleared => cases hcall.symm.trans (hat.calls i _ hi _ rfl)
  · exact congrArg Prod.snd hmoment

/-- **However the steps of callers interleave, they can rely on the cache.** -/
theorem cache_consistent (h : History) : h.Consistent where
  held n := by
    obtain ⟨phases, hat⟩ := h.exists_at n
    exact hat.sane.consistent
  returns i call n hcall hcount := exists_returns_of_count hcall hcount
  decides i n r hreturns := exists_decides hreturns.2
  answers i op n r hcall hdecides := by
    match r with
    | some (.ok d) => exact .inl ⟨d, rfl, hdecides.shares hcall⟩
    | some (.error e) => exact .inr ⟨e, rfl, hdecides.error hcall⟩
    | none => exact absurd hdecides (Decides.ne_none hcall)
  identical i j op n m d d' hi hj hn hm hnm hclear := by
    have hkept := lookup?_of_le (m := m + 1) (hn.shares hi).1 (Nat.succ_le_succ hnm) fun x hx hxm => by
      rcases Nat.lt_succ_iff_lt_or_eq.mp hxm with hxm | rfl
      · exact hclear x hx hxm
      · exact hm.not_clears hj
    exact Option.some.inj (hkept.symm.trans (hm.shares hj).1)
  fresh x i op n d hclear hxn hi hdecides y hy d' hd' heq := by
    have hnever := not_mem_past hclear (hxn.trans (Nat.lt_succ_self n))
      (Cache.identity_mem_of_lookup? (hdecides.shares hi).1)
    obtain ⟨e, he, rfl⟩ := List.mem_map.mp hd'
    exact hnever ⟨y, hy, e, he, heq⟩
  failing i op n e hcall he hn := by
    refine ⟨cache_succ_of_error hcall he hn, fun r hdecides => ?_⟩
    match r with
    | some (.ok d) =>
      obtain ⟨-, ⟨hd, -⟩ | ⟨made, hmade, -⟩⟩ := hdecides.shares hcall
      · obtain ⟨phases, hat⟩ := h.exists_at n
        exact absurd (he.symm.trans (hat.sane.built _ (Cache.mem_of_lookup? hd))) nofun
      · exact absurd (he.symm.trans hmade) nofun
    | some (.error e') => rw [Except.error.inj (he.symm.trans (hdecides.error hcall))]
    | none => exact absurd hdecides (Decides.ne_none hcall)

end History

end AxisNorm
