import AxisNorm.Benchmark
import Mathlib.Algebra.Ring.Nat

/-!
# Which calls a benchmark makes

A benchmark sees a sequence of outcomes, and its result is decided by them.

* `Benchmark.after`, `Benchmark.outcome`: the states that calls leave one after the other, and their outcomes.
* `Benchmark.repeated_of_succeeds`, `Benchmark.repeated_of_failsAt`: what repeated calls come to.
* `Benchmark.measure_of_failsAt`, `Benchmark.measure_of_succeeds`: what a benchmark comes to.
* `Benchmark.counted`: calls that are counted; the count is all that is new (`Benchmark.measure_related`).
* `Benchmark.Accounts`: **a benchmark ends at the first failure, and otherwise makes all calls and records the
  times of the timed ones** (`Benchmark.accounts`).
-/

namespace AxisNorm.Benchmark

variable {σ τ : Type} {call : σ → Run × σ} {s : σ} {config : Config} {m n i : Nat}

/-- The state after `n` calls, whatever their outcomes are. -/
def after (call : σ → Run × σ) : Nat → σ → σ
  | 0, s => s
  | n + 1, s => after call n (call s).2

/-- The outcome of call `n`. Calls are numbered from zero. -/
def outcome (call : σ → Run × σ) (n : Nat) (s : σ) : Run := (call (after call n s)).1

/-- The times of `n` calls, the first of which is call `start`. -/
def times (call : σ → Run × σ) (start n : Nat) (s : σ) : List Nat :=
  (List.range n).map fun i => (outcome call (start + i) s).elapsed

/-- The first `n` calls succeed. -/
def Succeeds (call : σ → Run × σ) (n : Nat) (s : σ) : Prop := ∀ i < n, (outcome call i s).succeeded = true

/-- Call `n` is the first that fails. -/
structure FailsAt (call : σ → Run × σ) (n : Nat) (s : σ) : Prop where
  before : Succeeds call n s
  fails : (outcome call n s).succeeded = false

theorem succeeds_zero : Succeeds call 0 s := fun i hi => absurd hi (Nat.not_lt_zero i)

theorem after_add : after call (m + n) s = after call n (after call m s) := by
  induction m generalizing s with
  | zero => rw [Nat.zero_add, after]
  | succ m ih =>
    rw [Nat.succ_add]
    exact ih

theorem outcome_add : outcome call (m + n) s = outcome call n (after call m s) :=
  congrArg (fun s => (call s).1) after_add

theorem times_eq : times call m n s = times call 0 n (after call m s) := by
  simp only [times, outcome_add, Nat.zero_add]

theorem times_succ : times call 0 (n + 1) s = (call s).1.elapsed :: times call 0 n (call s).2 := by
  simp only [times, List.range_succ_eq_map, List.map_cons, List.map_map, Nat.zero_add]
  rfl

theorem length_times : (times call m n s).length = n := by
  rw [times, List.length_map, List.length_range]

theorem succeeds_add : Succeeds call (m + n) s ↔ Succeeds call m s ∧ Succeeds call n (after call m s) := by
  constructor
  · refine fun h => ⟨fun i hi => h i (by omega), fun i hi => ?_⟩
    rw [← outcome_add]
    exact h (m + i) (by omega)
  · rintro ⟨hfirst, hrest⟩ i hi
    by_cases hlt : i < m
    · exact hfirst i hlt
    · obtain ⟨j, rfl⟩ := Nat.exists_eq_add_of_le (Nat.le_of_not_lt hlt)
      rw [outcome_add]
      exact hrest j (by omega)

theorem succeeds_succ : Succeeds call (n + 1) s ↔ (call s).1.succeeded = true ∧ Succeeds call n (call s).2 := by
  rw [Nat.add_comm, succeeds_add]
  refine and_congr_left fun _ => ⟨fun h => h 0 Nat.one_pos, fun h i hi => ?_⟩
  obtain rfl := Nat.lt_one_iff.mp hi
  exact h

theorem failsAt_add : FailsAt call (m + n) s ↔ Succeeds call m s ∧ FailsAt call n (after call m s) := by
  constructor
  · rintro ⟨hbefore, hfails⟩
    rw [succeeds_add] at hbefore
    rw [outcome_add] at hfails
    exact ⟨hbefore.1, hbefore.2, hfails⟩
  · rintro ⟨hfirst, hbefore, hfails⟩
    exact ⟨succeeds_add.mpr ⟨hfirst, hbefore⟩, outcome_add.symm ▸ hfails⟩

theorem failsAt_succ : FailsAt call (n + 1) s ↔ (call s).1.succeeded = true ∧ FailsAt call n (call s).2 := by
  rw [Nat.add_comm, failsAt_add, succeeds_succ]
  exact and_congr_left fun _ => and_iff_left succeeds_zero

theorem succeeds_or_failsAt (call : σ → Run × σ) (s : σ) (n : Nat) :
    Succeeds call n s ∨ ∃ i < n, FailsAt call i s := by
  induction n with
  | zero => exact .inl succeeds_zero
  | succ n ih =>
    rcases ih with h | ⟨i, hi, h⟩
    · cases hn : (outcome call n s).succeeded with
      | false => exact .inr ⟨n, Nat.lt_succ_self n, h, hn⟩
      | true =>
        refine .inl fun i hi => ?_
        rcases Nat.lt_succ_iff_lt_or_eq.mp hi with hlt | rfl
        · exact h i hlt
        · exact hn
    · exact .inr ⟨i, Nat.lt_succ_of_lt hi, h⟩

/-! ## Repeated calls -/

theorem repeated_of_succeeds (h : Succeeds call n s) :
    repeated call n s = (.ok (times call 0 n s), after call n s) := by
  induction n generalizing s with
  | zero => rfl
  | succ n ih =>
    obtain ⟨hfirst, hrest⟩ := succeeds_succ.mp h
    rw [repeated]
    dsimp only
    rw [if_pos hfirst, ih hrest, times_succ]
    rfl

theorem repeated_of_failsAt (h : FailsAt call i s) (hi : i < n) :
    repeated call n s = (.error ⟨⟩, after call (i + 1) s) := by
  induction n generalizing s i with
  | zero => cases hi
  | succ n ih =>
    rw [repeated]
    dsimp only
    cases i with
    | zero =>
      have hfirst : (call s).1.succeeded = false := h.fails
      rw [hfirst]
      rfl
    | succ i =>
      obtain ⟨hfirst, hrest⟩ := failsAt_succ.mp h
      rw [if_pos hfirst, ih hrest (Nat.lt_of_succ_lt_succ hi)]
      rfl

/-- Calls that have the same outcomes in related states, and lead to related states, come to the same. -/
theorem repeated_related {call' : τ → Run × τ} {R : σ → τ → Prop}
    (hcall : ∀ s t, R s t → (call s).1 = (call' t).1 ∧ R (call s).2 (call' t).2) {t : τ} (h : R s t) (n : Nat) :
    (repeated call n s).1 = (repeated call' n t).1 ∧ R (repeated call n s).2 (repeated call' n t).2 := by
  induction n generalizing s t with
  | zero => exact ⟨rfl, h⟩
  | succ n ih =>
    obtain ⟨houtcome, hstate⟩ := hcall s t h
    obtain ⟨hresult, hend⟩ := ih hstate
    rw [repeated, repeated]
    dsimp only
    rw [houtcome]
    split
    · exact ⟨congrArg (Except.map _) hresult, hend⟩
    · exact ⟨rfl, hstate⟩

/-! ## A benchmark -/

/-- The times of the timed calls have room. -/
def Config.HasRoom (config : Config) : Prop := config.timed * timeBytes < 2 ^ 63

theorem reserve_of_hasRoom (h : config.HasRoom) : Checked.reserve config.timed timeBytes = .ok () :=
  Checked.reserve_eq_ok_iff.mpr h

theorem timings_of_succeeds (h : Succeeds call (config.warmups + config.timed) s) (hroom : config.HasRoom) :
    timings config call s =
      (.ok (times call config.warmups config.timed s), after call (config.warmups + config.timed) s) := by
  obtain ⟨hwarmups, htimed⟩ := succeeds_add.mp h
  unfold timings
  rw [repeated_of_succeeds hwarmups]
  dsimp only
  rw [reserve_of_hasRoom hroom, repeated_of_succeeds htimed, after_add, times_eq (m := config.warmups)]
  rfl

theorem measure_of_failsAt (h : FailsAt call i s)
    (hi : i < config.warmups ∨ i < config.warmups + config.timed ∧ config.HasRoom) :
    measure config call s = (.error (.error ⟨⟩), after call (i + 1) s) := by
  unfold measure timings
  by_cases hwarm : i < config.warmups
  · rw [repeated_of_failsAt h hwarm]
  · obtain ⟨j, rfl⟩ := Nat.exists_eq_add_of_le (Nat.le_of_not_lt hwarm)
    obtain ⟨hlast, hroom⟩ := hi.resolve_left hwarm
    obtain ⟨hwarmups, hfails⟩ := failsAt_add.mp h
    rw [repeated_of_succeeds hwarmups]
    dsimp only
    rw [reserve_of_hasRoom hroom, repeated_of_failsAt hfails (by omega), Nat.add_assoc config.warmups,
      after_add (m := config.warmups)]
    rfl

theorem measure_of_not_hasRoom (h : Succeeds call config.warmups s) (hfull : ¬ config.HasRoom) :
    measure config call s = (.error (.arithmetic .capacityOverflow), after call config.warmups s) := by
  have hreserve : Checked.reserve config.timed timeBytes = .error .capacityOverflow := if_neg hfull
  unfold measure timings
  rw [repeated_of_succeeds h]
  dsimp only
  rw [hreserve]

theorem measure_of_succeeds (h : Succeeds call (config.warmups + config.timed) s) (hroom : config.HasRoom) :
    measure config call s = (checked (summarize (times call config.warmups config.timed s)),
      after call (config.warmups + config.timed) s) := by
  rw [measure, timings_of_succeeds h hroom]

section

variable {call' : τ → Run × τ} {R : σ → τ → Prop}
  (hcall : ∀ s t, R s t → (call s).1 = (call' t).1 ∧ R (call s).2 (call' t).2) {t : τ} (h : R s t)
  (config : Config)

include hcall h

theorem timings_related : (timings config call s).1 = (timings config call' t).1 ∧
    R (timings config call s).2 (timings config call' t).2 := by
  obtain ⟨hwarm, hstate⟩ := repeated_related hcall h config.warmups
  unfold timings
  revert hwarm hstate
  rcases repeated call config.warmups s with ⟨r, s'⟩
  rcases repeated call' config.warmups t with ⟨r', t'⟩
  rintro rfl hstate
  obtain ⟨htimes, hend⟩ := repeated_related hcall hstate config.timed
  cases r with
  | error e => exact ⟨rfl, hstate⟩
  | ok _ =>
    cases Checked.reserve config.timed timeBytes with
    | error e => exact ⟨rfl, hstate⟩
    | ok _ => exact ⟨congrArg (Except.mapError _) htimes, hend⟩

theorem measure_related : (measure config call s).1 = (measure config call' t).1 ∧
    R (measure config call s).2 (measure config call' t).2 := by
  obtain ⟨hresult, hend⟩ := timings_related hcall h config
  unfold measure
  revert hresult hend
  rcases timings config call s with ⟨r, s'⟩
  rcases timings config call' t with ⟨r', t'⟩
  rintro rfl hend
  cases r with
  | error e => exact ⟨rfl, hend⟩
  | ok ts => exact ⟨rfl, hend⟩

end

theorem summarize_eq_ok {ts : List Nat} (hsum : ts.sum < timeLimit)
    (hcount : ts.length = 0 ∨ ts.length % 2 ^ 32 ≠ 0) :
    summarize ts = .ok ⟨ts.min?.getD 0, ts.sum / (max ts.length 1 % 2 ^ 32), ts⟩ := by
  have hdivisor : max ts.length 1 % 0x100000000 ≠ 0 := by
    rcases hcount with hzero | hcount
    · rw [hzero]
      decide
    · have hlength : ts.length ≠ 0 := fun h => hcount (by rw [h, Nat.zero_mod])
      rwa [Nat.max_eq_left (Nat.one_le_iff_ne_zero.mpr hlength)]
  unfold summarize total
  rw [← List.sum_eq_foldl_nat]
  dsimp only
  rw [if_pos hsum]
  exact if_neg hdivisor

/-! ## Counted calls -/

/-- A call that is counted. -/
def counted (call : σ → Run × σ) (x : σ × Nat) : Run × (σ × Nat) := ((call x.1).1, (call x.1).2, x.2 + 1)

theorem after_counted : after (counted call) n (s, m) = (after call n s, m + n) := by
  induction n generalizing s m with
  | zero => rfl
  | succ n ih =>
    rw [show m + (n + 1) = m + 1 + n by omega]
    exact ih

theorem outcome_counted : outcome (counted call) n (s, m) = outcome call n s := by
  rw [outcome, after_counted]
  rfl

theorem times_counted : times (counted call) i n (s, m) = times call i n s := by
  simp only [times, outcome_counted]

theorem succeeds_counted : Succeeds (counted call) n (s, m) ↔ Succeeds call n s := by
  simp only [Succeeds, outcome_counted]

theorem failsAt_counted : FailsAt (counted call) n (s, m) ↔ FailsAt call n s := by
  constructor
  · rintro ⟨hbefore, hfails⟩
    rw [outcome_counted] at hfails
    exact ⟨succeeds_counted.mp hbefore, hfails⟩
  · rintro ⟨hbefore, hfails⟩
    rw [← outcome_counted (m := m)] at hfails
    exact ⟨succeeds_counted.mpr hbefore, hfails⟩

theorem counted_related (call : σ → Run × σ) (x : σ × Nat) (s : σ) (h : x.1 = s) :
    (counted call x).1 = (call s).1 ∧ (counted call x).2.1 = (call s).2 := h ▸ ⟨rfl, rfl⟩

/-- What a benchmark comes to, with its calls counted. -/
structure Accounts (config : Config) (call : σ → Run × σ) (s : σ) : Prop where
  /-- Counting changes nothing. -/
  counting : measure config call s =
    ((measure config (counted call) (s, 0)).1, (measure config (counted call) (s, 0)).2.1)
  /-- The first failure is the last call, and leaves no times. -/
  failed : ∀ i, FailsAt call i s →
    i < config.warmups ∨ i < config.warmups + config.timed ∧ config.HasRoom →
    measure config (counted call) (s, 0) = (.error (.error ⟨⟩), after call (i + 1) s, i + 1)
  /-- Without room for the times no timed call is made. -/
  full : Succeeds call config.warmups s → ¬ config.HasRoom →
    measure config (counted call) (s, 0) =
      (.error (.arithmetic .capacityOverflow), after call config.warmups s, config.warmups)
  /-- Without a failure all calls are made, and the timed ones are recorded and summarized. -/
  completed : Succeeds call (config.warmups + config.timed) s → config.HasRoom →
    let ts := times call config.warmups config.timed s
    ts.length = config.timed ∧
      measure config (counted call) (s, 0) = (checked (summarize ts),
        after call (config.warmups + config.timed) s, config.warmups + config.timed) ∧
      (config.timed = 0 ∨ config.timed % 2 ^ 32 ≠ 0 → ts.sum < timeLimit →
        (measure config (counted call) (s, 0)).1 =
          .ok ⟨ts.min?.getD 0, ts.sum / (max config.timed 1 % 2 ^ 32), ts⟩)

/-- **A benchmark ends at the first failure, and otherwise makes all calls and records the times of the timed
ones.** -/
theorem accounts (config : Config) (call : σ → Run × σ) (s : σ) : Accounts config call s where
  counting := by
    obtain ⟨hresult, hstate⟩ :=
      measure_related (R := fun x s => x.1 = s) (counted_related call) (s := (s, 0)) rfl config
    exact Prod.ext hresult.symm hstate.symm
  failed i h hi := by rw [measure_of_failsAt (failsAt_counted.mpr h) hi, after_counted, Nat.zero_add]
  full h hfull := by rw [measure_of_not_hasRoom (succeeds_counted.mpr h) hfull, after_counted, Nat.zero_add]
  completed h hroom := by
    have hmeasure : measure config (counted call) (s, 0) =
        (checked (summarize (times call config.warmups config.timed s)),
          after call (config.warmups + config.timed) s, config.warmups + config.timed) := by
      rw [measure_of_succeeds (succeeds_counted.mpr h) hroom, after_counted, times_counted, Nat.zero_add]
    refine ⟨length_times, hmeasure, fun hcount hsum => ?_⟩
    rw [hmeasure, summarize_eq_ok hsum (by rwa [length_times]), length_times]
    rfl

/-- A call that always succeeds, in no time to speak of, and counts. -/
def steady (n : Nat) : Run × Nat := (⟨true, 1⟩, n + 1)

/-- No call fails, and yet so many timed calls end before the first. -/
theorem no_call_without_room : (∀ n, Succeeds steady n 0) ∧
    measure ⟨0, 2 ^ 64 - 1, true⟩ (counted steady) (0, 0) = (.error (.arithmetic .capacityOverflow), 0, 0) :=
  ⟨fun _ _ _ => rfl, rfl⟩

end AxisNorm.Benchmark
