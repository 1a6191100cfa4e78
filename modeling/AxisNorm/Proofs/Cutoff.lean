import AxisNorm.Proofs.Benchmark

/-!
# Benchmarks with a cutoff

The first timed call is made before the cutoff is looked at, and so it is made in any case. Room for the
times is made as they come.

* `Benchmark.recorded_of_failsAt`, `Benchmark.recorded_of_full`, `Benchmark.recorded_of_succeeds`: what recorded
  calls come to.
* `Benchmark.measureWithCutoff_of_failsAt`, `Benchmark.measureWithCutoff_of_succeeds`: what a benchmark comes to
  whose cutoff is not exceeded (`Benchmark.measureWithCutoff_eq_measure`).
* `Benchmark.measureWithCutoff_uncut`: **it is the benchmark without a cutoff, but for at least one timed call and
  for the room that is made call by call.**
-/

namespace AxisNorm.Benchmark

variable {σ τ : Type} {call : σ → Run × σ} {s : σ} {config : Config} {cutoff count i n : Nat}

/-! ## Recorded calls -/

/-- How many times there is room for if it is made by doubling. -/
def recordLimit : Nat := 2 ^ 58

theorem reserve_of_lt (h : count < recordLimit) : Checked.reserve (2 * count) timeBytes = .ok () := by
  refine Checked.reserve_eq_ok_iff.mpr ?_
  unfold recordLimit at h
  unfold timeBytes
  omega

theorem reserve_recordLimit : Checked.reserve (2 * recordLimit) timeBytes = .error .capacityOverflow := rfl

theorem recorded_succ (hfirst : (call s).1.succeeded = true) (hcount : count < recordLimit) :
    recorded call (n + 1) count s = ((recorded call n (count + 1) (call s).2).1.map ((call s).1.elapsed :: ·),
      (recorded call n (count + 1) (call s).2).2) := by
  rw [recorded]
  dsimp only
  rw [if_pos hfirst, reserve_of_lt hcount]

theorem recorded_of_succeeds (h : Succeeds call n s) (hroom : count + n ≤ recordLimit) :
    recorded call n count s = (.ok (times call 0 n s), after call n s) := by
  induction n generalizing s count with
  | zero => rfl
  | succ n ih =>
    obtain ⟨hfirst, hrest⟩ := succeeds_succ.mp h
    rw [recorded_succ hfirst (by omega), ih hrest (by omega), times_succ]
    rfl

theorem recorded_of_failsAt (h : FailsAt call i s) (hi : i < n) (hroom : count + i ≤ recordLimit) :
    recorded call n count s = (.error (.error ⟨⟩), after call (i + 1) s) := by
  induction n generalizing s i count with
  | zero => cases hi
  | succ n ih =>
    cases i with
    | zero =>
      have hfirst : (call s).1.succeeded = false := h.fails
      rw [recorded]
      dsimp only
      rw [hfirst]
      rfl
    | succ i =>
      obtain ⟨hfirst, hrest⟩ := failsAt_succ.mp h
      rw [recorded_succ hfirst (by omega), ih hrest (Nat.lt_of_succ_lt_succ hi) (by omega)]
      rfl

/-- Recorded calls end at the first for whose time there is no room. -/
theorem recorded_of_full (h : Succeeds call (i + 1) s) (hi : i < n) (hfull : count + i = recordLimit) :
    recorded call n count s = (.error (.arithmetic .capacityOverflow), after call (i + 1) s) := by
  induction n generalizing s i count with
  | zero => cases hi
  | succ n ih =>
    obtain ⟨hfirst, hrest⟩ := succeeds_succ.mp h
    cases i with
    | zero =>
      rw [Nat.add_zero] at hfull
      subst hfull
      rw [recorded]
      dsimp only
      rw [if_pos hfirst, reserve_recordLimit]
      rfl
    | succ i =>
      rw [recorded_succ hfirst (by omega), ih hrest (Nat.lt_of_succ_lt_succ hi) (by omega)]
      rfl

section

variable {call' : τ → Run × τ} {R : σ → τ → Prop}
  (hcall : ∀ s t, R s t → (call s).1 = (call' t).1 ∧ R (call s).2 (call' t).2) {t : τ} (h : R s t)

include hcall h

theorem recorded_related (n count : Nat) :
    (recorded call n count s).1 = (recorded call' n count t).1 ∧
      R (recorded call n count s).2 (recorded call' n count t).2 := by
  induction n generalizing s t count with
  | zero => exact ⟨rfl, h⟩
  | succ n ih =>
    obtain ⟨houtcome, hstate⟩ := hcall s t h
    obtain ⟨hresult, hend⟩ := ih hstate (count + 1)
    rw [recorded, recorded]
    dsimp only
    rw [houtcome]
    split
    · cases Checked.reserve (2 * count) timeBytes with
      | error e => exact ⟨rfl, hstate⟩
      | ok _ => exact ⟨congrArg (Except.map _) hresult, hend⟩
    · exact ⟨rfl, hstate⟩

theorem timingsWithCutoff_related (config : Config) (cutoff : Nat) :
    (timingsWithCutoff config cutoff call s).1 = (timingsWithCutoff config cutoff call' t).1 ∧
      R (timingsWithCutoff config cutoff call s).2 (timingsWithCutoff config cutoff call' t).2 := by
  obtain ⟨hwarm, hstate⟩ := repeated_related hcall h config.warmups
  unfold timingsWithCutoff
  revert hwarm hstate
  rcases repeated call config.warmups s with ⟨r, s'⟩
  rcases repeated call' config.warmups t with ⟨r', t'⟩
  rintro rfl hstate
  obtain ⟨hfirst, hstate'⟩ := hcall s' t' hstate
  obtain ⟨htimes, hend⟩ := recorded_related hcall hstate' (config.timed - 1) 1
  cases r with
  | error e => exact ⟨rfl, hstate⟩
  | ok _ =>
    dsimp only
    rw [hfirst]
    split
    · cases tripled cutoff with
      | error e => exact ⟨rfl, hstate'⟩
      | ok limit =>
        dsimp only
        split
        · exact ⟨rfl, hstate'⟩
        · exact ⟨congrArg (Except.map _) htimes, hend⟩
    · exact ⟨rfl, hstate'⟩

theorem measureWithCutoff_related (config : Config) (cutoff : Nat) :
    (measureWithCutoff config cutoff call s).1 = (measureWithCutoff config cutoff call' t).1 ∧
      R (measureWithCutoff config cutoff call s).2 (measureWithCutoff config cutoff call' t).2 := by
  obtain ⟨hresult, hend⟩ := timingsWithCutoff_related hcall h config cutoff
  unfold measureWithCutoff
  revert hresult hend
  rcases timingsWithCutoff config cutoff call s with ⟨r, s'⟩
  rcases timingsWithCutoff config cutoff call' t with ⟨r', t'⟩
  rintro rfl hend
  rcases r with e | _ | ts <;> exact ⟨rfl, hend⟩

end

/-! ## A benchmark whose cutoff is not exceeded -/

section

variable (hlimit : 3 * cutoff < timeLimit)
  (hcutoff : Succeeds call (config.warmups + 1) s → (outcome call config.warmups s).elapsed ≤ 3 * cutoff)

include hlimit hcutoff

theorem timingsWithCutoff_of_first (h : Succeeds call (config.warmups + 1) s) :
    timingsWithCutoff config cutoff call s =
      ((recorded call (config.timed - 1) 1 (after call (config.warmups + 1) s)).1.map
          fun ts => some ((outcome call config.warmups s).elapsed :: ts),
        (recorded call (config.timed - 1) 1 (after call (config.warmups + 1) s)).2) := by
  have hlimit : tripled cutoff = .ok (3 * cutoff) := if_pos hlimit
  have hfirst : (call (after call config.warmups s)).1.succeeded = true := h _ (Nat.lt_succ_self _)
  have htime : ¬ 3 * cutoff < (call (after call config.warmups s)).1.elapsed := Nat.not_lt.mpr (hcutoff h)
  unfold timingsWithCutoff
  rw [repeated_of_succeeds (succeeds_add.mp h).1]
  dsimp only
  rw [if_pos hfirst, hlimit]
  dsimp only
  rw [if_neg htime, after_add]
  rfl

theorem measureWithCutoff_of_failsAt (h : FailsAt call i s) (hi : i < config.warmups + max 1 config.timed)
    (hroom : i ≤ config.warmups + recordLimit) :
    measureWithCutoff config cutoff call s = (.error (.error ⟨⟩), after call (i + 1) s) := by
  unfold measureWithCutoff
  rcases Nat.lt_trichotomy i config.warmups with hwarm | rfl | hlater
  · unfold timingsWithCutoff
    rw [repeated_of_failsAt h hwarm]
  · have hfirst : (call (after call config.warmups s)).1.succeeded = false := h.fails
    unfold timingsWithCutoff
    rw [repeated_of_succeeds h.before]
    dsimp only
    rw [hfirst, after_add]
    rfl
  · obtain ⟨j, rfl⟩ := Nat.exists_eq_add_of_le (show config.warmups + 1 ≤ i from hlater)
    obtain ⟨hbefore, hfails⟩ := failsAt_add.mp h
    rw [timingsWithCutoff_of_first hlimit hcutoff hbefore, recorded_of_failsAt hfails (by omega) (by omega),
      Nat.add_assoc (config.warmups + 1), after_add (m := config.warmups + 1)]
    rfl

theorem timingsWithCutoff_of_succeeds (h : Succeeds call (config.warmups + max 1 config.timed) s)
    (hroom : config.timed ≤ recordLimit) :
    timingsWithCutoff config cutoff call s = (.ok (some (times call config.warmups (max 1 config.timed) s)),
      after call (config.warmups + max 1 config.timed) s) := by
  have hcount : max 1 config.timed = 1 + (config.timed - 1) := by omega
  rw [hcount, ← Nat.add_assoc] at h ⊢
  obtain ⟨hfirst, hrest⟩ := succeeds_add.mp h
  have hpos : 0 < recordLimit := Nat.two_pow_pos 58
  have htimes : times call config.warmups (1 + (config.timed - 1)) s =
      (outcome call config.warmups s).elapsed ::
        times call 0 (config.timed - 1) (after call (config.warmups + 1) s) := by
    rw [times_eq (m := config.warmups), Nat.add_comm 1, times_succ, after_add (m := config.warmups)]
    rfl
  rw [timingsWithCutoff_of_first hlimit hcutoff hfirst, recorded_of_succeeds hrest (by omega), htimes,
    after_add (m := config.warmups + 1)]
  rfl

theorem measureWithCutoff_of_succeeds (h : Succeeds call (config.warmups + max 1 config.timed) s)
    (hroom : config.timed ≤ recordLimit) :
    measureWithCutoff config cutoff call s =
      ((checked (summarize (times call config.warmups (max 1 config.timed) s))).map some,
        after call (config.warmups + max 1 config.timed) s) := by
  rw [measureWithCutoff, timingsWithCutoff_of_succeeds hlimit hcutoff h hroom]

theorem measureWithCutoff_of_full (h : Succeeds call (config.warmups + recordLimit + 1) s)
    (hfull : recordLimit < config.timed) :
    measureWithCutoff config cutoff call s =
      (.error (.arithmetic .capacityOverflow), after call (config.warmups + recordLimit + 1) s) := by
  obtain ⟨n, hn⟩ : ∃ n, recordLimit = n + 1 := ⟨2 ^ 58 - 1, rfl⟩
  have hcount : config.warmups + recordLimit + 1 = config.warmups + 1 + (n + 1) := by omega
  rw [hcount] at h ⊢
  obtain ⟨hfirst, hrest⟩ := succeeds_add.mp h
  rw [measureWithCutoff, timingsWithCutoff_of_first hlimit hcutoff hfirst,
    recorded_of_full hrest (by omega) (by omega), after_add (m := config.warmups + 1)]
  rfl

theorem measureWithCutoff_eq_measure (hroom : config.timed ≤ recordLimit) :
    measureWithCutoff config cutoff call s =
      ((measure { config with timed := max 1 config.timed } call s).1.map some,
        (measure { config with timed := max 1 config.timed } call s).2) := by
  have hhasRoom : Config.HasRoom { config with timed := max 1 config.timed } := by
    unfold Config.HasRoom timeBytes
    unfold recordLimit at hroom
    dsimp only
    omega
  rcases succeeds_or_failsAt call s (config.warmups + max 1 config.timed) with h | ⟨i, hi, h⟩
  · rw [measureWithCutoff_of_succeeds hlimit hcutoff h hroom, measure_of_succeeds h hhasRoom]
  · have hpos : 0 < recordLimit := Nat.two_pow_pos 58
    rw [measureWithCutoff_of_failsAt hlimit hcutoff h hi (by omega), measure_of_failsAt h (.inr ⟨hi, hhasRoom⟩)]
    rfl

end

theorem summarize_singleton {e : Nat} (h : e < timeLimit) : summarize [e] = .ok ⟨e, e, [e]⟩ := by
  rw [summarize_eq_ok (by simpa using h) (.inr (by simp))]
  simp

/-- What a benchmark comes to whose cutoff is not exceeded, with its calls counted. -/
structure Uncut (config : Config) (cutoff : Nat) (call : σ → Run × σ) (s : σ) : Prop where
  /-- Counting changes nothing. -/
  counting : measureWithCutoff config cutoff call s =
    ((measureWithCutoff config cutoff (counted call) (s, 0)).1,
      (measureWithCutoff config cutoff (counted call) (s, 0)).2.1)
  /-- With room it is the benchmark without a cutoff, but for at least one timed call. -/
  agrees : config.timed ≤ recordLimit →
    measureWithCutoff config cutoff (counted call) (s, 0) =
      ((measure { config with timed := max 1 config.timed } (counted call) (s, 0)).1.map some,
        (measure { config with timed := max 1 config.timed } (counted call) (s, 0)).2)
  /-- If no timed calls are wanted, one is made and recorded. -/
  untimed : config.timed = 0 → Succeeds call (config.warmups + 1) s →
    let e := (outcome call config.warmups s).elapsed
    measure config (counted call) (s, 0) = (.ok ⟨0, 0, []⟩, after call config.warmups s, config.warmups) ∧
      measureWithCutoff config cutoff (counted call) (s, 0) =
        (.ok (some ⟨e, e, [e]⟩), after call (config.warmups + 1) s, config.warmups + 1)
  /-- The calls go on until a list that doubles its room is full, whether there is room for all times or not. -/
  full : recordLimit < config.timed →
    (∀ i ≤ config.warmups + recordLimit, FailsAt call i s →
      measureWithCutoff config cutoff (counted call) (s, 0) = (.error (.error ⟨⟩), after call (i + 1) s, i + 1)) ∧
    (Succeeds call (config.warmups + recordLimit + 1) s →
      measureWithCutoff config cutoff (counted call) (s, 0) = (.error (.arithmetic .capacityOverflow),
        after call (config.warmups + recordLimit + 1) s, config.warmups + recordLimit + 1))

/-- **A benchmark whose first timed call does not exceed the cutoff three times is the benchmark with at least
one timed call**, for as long as a list that doubles its room can record the times. -/
theorem measureWithCutoff_uncut (config : Config) (cutoff : Nat) (call : σ → Run × σ) (s : σ)
    (hlimit : 3 * cutoff < timeLimit)
    (hcutoff : Succeeds call (config.warmups + 1) s → (outcome call config.warmups s).elapsed ≤ 3 * cutoff) :
    Uncut config cutoff call s := by
  have hcounted : Succeeds (counted call) (config.warmups + 1) (s, 0) →
      (outcome (counted call) config.warmups (s, 0)).elapsed ≤ 3 * cutoff := by
    rw [succeeds_counted, outcome_counted]
    exact hcutoff
  refine ⟨?_, measureWithCutoff_eq_measure hlimit hcounted, fun hnone h => ⟨?_, ?_⟩,
    fun hfull => ⟨fun i hi h => ?_, fun h => ?_⟩⟩
  · obtain ⟨hresult, hstate⟩ :=
      measureWithCutoff_related (R := fun x s => x.1 = s) (counted_related call) (s := (s, 0)) rfl config cutoff
    exact Prod.ext hresult.symm hstate.symm
  · have hroom : config.HasRoom := by
      unfold Config.HasRoom
      rw [hnone, Nat.zero_mul]
      exact Nat.two_pow_pos 63
    obtain ⟨-, hmeasure, -⟩ := (accounts config call s).completed (hnone.symm ▸ (succeeds_add.mp h).1) hroom
    rw [hmeasure, hnone, show times call config.warmups 0 s = [] from rfl,
      show summarize [] = .ok ⟨0, 0, []⟩ from rfl]
    rfl
  · have hone : max 1 config.timed = 1 := by rw [hnone, Nat.max_eq_left (Nat.zero_le 1)]
    have hshort : (outcome call config.warmups s).elapsed < timeLimit := Nat.lt_of_le_of_lt (hcutoff h) hlimit
    rw [measureWithCutoff_of_succeeds hlimit hcounted (succeeds_counted.mpr (hone.symm ▸ h)) (hnone ▸ Nat.zero_le _),
      after_counted, times_counted, Nat.zero_add, hone,
      show times call config.warmups 1 s = [(outcome call config.warmups s).elapsed] from rfl,
      summarize_singleton hshort]
    rfl
  · rw [measureWithCutoff_of_failsAt hlimit hcounted (failsAt_counted.mpr h) (by omega) hi, after_counted, Nat.zero_add]
  · rw [measureWithCutoff_of_full hlimit hcounted (succeeds_counted.mpr h) hfull, after_counted, Nat.zero_add]

/-- One warm-up call and three timed ones. -/
theorem measureWithCutoff_uncut_standard :
    measureWithCutoff .standard 1 (counted steady) (0, 0) = (.ok (some ⟨1, 1, [1, 1, 1]⟩), 4, 4) := by
  have h := measureWithCutoff_uncut .standard 1 steady 0 (by decide) (fun _ => by decide)
  rw [h.agrees (by decide)]
  rfl

/-- Without timed calls one benchmark makes no call and records none, and the other one makes and records one. -/
theorem measureWithCutoff_calls_untimed :
    measure ⟨0, 0, true⟩ (counted steady) (0, 0) = (.ok ⟨0, 0, []⟩, 0, 0) ∧
      measureWithCutoff ⟨0, 0, true⟩ 1 (counted steady) (0, 0) = (.ok (some ⟨1, 1, [1]⟩), 1, 1) := ⟨rfl, rfl⟩

end AxisNorm.Benchmark
