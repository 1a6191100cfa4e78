import AxisNorm.Arithmetic

/-!
# Benchmarks

Repeated calls of something that may fail and takes time, in nanoseconds. The calls are made one at
a time and end at the first failure.

* `Benchmark.measure`: warm-up calls, then timed ones, if there is room to record them, and a summary
  of their times.
* `Benchmark.measureWithCutoff`: the same, but given up if the first timed call takes more than three
  times the cutoff, and with room made as it is needed.
* `Benchmark.summarize`: recorded times, with the least and the mean of them.
-/

namespace AxisNorm.Benchmark

/-- How often to call, and which time counts. -/
structure Config where
  warmups : Nat
  timed : Nat
  takeMinimum : Bool
  deriving DecidableEq, Repr

def Config.standard : Config := ⟨1, 3, true⟩

/-- One call: whether it succeeded, and how long it took. -/
structure Run where
  succeeded : Bool
  elapsed : Nat
  deriving DecidableEq, Repr

/-- A call failed. -/
structure Aborted where
  deriving DecidableEq, Repr

variable {σ : Type}

/-- Makes `n` calls, up to the first that fails; the times in order. -/
def repeated (call : σ → Run × σ) : Nat → σ → Except Aborted (List Nat) × σ
  | 0, s => (.ok [], s)
  | n + 1, s =>
    let (r, s) := call s
    if r.succeeded then
      let (times, s) := repeated call n s
      (times.map (r.elapsed :: ·), s)
    else (.error ⟨⟩, s)

/-- The bytes of a recorded time. -/
def timeBytes : Nat := 16

/-- Makes `n` calls, up to the first that fails, and records their times one by one behind `count` others.
A list that is full doubles its room; the shortest list for which that is refused is one that is full. -/
def recorded (call : σ → Run × σ) : (n count : Nat) → σ → Except (Failure Aborted) (List Nat) × σ
  | 0, _, s => (.ok [], s)
  | n + 1, count, s =>
    let (r, s) := call s
    if r.succeeded then
      match Checked.reserve (2 * count) timeBytes with
      | .error e => (.error (.arithmetic e), s)
      | .ok () =>
        let (times, s) := recorded call n (count + 1) s
        (times.map (r.elapsed :: ·), s)
    else (.error (.error ⟨⟩), s)

/-! ## Times -/

/-- Times have whole seconds that are a size of the host, and nanoseconds. -/
def timeLimit : Nat := sizeLimit * 1000000000

/-- Three times a cutoff. -/
def tripled (cutoff : Nat) : Except ArithmeticError Nat :=
  if 3 * cutoff < timeLimit then .ok (3 * cutoff) else .error .multipleTooLong

/-- Recorded times, with the least and the mean of them. -/
structure Summary where
  least : Nat
  mean : Nat
  times : List Nat
  deriving DecidableEq, Repr

/-- The time that counts. -/
def Summary.timing (s : Summary) (takeMinimum : Bool) : Nat := if takeMinimum then s.least else s.mean

/-- The sum of recorded times. -/
def total (times : List Nat) : Except ArithmeticError Nat :=
  let sum := times.foldl (· + ·) 0
  if sum < timeLimit then .ok sum else .error .sumTooLong

/-- Recorded times, with the least and the mean of them, both zero if there are none. The mean is rounded
down; its divisor is a number of 32 bits. -/
def summarize (times : List Nat) : Except ArithmeticError Summary := do
  let sum ← total times
  let divisor := max times.length 1 % 0x100000000
  if divisor = 0 then .error .dividedByNone
  else pure { least := times.min?.getD 0, mean := sum / divisor, times }

/-! ## Benchmarks -/

/-- The times of the timed calls. Room for all of them is made after the warm-up calls. -/
def timings (config : Config) (call : σ → Run × σ) (s : σ) : Except (Failure Aborted) (List Nat) × σ :=
  match repeated call config.warmups s with
  | (.error e, s) => (.error (.error e), s)
  | (.ok _, s) =>
    match Checked.reserve config.timed timeBytes with
    | .error e => (.error (.arithmetic e), s)
    | .ok () =>
      let (times, s) := repeated call config.timed s
      (times.mapError .error, s)

/-- The warm-up calls and the timed ones, and a summary of the latter. -/
def measure (config : Config) (call : σ → Run × σ) (s : σ) : Except (Failure Aborted) Summary × σ :=
  match timings config call s with
  | (.error e, s) => (.error e, s)
  | (.ok times, s) => (checked (summarize times), s)

/-- The times of the timed calls, of which there is at least one; nothing if the first took more than
three times the cutoff. Room is made call by call. -/
def timingsWithCutoff (config : Config) (cutoff : Nat) (call : σ → Run × σ) (s : σ) :
    Except (Failure Aborted) (Option (List Nat)) × σ :=
  match repeated call config.warmups s with
  | (.error e, s) => (.error (.error e), s)
  | (.ok _, s) =>
    let (first, s) := call s
    if first.succeeded then
      match tripled cutoff with
      | .error e => (.error (.arithmetic e), s)
      | .ok limit =>
        if limit < first.elapsed then (.ok none, s)
        else
          let (times, s) := recorded call (config.timed - 1) 1 s
          (times.map fun ts => some (first.elapsed :: ts), s)
    else (.error (.error ⟨⟩), s)

/-- The warm-up calls and the timed ones, and a summary of the latter; nothing if the first took more than
three times the cutoff. -/
def measureWithCutoff (config : Config) (cutoff : Nat) (call : σ → Run × σ) (s : σ) :
    Except (Failure Aborted) (Option Summary) × σ :=
  match timingsWithCutoff config cutoff call s with
  | (.error e, s) => (.error e, s)
  | (.ok none, s) => (.ok none, s)
  | (.ok (some times), s) => ((checked (summarize times)).map some, s)

end AxisNorm.Benchmark
