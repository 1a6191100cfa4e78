/-!
# Sizes of the host

Extents, offsets and counts are natural numbers below `sizeLimit`.

* `multiply`, `add`, `divide`: the host's arithmetic on sizes; it stops instead of wrapping.
* `reserve`: room for a list, which has to have a size in bytes that is positive as a signed number.
* `product`: a left-to-right product, every step checked.
* `Failure`: how a checked computation ends that does not succeed, with an error of its own or an
  arithmetic one.
* `bind_eq_ok_iff`, `map_eq_ok_iff`, `mapError_eq_ok_iff`: what the parts of a computation that
  succeeds come to.
-/

namespace AxisNorm

/-- A size of the host has 64 bits. -/
def sizeLimit : Nat := 0x10000000000000000

/-- What stops the host's arithmetic. -/
inductive ArithmeticError where
  | multiplyOverflow
  | addOverflow
  | divideByZero
  | capacityOverflow
  /-- A multiple of a time is no time. -/
  | multipleTooLong
  /-- The sum of times is no time. -/
  | sumTooLong
  /-- A time is divided by zero. -/
  | dividedByNone
  deriving DecidableEq, Repr

def ArithmeticError.message : ArithmeticError → String
  | .multiplyOverflow => "attempt to multiply with overflow"
  | .addOverflow => "attempt to add with overflow"
  | .divideByZero => "attempt to divide by zero"
  | .capacityOverflow => "capacity overflow"
  | .multipleTooLong => "overflow when multiplying duration by scalar"
  | .sumTooLong => "overflow in iter::sum over durations"
  | .dividedByNone => "divide by zero error when dividing duration by scalar"

namespace Checked

def multiply (a b : Nat) : Except ArithmeticError Nat :=
  if a * b < sizeLimit then .ok (a * b) else .error .multiplyOverflow

def add (a b : Nat) : Except ArithmeticError Nat :=
  if a + b < sizeLimit then .ok (a + b) else .error .addOverflow

def divide (a b : Nat) : Except ArithmeticError Nat :=
  if b = 0 then .error .divideByZero else .ok (a / b)

/-- Room for `count` elements of `width` bytes each. -/
def reserve (count width : Nat) : Except ArithmeticError Unit :=
  if count * width < 0x8000000000000000 then .ok () else .error .capacityOverflow

/-- The product of a list from the left, starting at `start`. -/
def productFrom (start : Nat) : List Nat → Except ArithmeticError Nat
  | [] => .ok start
  | d :: ds => do productFrom (← multiply start d) ds

/-- The product of a list from the left, starting at one. -/
def product (ds : List Nat) : Except ArithmeticError Nat := productFrom 1 ds

theorem multiply_eq_ok_iff {a b c : Nat} : multiply a b = .ok c ↔ c = a * b ∧ a * b < sizeLimit := by
  unfold multiply; split <;> simp_all [eq_comm]

theorem add_eq_ok_iff {a b c : Nat} : add a b = .ok c ↔ c = a + b ∧ a + b < sizeLimit := by
  unfold add; split <;> simp_all [eq_comm]

theorem reserve_eq_ok_iff {n w : Nat} : reserve n w = .ok () ↔ n * w < 0x8000000000000000 := by
  unfold reserve; split <;> simp_all

theorem reserve_eq_error_iff {n w : Nat} {e : ArithmeticError} :
    reserve n w = .error e ↔ e = .capacityOverflow ∧ 0x8000000000000000 ≤ n * w := by
  unfold reserve; split <;> simp_all [eq_comm]

end Checked

/-- A computation that did not succeed: an error of its own, or arithmetic that stopped. -/
inductive Failure (ε : Type) where
  | error (cause : ε)
  | arithmetic (cause : ArithmeticError)
  deriving DecidableEq, Repr

/-- Arithmetic inside a computation with errors of its own. -/
def checked {ε α : Type} : Except ArithmeticError α → Except (Failure ε) α
  | .ok a => .ok a
  | .error e => .error (.arithmetic e)

/-- The same failure under another kind of error. -/
def Failure.map {ε δ : Type} (f : ε → δ) : Failure ε → Failure δ
  | .error e => .error (f e)
  | .arithmetic a => .arithmetic a

/-! ## Parts of a computation -/

section

variable {ε δ α β : Type} {x : Except ε α} {a : α} {b : β} {e : ε}

theorem bind_eq_ok_iff {f : α → Except ε β} : (x >>= f) = .ok b ↔ ∃ a, x = .ok a ∧ f a = .ok b := by
  cases x with
  | error e => exact ⟨fun h => (by cases h), fun ⟨_, h, _⟩ => (by cases h)⟩
  | ok a => exact ⟨fun h => ⟨a, rfl, h⟩, fun ⟨_, h, h'⟩ => by cases h; exact h'⟩

theorem map_eq_ok_iff {f : α → β} : x.map f = .ok b ↔ ∃ a, x = .ok a ∧ f a = b := by
  cases x with
  | error e => exact ⟨fun h => (by cases h), fun ⟨_, h, _⟩ => (by cases h)⟩
  | ok a => exact ⟨fun h => ⟨a, rfl, Except.ok.inj h⟩, fun ⟨_, h, h'⟩ => by cases h; exact congrArg _ h'⟩

theorem map_eq_error_iff {f : α → β} : x.map f = .error e ↔ x = .error e := by
  cases x with
  | error e' => exact ⟨fun h => by cases h; rfl, fun h => by cases h; rfl⟩
  | ok a => exact ⟨fun h => (by cases h), fun h => (by cases h)⟩

theorem mapError_eq_ok_iff {f : ε → δ} : x.mapError f = .ok a ↔ x = .ok a := by
  cases x with
  | error e => exact ⟨fun h => (by cases h), fun h => (by cases h)⟩
  | ok a' => exact ⟨fun h => by cases h; rfl, fun h => by cases h; rfl⟩

theorem mapError_eq_error_iff {f : ε → δ} {e' : δ} :
    x.mapError f = .error e' ↔ ∃ e, x = .error e ∧ f e = e' := by
  cases x with
  | error e =>
    exact ⟨fun h => ⟨e, rfl, Except.error.inj h⟩, fun ⟨_, h, h'⟩ => by cases h; exact congrArg _ h'⟩
  | ok a => exact ⟨fun h => (by cases h), fun ⟨_, h, _⟩ => (by cases h)⟩

end

end AxisNorm
