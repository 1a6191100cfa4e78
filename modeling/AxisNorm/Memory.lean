import Std.Data.ExtHashMap

/-!
# Memory

Bytes by 64-bit address. Only mapped addresses can be read or written; numbers of several bytes lie
with the low byte first, and addresses wrap around.

* `Memory.load?`, `Memory.write`: access to numbers of a given number of bytes.
* `Memory.place`: maps bytes at an address.
-/

namespace AxisNorm

/-- The mapped bytes. -/
structure Memory where
  cells : Std.ExtHashMap UInt64 UInt8

namespace Memory

def empty : Memory := ⟨∅⟩

/-- The byte at an address; nothing if it is not mapped. -/
def byte? (m : Memory) (a : UInt64) : Option UInt8 := m.cells[a]?

/-- Maps one byte. -/
def setByte (m : Memory) (a : UInt64) (b : UInt8) : Memory := ⟨m.cells.insert a b⟩

@[ext]
theorem ext {m m' : Memory} (h : ∀ a, m.byte? a = m'.byte? a) : m = m' := by
  cases m; cases m'
  exact congrArg Memory.mk (Std.ExtHashMap.ext_getElem? h)

theorem byte?_setByte (m : Memory) (a c : UInt64) (b : UInt8) :
    (m.setByte a b).byte? c = if a = c then some b else m.byte? c := by
  simp [byte?, setByte, Std.ExtHashMap.getElem?_insert]

/-- The number in `n` bytes. -/
def load? (m : Memory) (a : UInt64) : (n : Nat) → Option Nat
  | 0 => some 0
  | n + 1 => do
    let low ← m.byte? a
    let high ← m.load? (a + 1) n
    pure (low.toNat + 256 * high)

/-- Whether the `n` bytes at an address are mapped. -/
def mapped (m : Memory) (a : UInt64) : (n : Nat) → Bool
  | 0 => true
  | n + 1 => (m.byte? a).isSome && m.mapped (a + 1) n

/-- Writes the low bytes of a number, mapped or not. -/
def write (m : Memory) (a : UInt64) : (n : Nat) → (value : Nat) → Memory
  | 0, _ => m
  | n + 1, value => (m.setByte a (UInt8.ofNat value)).write (a + 1) n (value / 256)

/-- Maps a list of numbers of `n` bytes each, one after the other. -/
def place (m : Memory) (a : UInt64) (n : Nat) : (values : List Nat) → Memory
  | [] => m
  | v :: vs => (m.write a n v).place (a + UInt64.ofNat n) n vs

/-- Reads a list of numbers of `n` bytes each; an unmapped one is absent. -/
def read (m : Memory) (a : UInt64) (n : Nat) : (count : Nat) → List (Option Nat)
  | 0 => []
  | count + 1 => m.load? a n :: m.read (a + UInt64.ofNat n) n count

end Memory

end AxisNorm
