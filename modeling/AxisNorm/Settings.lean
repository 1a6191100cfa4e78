import AxisNorm.Arithmetic

/-!
# Settings from the environment

Variables of the environment are bytes. One that is not set, not text or not of the expected form
leaves its setting at the default.

* `threadCount`: how many threads a kernel may use.
* `OptLevel.ofVariable`: how hard the compiler should try.
-/

namespace AxisNorm

/-- How hard the compiler tries. What the code computes does not depend on it. -/
inductive OptLevel where
  | none
  | speed
  | speedAndSize
  deriving DecidableEq, Repr, Inhabited

/-- The text of a variable that is set to well-formed UTF-8. -/
def settingText? (setting : Option ByteArray) : Option String := setting.bind String.fromUTF8?

namespace OptLevel

def name : OptLevel → String
  | none => "None"
  | speed => "Speed"
  | speedAndSize => "SpeedAndSize"

/-- The level where none is set. -/
def standard : OptLevel := speed

/-- The level of a word in lower case. -/
def ofWord? : String → Option OptLevel
  | "none" => some none
  | "speed" => some speed
  | "speed_and_size" => some speedAndSize
  | _ => Option.none

/-- The level that a variable sets, in all lower or all upper case. -/
def ofVariable (setting : Option ByteArray) : OptLevel :=
  match settingText? setting with
  | some "none" | some "NONE" => none
  | some "speed" | some "SPEED" => speed
  | some "speed_and_size" | some "SPEED_AND_SIZE" => speedAndSize
  | _ => standard

end OptLevel

/-- The digits without one plus sign in front. -/
def dropPlus : List Char → List Char
  | '+' :: cs => cs
  | cs => cs

/-- A size in decimal: an optional plus sign and at least one digit. -/
def parseSize? (text : String) : Option Nat :=
  let digits := dropPlus text.toList
  if digits ≠ [] ∧ digits.all Char.isDigit then
    let n := digits.foldl (fun n c => 10 * n + (c.toNat - '0'.toNat)) 0
    if n < sizeLimit then some n else none
  else none

/-- The thread count that a variable sets, if it is positive; else what the machine has. -/
def threadCount (setting : Option ByteArray) (available : Nat) : Nat :=
  match (settingText? setting).bind parseSize? with
  | some n => if 0 < n then n else available
  | none => available

end AxisNorm
