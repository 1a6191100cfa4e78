/-!
# Hexadecimal numerals

* `Hex.digits`: the shortest numeral of a number, in lower case.
* `Hex.padded`: the numeral filled up with zeros in front.
* `Hex.parse?`: reads numerals in either case.
-/

namespace AxisNorm.Text.Hex

/-- The shortest numeral, in lower case. -/
def digits (n : Nat) : List Char := Nat.toDigits 16 n

/-- The numeral with at least `width` digits. -/
def padded (width n : Nat) : String :=
  String.ofList ((digits n).leftpad width '0')

/-- The value of one digit. -/
def digit? (c : Char) : Option Nat :=
  if '0' ≤ c ∧ c ≤ '9' then some (c.toNat - '0'.toNat)
  else if 'a' ≤ c ∧ c ≤ 'f' then some (c.toNat - 'a'.toNat + 10)
  else if 'A' ≤ c ∧ c ≤ 'F' then some (c.toNat - 'A'.toNat + 10)
  else none

/-- The value of a numeral with at least one digit. -/
def parse? (text : String) : Option Nat :=
  match text.toList with
  | [] => none
  | cs => cs.foldlM (fun n c => (digit? c).map (16 * n + ·)) 0

end AxisNorm.Text.Hex
