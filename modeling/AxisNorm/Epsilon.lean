import AxisNorm.Arithmetic
import AxisNorm.Decimal
import AxisNorm.Text.Quoted
import AxisNorm.Text.WhiteSpace

/-!
# The stabilizing constant

The constant that is added to a variance comes from an attribute: one positive number for all
groups, or one for each, with commas between them. Without the attribute it is `1e-5`.

* `Epsilon.ofAttribute`: the values for a number of groups.
-/

namespace AxisNorm

/-- How the constant was given. -/
inductive EpsilonPolicy where
  | default
  | uniform
  | perGroup
  deriving DecidableEq, Repr

def EpsilonPolicy.name : EpsilonPolicy → String
  | .default => "Default"
  | .uniform => "Uniform"
  | .perGroup => "PerGroup"

/-- What is wrong with the text of the attribute. -/
inductive EpsilonError where
  /-- A piece, without the white space around it, is no finite number above zero. -/
  | invalid (piece : List Char)
  | wrongCount (given groups : Nat)
  deriving DecidableEq, Repr

def EpsilonError.message : EpsilonError → String
  | .invalid piece => "invalid epsilon value " ++ Text.quoted piece
  | .wrongCount given groups =>
    "epsilon has " ++ toString given ++ " values, expected 1 or " ++ toString groups

/-- One value per group, and how they were given. -/
structure Epsilon where
  policy : EpsilonPolicy
  values : List Single
  deriving DecidableEq, Repr

namespace Epsilon

/-- The value where none is given: the number nearest to `1e-5`. -/
def standard : Single := ⟨0x3727c5ac⟩

/-- Reads one value; it must be finite and above zero after rounding. -/
def value? (piece : List Char) : Option Single :=
  (Numeral.parse? piece).bind fun n =>
    let x := n.toSingle
    if x.isFinite ∧ ¬x.isNegative ∧ x.magnitude ≠ 0 then some x else none

/-- The values of pieces, up to the first that has none. -/
def valuesOf : List (List Char) → Except EpsilonError (List Single)
  | [] => .ok []
  | piece :: rest =>
    match value? (Text.trim piece) with
    | none => .error (.invalid (Text.trim piece))
    | some x => (valuesOf rest).map (x :: ·)

/-- One value for all groups, if there is room for a buffer with a number for each. -/
def fill (groups : Nat) (policy : EpsilonPolicy) (x : Single) :
    Except (Failure EpsilonError) Epsilon := do
  checked (Checked.reserve groups Single.bytes)
  pure ⟨policy, List.replicate groups x⟩

/-- The constants of `groups` groups. -/
def ofAttribute (groups : Nat) : Option String → Except (Failure EpsilonError) Epsilon
  | none => fill groups .default standard
  | some text =>
    match valuesOf (Text.pieces ',' text.toList) with
    | .error e => .error (.error e)
    | .ok [x] => fill groups .uniform x
    | .ok xs =>
      if xs.length = groups then .ok ⟨.perGroup, xs⟩
      else .error (.error (.wrongCount xs.length groups))

end Epsilon

end AxisNorm
