/-!
# Exact arithmetic on extended numbers

The numbers that floating-point data stand for: rationals with a sign that zero has too, the two
infinities, and the result of an operation that has none. The operations are exact; a format rounds
their results.
-/

namespace AxisNorm

/-- An extended number. The magnitude is not negative. -/
inductive Extended where
  | nan
  | infinite (negative : Bool)
  | finite (negative : Bool) (magnitude : Rat)
  deriving DecidableEq, Repr

namespace Extended

/-- A sign in front of a magnitude. -/
def signed (negative : Bool) (magnitude : Rat) : Rat := if negative then -magnitude else magnitude

/-- A rational as an extended number; `zeroNegative` is the sign of zero. -/
def ofRat (zeroNegative : Bool) (q : Rat) : Extended :=
  if q = 0 then .finite zeroNegative 0 else .finite (decide (q < 0)) q.abs

def neg : Extended → Extended
  | .nan => .nan
  | .infinite s => .infinite !s
  | .finite s m => .finite (!s) m

/-- Opposite infinities have no sum. A sum that is zero is negative only if both terms are. -/
def add : Extended → Extended → Extended
  | .nan, _ | _, .nan => .nan
  | .infinite s, .infinite t => if s = t then .infinite s else .nan
  | .infinite s, .finite _ _ => .infinite s
  | .finite _ _, .infinite t => .infinite t
  | .finite s m, .finite t n => ofRat (s && t) (signed s m + signed t n)

def sub (x y : Extended) : Extended := add x (neg y)

/-- Zero times infinity has no value. -/
def mul : Extended → Extended → Extended
  | .nan, _ | _, .nan => .nan
  | .infinite s, .infinite t => .infinite (s ^^ t)
  | .infinite s, .finite t n => if n = 0 then .nan else .infinite (s ^^ t)
  | .finite s m, .infinite t => if m = 0 then .nan else .infinite (s ^^ t)
  | .finite s m, .finite t n => .finite (s ^^ t) (m * n)

/-- Zero by zero and infinity by infinity have no value; anything else by zero is infinite. -/
def div : Extended → Extended → Extended
  | .nan, _ | _, .nan => .nan
  | .infinite _, .infinite _ => .nan
  | .infinite s, .finite t _ => .infinite (s ^^ t)
  | .finite s _, .infinite t => .finite (s ^^ t) 0
  | .finite s m, .finite t n =>
    if n = 0 then if m = 0 then .nan else .infinite (s ^^ t) else .finite (s ^^ t) (m / n)

end Extended

end AxisNorm
