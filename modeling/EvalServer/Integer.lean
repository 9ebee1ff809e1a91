/-!
# Checked 64-bit integers

Arithmetic on signed 64-bit integers that answers nothing when the exact result does not fit.
-/

namespace EvalServer.Integer

/-- The 64-bit integer of a value, if the value fits. -/
def fit? (i : Int) : Option Int64 :=
  if -0x8000000000000000 ≤ i ∧ i < 0x8000000000000000 then some (Int64.ofInt i) else none

def add? (a b : Int64) : Option Int64 := fit? (a.toInt + b.toInt)

def sub? (a b : Int64) : Option Int64 := fit? (a.toInt - b.toInt)

def mul? (a b : Int64) : Option Int64 := fit? (a.toInt * b.toInt)

def neg? (a : Int64) : Option Int64 := fit? (-a.toInt)

/-- The quotient truncated toward zero, of a divisor other than zero. -/
def div? (a b : Int64) : Option Int64 := fit? (a.toInt.tdiv b.toInt)

end EvalServer.Integer
