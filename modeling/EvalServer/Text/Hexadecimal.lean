/-!
# Hexadecimal

Digits of either case are read; lower-case digits are written.
-/

namespace EvalServer.Text.Hexadecimal

/-- The value of a digit of either case. -/
def value? (c : Char) : Option Nat :=
  let n := c.toNat
  if 48 ≤ n ∧ n ≤ 57 then some (n - 48)
  else if 97 ≤ n ∧ n ≤ 102 then some (n - 87)
  else if 65 ≤ n ∧ n ≤ 70 then some (n - 55)
  else none

/-- The number that digits stand for after the value read so far. -/
def numberFrom : Nat → List Char → Option Nat
  | n, [] => some n
  | n, c :: rest => (value? c).bind fun d => numberFrom (n * 16 + d) rest

/-- The digit of a number below sixteen. -/
def digit (n : Nat) : Char :=
  Char.ofNat (if n < 10 then 48 + n else 87 + n)

/-- The lowest `count` digits of a number, most significant first. -/
def digits : (count : Nat) → Nat → List Char
  | 0, _ => []
  | count + 1, n => digits count (n / 16) ++ [digit (n % 16)]

/-- Bytes, two digits each. -/
def ofBytes (bytes : List UInt8) : String :=
  String.ofList (bytes.flatMap fun b => digits 2 b.toNat)

/-- The bytes that digits stand for, two digits each. -/
def toBytes? : List Char → Option (List UInt8)
  | [] => some []
  | [_] => none
  | a :: b :: rest => do
    let n ← numberFrom 0 [a, b]
    return UInt8.ofNat n :: (← toBytes? rest)

theorem value?_digit {n : Nat} (h : n < 16) : value? (digit n) = some n := by
  revert n
  decide

theorem numberFrom_append (n : Nat) (front rest : List Char) :
    numberFrom n (front ++ rest) = (numberFrom n front).bind fun m => numberFrom m rest := by
  induction front generalizing n with
  | nil => rfl
  | cons c front ih =>
    cases h : value? c <;> simp [numberFrom, h, ih]

theorem length_digits (count n : Nat) : (digits count n).length = count := by
  induction count generalizing n with
  | zero => rfl
  | succ count ih => simp [digits, ih]

/-- What is written is read as the number, as far as the digits hold it. -/
theorem numberFrom_digits (count n : Nat) :
    numberFrom 0 (digits count n) = some (n % Nat.pow 16 count) := by
  induction count generalizing n with
  | zero => simp [digits, numberFrom, Nat.mod_one]
  | succ count ih =>
    have hd : n % 16 < 16 := Nat.mod_lt _ (by decide)
    rw [digits, numberFrom_append, ih]
    simp only [Option.bind_some, numberFrom, value?_digit hd, Option.some.injEq]
    change _ = n % (Nat.pow 16 count * 16)
    rw [Nat.mul_comm (Nat.pow 16 count) 16, Nat.mod_mul]
    omega

end EvalServer.Text.Hexadecimal
