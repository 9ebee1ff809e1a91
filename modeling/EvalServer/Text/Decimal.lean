import EvalServer.Integer

/-!
# Integers in decimal

Reading and writing of integers, and of the signed 64-bit integers that values are made of. Main
definitions: `ofInt` writes the shortest decimal text, `toInt64?` reads an optional sign followed
by digits and refuses what does not fit into 64 bits.
-/

namespace EvalServer.Text.Decimal

/-- The digit character of a number below ten. -/
def digit (n : Nat) : Char :=
  Char.ofNat (48 + n)

/-- The decimal digits of a natural number, most significant first. -/
def ofNat (n : Nat) : List Char :=
  if n < 10 then [digit n] else ofNat (n / 10) ++ [digit (n % 10)]
termination_by n
decreasing_by omega

/-- The decimal text of an integer: a minus sign before negative numbers only. -/
def ofInt : Int → List Char
  | .ofNat n => ofNat n
  | .negSucc n => '-' :: ofNat (n + 1)

/-- The value of an ASCII digit. -/
def digit? (c : Char) : Option Nat :=
  if 48 ≤ c.toNat && c.toNat ≤ 57 then some (c.toNat - 48) else none

/-- The number that digits stand for after the value read so far. -/
def digitsFrom : Nat → List Char → Option Nat
  | n, [] => some n
  | n, c :: rest => (digit? c).bind fun d => digitsFrom (n * 10 + d) rest

/-- One digit or more. -/
def toNat? : List Char → Option Nat
  | [] => none
  | cs => digitsFrom 0 cs

/-- Digits after at most one sign. -/
def toInt? : List Char → Option Int
  | '-' :: cs => (toNat? cs).map fun (n : Nat) => -(n : Int)
  | '+' :: cs => (toNat? cs).map Int.ofNat
  | cs => (toNat? cs).map Int.ofNat

/-- As `digitsFrom`, of numbers up to a bound; nothing is read once the bound is passed. -/
def digitsUpTo (bound : Nat) : Nat → List Char → Option Nat
  | n, [] => some n
  | n, c :: rest => (digit? c).bind fun d =>
    if n * 10 + d ≤ bound then digitsUpTo bound (n * 10 + d) rest else none

/-- One digit or more, of a number up to a bound. -/
def toNatUpTo? (bound : Nat) : List Char → Option Nat
  | [] => none
  | cs => digitsUpTo bound 0 cs

/-- The 64-bit integer that a text stands for. -/
def toInt64? (cs : List Char) : Option Int64 :=
  match cs with
  | '-' :: cs => (toNatUpTo? 0x8000000000000000 cs).bind fun n => Integer.fit? (-(n : Int))
  | '+' :: cs => (toNatUpTo? 0x8000000000000000 cs).bind fun n => Integer.fit? n
  | cs => (toNatUpTo? 0x8000000000000000 cs).bind fun n => Integer.fit? n

def natText (n : Nat) : String :=
  String.ofList (ofNat n)

def intText (i : Int) : String :=
  String.ofList (ofInt i)

theorem digit?_digit {n : Nat} (h : n < 10) : digit? (digit n) = some n := by
  revert n
  decide

theorem digitsFrom_append (n : Nat) (front rest : List Char) :
    digitsFrom n (front ++ rest) = (digitsFrom n front).bind fun m => digitsFrom m rest := by
  induction front generalizing n with
  | nil => rfl
  | cons c front ih =>
    cases h : digit? c <;> simp [digitsFrom, h, ih]

theorem digitsFrom_ofNat (n : Nat) : digitsFrom 0 (ofNat n) = some n := by
  induction n using Nat.strongRecOn with
  | ind n ih =>
    unfold ofNat
    split
    · next h => simp [digitsFrom, digit?_digit h]
    · next h =>
      have hd : n % 10 < 10 := Nat.mod_lt _ (by decide)
      rw [digitsFrom_append, ih (n / 10) (by omega)]
      simp only [Option.bind_some, digitsFrom, digit?_digit hd, Option.some.injEq]
      omega

theorem ofNat_ne_nil (n : Nat) : ofNat n ≠ [] := by
  unfold ofNat
  split <;> simp

/-- What is written for a natural number is read as that number. -/
theorem toNat?_ofNat (n : Nat) : toNat? (ofNat n) = some n := by
  unfold toNat?
  split
  · next h => exact absurd h (ofNat_ne_nil n)
  · exact digitsFrom_ofNat n

/-- Decimal texts start with a digit, so that none of them looks like a sign. -/
theorem head_ofNat (n : Nat) : ∃ d, d < 10 ∧ ∃ rest, ofNat n = digit d :: rest := by
  induction n using Nat.strongRecOn with
  | ind n ih =>
    unfold ofNat
    split
    · next h => exact ⟨n, h, [], rfl⟩
    · next h =>
      obtain ⟨d, hd, rest, hr⟩ := ih (n / 10) (by omega)
      exact ⟨d, hd, rest ++ [digit (n % 10)], by simp [hr]⟩

/-- What is written for an integer is read as that integer. -/
theorem toInt?_ofInt (i : Int) : toInt? (ofInt i) = some i := by
  cases i with
  | ofNat n =>
    obtain ⟨d, hd, rest, hr⟩ := head_ofNat n
    have hsign : ∀ k, k < 10 → digit k ≠ '-' ∧ digit k ≠ '+' := by decide
    have h := toNat?_ofNat n
    simp only [ofInt]
    unfold toInt?
    split
    · next cs hc => exact absurd (List.cons.inj (hr.symm.trans hc)).1 (hsign d hd).1
    · next cs hc => exact absurd (List.cons.inj (hr.symm.trans hc)).1 (hsign d hd).2
    · simp [h]
  | negSucc n =>
    simp [ofInt, toInt?, toNat?_ofNat, Int.negSucc_eq]

theorem le_of_digitsFrom {n m : Nat} {cs : List Char} (h : digitsFrom n cs = some m) : n ≤ m := by
  induction cs generalizing n with
  | nil => exact Nat.le_of_eq (Option.some.inj h)
  | cons c rest ih =>
    obtain ⟨d, -, hd⟩ := Option.bind_eq_some_iff.1 h
    have := ih hd
    omega

/-- The bound refuses exactly the numbers above it. -/
theorem digitsUpTo_eq_filter {bound n : Nat} (h : n ≤ bound) (cs : List Char) :
    digitsUpTo bound n cs = (digitsFrom n cs).filter (· ≤ bound) := by
  induction cs generalizing n with
  | nil => simp [digitsUpTo, digitsFrom, Option.filter, h]
  | cons c rest ih =>
    cases hc : digit? c with
    | none => simp [digitsUpTo, digitsFrom, hc]
    | some d =>
      simp only [digitsUpTo, digitsFrom, hc, Option.bind_some]
      split
      · next hd => exact ih hd
      · next hd =>
        cases hm : digitsFrom (n * 10 + d) rest with
        | none => rfl
        | some m =>
          have := le_of_digitsFrom hm
          have hb : ¬ m ≤ bound := by omega
          simp [Option.filter, hb]

theorem toNatUpTo?_eq_filter (bound : Nat) (cs : List Char) :
    toNatUpTo? bound cs = (toNat? cs).filter (· ≤ bound) := by
  cases cs with
  | nil => rfl
  | cons c rest => exact digitsUpTo_eq_filter (Nat.zero_le bound) (c :: rest)

theorem bind_filter_fit? (o : Option Nat) (f : Nat → Int)
    (h : ∀ n, ¬ n ≤ 0x8000000000000000 → Integer.fit? (f n) = none) :
    ((o.filter (· ≤ 0x8000000000000000)).bind fun n => Integer.fit? (f n)) =
      (o.map f).bind Integer.fit? := by
  cases o with
  | none => rfl
  | some n =>
    by_cases hn : n ≤ 0x8000000000000000
    · simp [Option.filter, hn]
    · simp [Option.filter, hn, h n hn]

/-- Exactly the integers that fit are read as 64-bit integers. -/
theorem toInt64?_eq (cs : List Char) : toInt64? cs = (toInt? cs).bind Integer.fit? := by
  have hneg : ∀ n : Nat, ¬ n ≤ 0x8000000000000000 → Integer.fit? (-(n : Int)) = none := by
    intro n hn
    simp only [Integer.fit?, ite_eq_right_iff, reduceCtorEq, imp_false]
    omega
  have hpos : ∀ n : Nat, ¬ n ≤ 0x8000000000000000 → Integer.fit? (Int.ofNat n) = none := by
    intro n hn
    simp only [Integer.fit?, Int.ofNat_eq_natCast, ite_eq_right_iff, reduceCtorEq, imp_false]
    omega
  unfold toInt64? toInt?
  split <;> simp only [toNatUpTo?_eq_filter]
  · exact bind_filter_fit? _ _ hneg
  · exact bind_filter_fit? _ _ hpos
  · exact bind_filter_fit? _ _ hpos

end EvalServer.Text.Decimal
