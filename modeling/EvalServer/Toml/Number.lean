import EvalServer.Integer
import EvalServer.Text.Decimal
import EvalServer.Text.Hexadecimal
import EvalServer.Toml.Value

/-!
# TOML numbers and times

Integers must fit into 64 bits, and a number with a fraction or an exponent that is not negative
must be finite. Times must be times of a calendar day.
-/

namespace EvalServer.Toml.Number

/-- The value of a digit in some base up to sixteen, of either case. -/
def digit? (base : Nat) (c : Char) : Option Nat :=
  (Text.Hexadecimal.value? c).filter (· < base)

/-- The digits at the start, between which single underscores may stand, and what follows. -/
def run (base : Nat) : List Char → List Nat × List Char
  | c :: rest =>
    match digit? base c with
    | none => ([], c :: rest)
    | some d =>
      match rest with
      | '_' :: e :: more =>
        if (digit? base e).isSome then
          let (ds, rest) := run base (e :: more)
          (d :: ds, rest)
        else ([d], rest)
      | rest =>
        let (ds, rest) := run base rest
        (d :: ds, rest)
  | [] => ([], [])

def value (base : Nat) (digits : List Nat) : Nat :=
  digits.foldl (fun n d => n * base + d) 0

def run? (base : Nat) (cs : List Char) : Option (List Nat × List Char) :=
  match run base cs with
  | ([], _) => none
  | r => some r

/-- Digits in decimal, with no zero before others. -/
def whole? (cs : List Char) : Option (List Nat × List Char) :=
  match cs with
  | '0' :: rest => some ([0], rest)
  | cs => run? 10 cs

/-- A sign, if there is one: whether it is a minus, and what follows. -/
def sign : List Char → Bool × List Char
  | '-' :: rest => (true, rest)
  | '+' :: rest => (false, rest)
  | cs => (false, cs)

/-- The exponent at the start, if there is one. -/
def exponent? (cs : List Char) : Option (Option Int × List Char) :=
  match cs with
  | c :: rest =>
    if c = 'e' || c = 'E' then do
      let (negative, rest) := sign rest
      let (ds, rest) ← run? 10 rest
      let n := Int.ofNat (value 10 ds)
      return (some (if negative then -n else n), rest)
    else some (none, cs)
  | [] => some (none, [])

/-- The least number that is too large for 64-bit floating point: half a unit beyond the largest. -/
def floatBound : Nat := 1 <<< 1024 - 1 <<< 970

/-- Whether digits times a power of ten are within floating point. -/
def isFinite (digits : List Nat) (power : Int) : Bool :=
  let significant := digits.dropWhile (· = 0)
  let magnitude := Int.ofNat significant.length + power
  if significant.isEmpty || magnitude < 300 then true
  else if 320 < magnitude then false
  else
    let n := value 10 significant
    n * Nat.pow 10 power.toNat < floatBound * Nat.pow 10 (-power).toNat

/-- Reads what follows the digits before the point of a decimal number. -/
def readRest (negative : Bool) (digits : List Nat) (cs : List Char) :
    Option (Option Int × List Char) := do
  let (fraction, rest) ← match cs with
    | '.' :: rest => (run? 10 rest).map fun r => (r.1, r.2)
    | rest => some ([], rest)
  let (power, rest) ← exponent? rest
  if fraction.isEmpty && power.isNone then
    let n := Int.ofNat (value 10 digits)
    let n := if negative then -n else n
    let _ ← Integer.fit? n
    return (some n, rest)
  else if negative || isFinite (digits ++ fraction) (power.getD 0 - fraction.length) then
    return (none, rest)
  else none

/-- Reads a number in a base given by its first two characters. -/
def readBased (base : Nat) (cs : List Char) : Option (Option Int × List Char) := do
  let (ds, rest) ← run? base cs
  let n := Int.ofNat (value base ds)
  let _ ← Integer.fit? n
  return (some n, rest)

/-- Reads a number; it is an integer or something else. -/
def read (cs : List Char) : Option (Option Int × List Char) :=
  match cs with
  | '0' :: 'x' :: rest => readBased 16 rest
  | '0' :: 'o' :: rest => readBased 8 rest
  | '0' :: 'b' :: rest => readBased 2 rest
  | cs =>
    let (negative, rest) := sign cs
    match rest with
    | 'i' :: 'n' :: 'f' :: rest => some (none, rest)
    | 'n' :: 'a' :: 'n' :: rest => some (none, rest)
    | rest => do
      let (digits, rest) ← whole? rest
      readRest negative digits rest

/-- A number of exactly `count` digits from `least` to `most`. -/
def field? (count least most : Nat) (cs : List Char) : Option (Nat × List Char) := do
  let n ← Text.Decimal.toNat? (cs.take count)
  if (cs.take count).length = count ∧ least ≤ n ∧ n ≤ most then return (n, cs.drop count) else none

/-- One given character. -/
def mark? (c : Char) : List Char → Option (List Char)
  | d :: rest => if d = c then some rest else none
  | [] => none

/-- The number of days of a month. -/
def daysIn (year month : Nat) : Nat :=
  if month = 2 then
    if year % 4 = 0 ∧ (year % 100 ≠ 0 ∨ year % 400 = 0) then 29 else 28
  else if month ∈ [4, 6, 9, 11] then 30
  else 31

def readDate (cs : List Char) : Option (List Char) := do
  let (year, rest) ← field? 4 0 9999 cs
  let (month, rest) ← field? 2 1 12 (← mark? '-' rest)
  let (_, rest) ← field? 2 1 (daysIn year month) (← mark? '-' rest)
  return rest

def readTime (cs : List Char) : Option (List Char) := do
  let (_, rest) ← field? 2 0 23 cs
  let (_, rest) ← field? 2 0 59 (← mark? ':' rest)
  let (_, rest) ← field? 2 0 60 (← mark? ':' rest)
  match rest with
  | '.' :: d :: more =>
    if d.isDigit then return more.dropWhile Char.isDigit else none
  | '.' :: [] => none
  | rest => return rest

/-- What follows the distance from universal time at the start, if there is one. -/
def afterOffset (cs : List Char) : List Char :=
  match cs with
  | c :: rest =>
    if c = 'Z' || c = 'z' then rest
    else if c = '+' || c = '-' then
      (do
        let (_, rest) ← field? 2 0 23 rest
        let (_, rest) ← field? 2 0 59 (← mark? ':' rest)
        return rest).getD cs
    else cs
  | [] => []

/-- Reads a date, a time of day, or both. -/
def readMoment (cs : List Char) : Option (List Char) :=
  match readDate cs with
  | none => readTime cs
  | some rest =>
    match rest with
    | c :: more =>
      if c = 'T' || c = 't' || c = ' ' then some (((readTime more).map afterOffset).getD rest)
      else some rest
    | [] => some []

end EvalServer.Toml.Number
