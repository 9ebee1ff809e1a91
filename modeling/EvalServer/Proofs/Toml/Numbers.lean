import EvalServer.Toml.Reader
import Mathlib.Tactic.Lemma

/-!
# Integers survive writing

The digits of a number, with the end of a line behind them, are read as that number: they do not
look like a date, a time or a number in another base.
-/

namespace EvalServer.Toml

open Text.Decimal

variable {ds rest : List Char} {n m : Nat} {c : Char}

/-! ## Digits -/

lemma digits_of_digitsFrom (h : digitsFrom m ds = some n) : ∀ c ∈ ds, (digit? c).isSome = true := by
  induction ds generalizing m with
  | nil => simp
  | cons c ds ih =>
    obtain ⟨d, hd, hrest⟩ := Option.bind_eq_some_iff.1 h
    rw [List.forall_mem_cons]
    exact ⟨by simp [hd], ih hrest⟩

lemma digits_of_toNat? (h : toNat? ds = some n) : ∀ c ∈ ds, (digit? c).isSome = true := by
  cases ds with
  | nil => simp
  | cons c ds => exact digits_of_digitsFrom h

lemma digits_ofNat (n : Nat) : ∀ c ∈ ofNat n, (digit? c).isSome = true :=
  digits_of_digitsFrom (digitsFrom_ofNat n)

lemma exists_digit (n : Nat) :
    ∃ c ds, (natText n).toList = c :: ds ∧ (digit? c).isSome = true := by
  obtain ⟨c, ds, hcs⟩ := List.exists_cons_of_ne_nil (ofNat_ne_nil n)
  have hc : c ∈ ofNat n := by simp [hcs]
  exact ⟨c, ds, by simp [natText, hcs], digits_ofNat n c hc⟩

lemma ne_of_digit {d : Char} (hc : (digit? c).isSome = true) (hd : (digit? d).isSome = false) :
    c ≠ d := by
  rintro rfl
  rw [hc] at hd
  cases hd

/-- What follows any of the digits is a digit or the end of the line. -/
lemma head_drop (hds : ∀ c ∈ ds, (digit? c).isSome = true) {count : Nat}
    (hcount : count ≤ ds.length) {mark : Char} (hmark : (digit? mark).isSome = false)
    (hne : mark ≠ '\n') :
    ((ds ++ '\n' :: rest).drop count).head? ≠ some mark := by
  rw [List.drop_append_of_le_length hcount]
  cases hdrop : ds.drop count with
  | nil => simpa using hne.symm
  | cons c more =>
    have hc : c ∈ ds := List.mem_of_mem_drop (hdrop ▸ List.mem_cons_self)
    simpa using ne_of_digit (hds c hc) hmark

/-! ## Neither dates nor times -/

lemma mark?_eq_none {mark : Char} {cs : List Char} (h : cs.head? ≠ some mark) :
    Number.mark? mark cs = none := by
  cases cs with
  | nil => rfl
  | cons c cs => simpa [Number.mark?] using h

/-- After the digits of a line there is no mark of a date or a time. -/
lemma mark?_of_field? {count least most v : Nat} {mark : Char} {more : List Char}
    (hds : ∀ c ∈ ds, (digit? c).isSome = true) (hmark : (digit? mark).isSome = false)
    (hne : mark ≠ '\n')
    (h : Number.field? count least most (ds ++ '\n' :: rest) = some (v, more)) :
    Number.mark? mark more = none := by
  obtain ⟨k, hk, h⟩ := Option.bind_eq_some_iff.1 h
  split at h
  · cases h
    have hcount : count ≤ ds.length := by
      by_cases hle : count ≤ ds.length
      · exact hle
      · have hline : '\n' ∈ (ds ++ '\n' :: rest).take count := by
          obtain ⟨k, rfl⟩ := Nat.exists_eq_add_of_lt (Nat.lt_of_not_le hle)
          rw [List.take_append, Nat.add_assoc, Nat.add_sub_cancel_left, List.take_succ_cons]
          exact List.mem_append_right _ List.mem_cons_self
        exact absurd (digits_of_toNat? hk _ hline) (by decide)
    exact mark?_eq_none (head_drop hds hcount hmark hne)
  · cases h

lemma readDate_digits (hds : ∀ c ∈ ds, (digit? c).isSome = true) (rest : List Char) :
    Number.readDate (ds ++ '\n' :: rest) = none := by
  unfold Number.readDate
  cases h : Number.field? 4 0 9999 (ds ++ '\n' :: rest) with
  | none => rfl
  | some year =>
    simp only [Option.bind_eq_bind, Option.bind_some,
      mark?_of_field? hds (show (digit? '-').isSome = false by decide) (by decide) h,
      Option.bind_none]

lemma readTime_digits (hds : ∀ c ∈ ds, (digit? c).isSome = true) (rest : List Char) :
    Number.readTime (ds ++ '\n' :: rest) = none := by
  unfold Number.readTime
  cases h : Number.field? 2 0 23 (ds ++ '\n' :: rest) with
  | none => rfl
  | some hour =>
    simp only [Option.bind_eq_bind, Option.bind_some,
      mark?_of_field? hds (show (digit? ':').isSome = false by decide) (by decide) h,
      Option.bind_none]

/-! ## Numbers -/

lemma digit?_ten (c : Char) : Number.digit? 10 c = digit? c := by
  simp only [Number.digit?, Text.Hexadecimal.value?, digit?, ← Bool.decide_and, decide_eq_true_eq]
  split
  · next h => simp [Option.filter, show c.toNat - 48 < 10 by omega]
  · split
    · next h => simp [Option.filter, show ¬ c.toNat - 87 < 10 by omega]
    · split
      · next h => simp [Option.filter, show ¬ c.toNat - 55 < 10 by omega]
      · rfl

lemma run_cons {base d : Nat} {values : List Nat} {cs more : List Char}
    (hd : Number.digit? base c = some d) (hcs : cs.head? ≠ some '_')
    (hrun : Number.run base cs = (values, more)) :
    Number.run base (c :: cs) = (d :: values, more) := by
  unfold Number.run
  simp only [hd]
  split
  · simp at hcs
  · rw [hrun]

lemma run_digits (h : digitsFrom m ds = some n) (rest : List Char) : ∃ values,
    Number.run 10 (ds ++ '\n' :: rest) = (values, '\n' :: rest) ∧
      values.foldl (fun n d => n * 10 + d) m = n := by
  induction ds generalizing m with
  | nil => exact ⟨[], rfl, Option.some.inj h⟩
  | cons c ds ih =>
    obtain ⟨d, hd, hrest⟩ := Option.bind_eq_some_iff.1 h
    obtain ⟨values, hrun, hvalues⟩ := ih hrest
    refine ⟨d :: values, run_cons (by rw [digit?_ten, hd]) ?_ hrun, hvalues⟩
    exact head_drop (digits_of_digitsFrom hrest) (Nat.zero_le _) (by decide) (by decide)

/-- No number but zero starts with a zero. -/
lemma head_ofNat_pos (hn : n ≠ 0) : ∃ d, d ≠ 0 ∧ d < 10 ∧ ∃ more, ofNat n = digit d :: more := by
  induction n using Nat.strongRecOn with
  | ind n ih =>
    unfold ofNat
    split
    · next h => exact ⟨n, hn, h, [], rfl⟩
    · next h =>
      obtain ⟨d, hd, hd', more, hmore⟩ := ih (n / 10) (by omega) (by omega)
      exact ⟨d, hd, hd', more ++ [digit (n % 10)], by simp [hmore]⟩

lemma ofNat_zero : ofNat 0 = ['0'] := by
  rw [ofNat]
  rfl

lemma whole?_ofNat (n : Nat) (rest : List Char) : ∃ values,
    Number.whole? (ofNat n ++ '\n' :: rest) = some (values, '\n' :: rest) ∧
      Number.value 10 values = n := by
  by_cases hn : n = 0
  · subst hn
    rw [ofNat_zero]
    exact ⟨[0], rfl, rfl⟩
  · obtain ⟨values, hrun, hvalues⟩ := run_digits (digitsFrom_ofNat n) rest
    refine ⟨values, ?_, hvalues⟩
    obtain ⟨d, hd, hd', more, hmore⟩ := head_ofNat_pos hn
    have hzero : ∀ d, d < 10 → d ≠ 0 → digit d ≠ '0' := by decide
    obtain ⟨v, others, rfl⟩ : ∃ v others, values = v :: others :=
      List.exists_cons_of_ne_nil fun hnil => hn (by rw [← hvalues, hnil]; rfl)
    unfold Number.whole?
    split
    · next heq =>
      rw [hmore] at heq
      exact absurd (List.cons.inj heq).1 (hzero d hd' hd)
    · rw [Number.run?, hrun]

/-- A digit at the start rules out all but numbers and times. -/
lemma readScalar_digit {cs more : List Char} {i : Int} (hc : (digit? c).isSome = true)
    (hmoment : Number.readMoment (c :: cs) = none)
    (hread : Number.read (c :: cs) = some (some i, more)) :
    readScalar (c :: cs) = some (.integer i, more) := by
  have hne : ∀ {d : Char} {ds : List Char}, (digit? d).isSome = false → c :: cs ≠ d :: ds :=
    fun hd heq => ne_of_digit hc hd (List.cons.inj heq).1
  unfold readScalar
  split
  case h_1 | h_2 | h_3 | h_4 => exact absurd (by assumption) (hne (by decide))
  case h_5 => rw [hmoment, hread]

lemma sign_digit {cs : List Char} (hc : (digit? c).isSome = true) :
    Number.sign (c :: cs) = (false, c :: cs) := by
  unfold Number.sign
  split
  · next heq => exact absurd (List.cons.inj heq).1 (ne_of_digit hc (by decide))
  · next heq => exact absurd (List.cons.inj heq).1 (ne_of_digit hc (by decide))
  · rfl

lemma read_digit {cs : List Char} (hc : (digit? c).isSome = true) (hx : cs.head? ≠ some 'x')
    (ho : cs.head? ≠ some 'o') (hb : cs.head? ≠ some 'b') : Number.read (c :: cs) =
      (Number.whole? (c :: cs)).bind fun r => Number.readRest false r.1 r.2 := by
  unfold Number.read
  split
  · next heq => exact absurd (by rw [(List.cons.inj heq).2]; rfl) hx
  · next heq => exact absurd (by rw [(List.cons.inj heq).2]; rfl) ho
  · next heq => exact absurd (by rw [(List.cons.inj heq).2]; rfl) hb
  · rw [sign_digit hc]
    simp only
    split
    · next heq => exact absurd (List.cons.inj heq).1 (ne_of_digit hc (by decide))
    · next heq => exact absurd (List.cons.inj heq).1 (ne_of_digit hc (by decide))
    · rfl

lemma readRest_line {values : List Nat} (h : Number.value 10 values = n)
    (hn : n < 0x8000000000000000) :
    Number.readRest false values ('\n' :: rest) = some (some (n : Int), '\n' :: rest) := by
  have hfit : Integer.fit? n = some (Int64.ofInt n) := by
    rw [Integer.fit?, if_pos (by omega)]
  have hexponent : Number.exponent? ('\n' :: rest) = some (none, '\n' :: rest) := rfl
  simp [Number.readRest, hexponent, h, hfit]

/-- A number on a line of its own is read as an integer. -/
theorem readScalar_integer (hn : n < 0x8000000000000000) (rest : List Char) :
    readScalar ((natText n).toList ++ '\n' :: rest) = some (.integer n, '\n' :: rest) := by
  have hds := digits_ofNat n
  have hmoment : Number.readMoment (ofNat n ++ '\n' :: rest) = none := by
    rw [Number.readMoment, readDate_digits hds, readTime_digits hds]
  obtain ⟨values, hwhole, hvalue⟩ := whole?_ofNat n rest
  rw [natText, String.toList_ofList]
  obtain ⟨c, ds, hcs⟩ := List.exists_cons_of_ne_nil (ofNat_ne_nil n)
  rw [hcs, List.cons_append] at hwhole hmoment ⊢
  rw [hcs, List.forall_mem_cons] at hds
  have hmark : ∀ mark : Char, (digit? mark).isSome = false → mark ≠ '\n' →
      (ds ++ '\n' :: rest).head? ≠ some mark := fun mark =>
    head_drop hds.2 (Nat.zero_le _)
  have hread : Number.read (c :: (ds ++ '\n' :: rest)) = some (some (n : Int), '\n' :: rest) := by
    rw [read_digit hds.1 (hmark 'x' (by decide) (by decide)) (hmark 'o' (by decide) (by decide))
      (hmark 'b' (by decide) (by decide)), hwhole, Option.bind_some, readRest_line hvalue hn]
  exact readScalar_digit hds.1 hmoment hread

end EvalServer.Toml
