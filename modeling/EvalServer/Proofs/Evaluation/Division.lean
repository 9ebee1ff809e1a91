import EvalServer.Proofs.Evaluation.Integers

/-!
# Division

To divide by several integers one after another, truncating each time, is to divide once by their
product, which may be far beyond 64 bits. Only the least integer has a quotient that does not fit,
its quotient by minus one, and no quotient on the way is the least integer again: so it is at the
first divisor other than one that a division overflows or never.
-/

namespace EvalServer

open Integer

namespace Arithmetic

/-! ## One divisor after another -/

lemma tdiv_tdiv (a b c : Int) : (a.tdiv b).tdiv c = a.tdiv (b * c) := by
  have hnat : ∀ k l m : Nat, ((k : Int).tdiv l).tdiv m = (k : Int).tdiv (l * m) := fun k l m => by
    rw [← Int.natCast_mul, ← Int.ofNat_tdiv, ← Int.ofNat_tdiv, ← Int.ofNat_tdiv,
      Nat.div_div_eq_div_mul]
  obtain ⟨k, rfl | rfl⟩ := a.eq_nat_or_neg <;> obtain ⟨l, rfl | rfl⟩ := b.eq_nat_or_neg <;>
    obtain ⟨m, rfl | rfl⟩ := c.eq_nat_or_neg <;>
    simp only [Int.neg_tdiv, Int.tdiv_neg, Int.neg_mul, Int.mul_neg, Int.neg_neg, hnat]

/-- A quotient that is not the number itself is nearer to zero by half at least, but for the
negation. -/
lemma fits_tdiv {a d : Int} (ha : Fits a) (hd : d ≠ 0) :
    (Fits (a.tdiv d) ↔ ¬ (a = -2 ^ 63 ∧ d = -1)) ∧ (d ≠ 1 → a.tdiv d ≠ -2 ^ 63) := by
  unfold Fits at *
  by_cases hunit : d.natAbs = 1
  · obtain rfl | rfl : d = 1 ∨ d = -1 := by omega
    · rw [Int.tdiv_one]
      omega
    · rw [Int.tdiv_neg, Int.tdiv_one]
      omega
  · have hhalf : (a.tdiv d).natAbs ≤ a.natAbs / 2 := by
      rw [Int.natAbs_tdiv]
      exact Nat.div_le_div_left (by omega) (by decide)
    omega

variable {n q d : Int64} {divisors : List Int64}

/-- The one division that overflows: the least integer by divisors of which the first other than
one is minus one. -/
def Overflows (n : Int64) (divisors : List Int64) : Prop :=
  n.toInt = -2 ^ 63 ∧ divisors.find? (· ≠ 1) = some (-1)

lemma overflows_one_cons : Overflows n (1 :: divisors) ↔ Overflows n divisors := by
  simp [Overflows]

lemma overflows_cons (hd : d ≠ 1) : Overflows n (d :: divisors) ↔ n.toInt = -2 ^ 63 ∧ d = -1 := by
  simp [Overflows, hd]

/-- A zero is met only after the overflow that the divisors before it bring about. -/
lemma overflows_takeWhile :
    Overflows n (divisors.takeWhile (· ≠ 0)) ↔ Overflows n divisors := by
  induction divisors with
  | nil => simp
  | cons d divisors ih =>
    by_cases hzero : d = 0
    · subst hzero
      simp [Overflows]
    · rw [List.takeWhile_cons_of_pos (by simpa using hzero)]
      by_cases hone : d = 1
      · subst hone
        rw [overflows_one_cons, overflows_one_cons, ih]
      · rw [overflows_cons hone, overflows_cons hone]

lemma toInt_ne_zero (hd : d ≠ 0) : d.toInt ≠ 0 := by
  rwa [← Int64.toInt_zero, Ne, Int64.toInt_inj]

lemma div?_eq_none_iff (hd : d ≠ 0) :
    div? n d = none ↔ n.toInt = -2 ^ 63 ∧ d = -1 := by
  rw [div?, fit?_eq_none_iff, (fits_tdiv (fits_toInt n) (toInt_ne_zero hd)).1, not_not,
    ← Int64.toInt_inj]
  rfl

/-- A quotient on the way overflows no more than the number divided does. -/
lemma overflows_quotient (hd : d ≠ 0) (hq : div? n d = some q) :
    Overflows n (d :: divisors) ↔ Overflows q divisors := by
  have hvalue : q.toInt = n.toInt.tdiv d.toInt := fit?_eq_some_iff.1 hq
  by_cases hone : d = 1
  · subst hone
    rw [overflows_one_cons]
    rw [show Int64.toInt 1 = 1 from rfl, Int.tdiv_one, Int64.toInt_inj] at hvalue
    rw [hvalue]
  · rw [overflows_cons hone, ← div?_eq_none_iff hd, hq]
    have hne : d.toInt ≠ 1 := by rwa [show (1 : Int) = Int64.toInt 1 from rfl, Ne, Int64.toInt_inj]
    have hnear := (fits_tdiv (fits_toInt n) (toInt_ne_zero hd)).2 hne
    exact iff_of_false (by simp) fun h => hnear (hvalue ▸ h.1)

/-- A division overflows just where a quotient on the way does not fit. -/
lemma not_overflows_iff (hzero : 0 ∉ divisors) : ¬ Overflows n divisors ↔
    ∀ front, front <+: divisors.map Int64.toInt → Fits (n.toInt.tdiv front.prod) := by
  induction divisors generalizing n with
  | nil =>
    refine iff_of_true (by simp [Overflows]) fun front hfront => ?_
    rw [List.map_nil, List.prefix_nil] at hfront
    simpa [hfront] using fits_toInt n
  | cons d divisors ih =>
    obtain ⟨hd, hzero⟩ : d ≠ 0 ∧ 0 ∉ divisors := by
      simpa [eq_comm] using hzero
    cases hq : div? n d with
    | none =>
      have hover := (div?_eq_none_iff hd).1 hq
      refine iff_of_false (not_not.2 ((overflows_cons ?_).2 hover)) fun hfits => ?_
      · rw [hover.2]
        decide
      · have hone := hfits [d.toInt] (by simp)
        rw [List.prod_singleton, (fits_tdiv (fits_toInt n) (toInt_ne_zero hd)).1] at hone
        exact hone ⟨hover.1, by rw [hover.2]; rfl⟩
    | some q =>
      have hvalue : q.toInt = n.toInt.tdiv d.toInt := fit?_eq_some_iff.1 hq
      rw [overflows_quotient hd hq, ih hzero, List.map_cons]
      constructor
      · intro hfits front hfront
        rcases List.prefix_cons_iff.1 hfront with rfl | ⟨others, rfl, hothers⟩
        · simpa using fits_toInt n
        · rw [List.prod_cons, ← tdiv_tdiv, ← hvalue]
          exact hfits others hothers
      · intro hfits front hfront
        rw [hvalue, tdiv_tdiv, ← List.prod_cons]
        exact hfits _ (List.cons_prefix_cons.2 ⟨rfl, hfront⟩)

/-- What a division comes to. -/
lemma quotient_cases (n : Int64) (divisors : List Int64) :
    (Overflows n divisors ∧ quotient n divisors = .error .overflow) ∨
    (¬ Overflows n divisors ∧ 0 ∈ divisors ∧ quotient n divisors = .error .divideByZero) ∨
    (¬ Overflows n divisors ∧ 0 ∉ divisors ∧ ∃ q : Int64, quotient n divisors = .ok (.int q) ∧
      q.toInt = n.toInt.tdiv (divisors.map Int64.toInt).prod) := by
  induction divisors generalizing n with
  | nil => exact .inr (.inr ⟨by simp [Overflows], by simp, n, rfl, by simp⟩)
  | cons d divisors ih =>
    by_cases hd : d = 0
    · subst hd
      refine .inr (.inl ⟨?_, List.mem_cons_self, rfl⟩)
      rw [overflows_cons (by decide)]
      exact fun h => absurd h.2 (by decide)
    · rw [quotient, if_neg hd]
      cases hq : div? n d with
      | none =>
        have hover := (div?_eq_none_iff hd).1 hq
        refine .inl ⟨(overflows_cons ?_).2 hover, rfl⟩
        rw [hover.2]
        decide
      | some q =>
        have hvalue : q.toInt = n.toInt.tdiv d.toInt := fit?_eq_some_iff.1 hq
        rw [overflows_quotient hd hq, List.mem_cons, or_iff_right (Ne.symm hd), List.map_cons,
          List.prod_cons, ← tdiv_tdiv, ← hvalue]
        exact ih q

end Arithmetic

namespace Eval

open Arithmetic

/-- A division by several integers is one division by their product. -/
theorem division_exact (n : Int64) {divisors : List Int64} (hdivisors : divisors ≠ []) :
    (∃ result, apply "/" (.int n :: divisors.map .int) = ofExcept result ∧
      (∀ v, result = .ok v → ∃ q : Int64, v = .int q ∧
        q.toInt = n.toInt.tdiv (divisors.map Int64.toInt).prod) ∧
      (result = .error .divideByZero ↔
        0 ∈ divisors ∧ ∀ front, front <+: (divisors.takeWhile (· ≠ 0)).map Int64.toInt →
          Fits (n.toInt.tdiv front.prod)) ∧
      (result = .error .overflow ↔ Overflows n divisors) ∧
      ∀ e, result = .error e → e = .divideByZero ∨ e = .overflow) ∧
    ∀ v, apply "/" [v] = apply "/" [.int 1, v] := by
  constructor
  · obtain ⟨d, rest, rfl⟩ := List.exists_cons_of_ne_nil hdivisors
    have hquotient : apply "/" ((n :: d :: rest).map .int) = ofExcept (quotient n (d :: rest)) :=
      apply_of_compute (b := .divide) rfl (by rw [division, integers_ints])
    refine ⟨_, hquotient, ?_⟩
    have hfront : 0 ∉ (d :: rest).takeWhile (· ≠ 0) := fun hmem => by
      simpa using List.mem_takeWhile_imp hmem
    rw [← not_overflows_iff hfront, overflows_takeWhile]
    rcases quotient_cases n (d :: rest) with
      ⟨hover, h⟩ | ⟨hover, hzero, h⟩ | ⟨hover, hzero, q, h, hq⟩
    · simp [h, hover]
    · simp [h, hover, hzero]
    · simp [h, hover, hzero, hq]
  · intro v
    have hsame : division [v] = division [.int 1, v] := by
      cases v <;> rfl
    exact (apply_of_compute (b := .divide) rfl hsame).trans
      (apply_of_compute (b := .divide) rfl rfl).symm

/-- An overflow before a zero is an overflow. -/
theorem division_exact_least : ([1, -1, 0] : List Int64) ≠ [] ∧
    apply "/" [.int (-9223372036854775808), .int 1, .int (-1), .int 0] = throw .overflow := by
  refine ⟨by simp, ?_⟩
  obtain ⟨⟨result, happly, -, -, hover, -⟩, -⟩ :=
    division_exact (-9223372036854775808) (show ([1, -1, 0] : List Int64) ≠ [] by simp)
  rw [hover.2 ⟨by decide, by decide⟩] at happly
  exact happly

end Eval

end EvalServer
