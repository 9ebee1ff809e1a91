import EvalServer.Proofs.Evaluation.CoreLanguage

/-!
# Integer functions

The functions on integers compute in the integers, and the only limit is what 64 bits hold: an
argument that is no integer is named before anything is computed, and each total on the way to the
result has to fit, even where the result itself would. A comparison of neighbours is a comparison
of all.
-/

namespace EvalServer

namespace Integer

/-- The integers that 64 bits hold. -/
def Fits (i : Int) : Prop :=
  -2 ^ 63 ≤ i ∧ i < 2 ^ 63

instance (i : Int) : Decidable (Fits i) :=
  inferInstanceAs (Decidable (_ ∧ _))

lemma fits_toInt (n : Int64) : Fits n.toInt :=
  ⟨n.le_toInt, n.toInt_lt⟩

lemma fit?_eq_some_iff {i : Int} {n : Int64} : fit? i = some n ↔ n.toInt = i := by
  constructor
  · intro h
    unfold fit? at h
    split at h
    · next hfits =>
      cases h
      exact Int64.toInt_ofInt_of_le hfits.1 hfits.2
    · cases h
  · rintro rfl
    rw [fit?, if_pos ⟨n.le_toInt, n.toInt_lt⟩, Int64.ofInt_toInt]

lemma fit?_eq_none_iff {i : Int} : fit? i = none ↔ ¬ Fits i := by
  unfold fit? Fits
  split <;> simp_all

end Integer

open Integer

namespace Arithmetic

variable {operator : String} {arguments : List Sexp} {ns : List Int64} {start n : Int64}

/-! ## Arguments -/

lemma integers_ints (operator : String) (ns : List Int64) :
    integers operator (ns.map .int) = .ok ns := by
  induction ns with
  | nil => rfl
  | cons n ns ih =>
    rw [List.map_cons, integers, ih]
    rfl

lemma integers_of_first {front rest : List Sexp} {got : Sexp}
    (hfront : ∀ v ∈ front, ∃ n, v = .int n) (hgot : ∀ n, got ≠ .int n) :
    integers operator (front ++ got :: rest) = .error (.type (.notInteger operator got)) := by
  induction front with
  | nil => cases got with
    | int n => exact absurd rfl (hgot n)
    | _ => rfl
  | cons v front ih =>
    obtain ⟨n, rfl⟩ := hfront v List.mem_cons_self
    rw [List.cons_append, integers, ih fun v hv => hfront v (List.mem_cons_of_mem _ hv)]
    rfl

/-! ## Totals -/

/-- A total is there if it and each total on the way to it fit. -/
lemma accumulate_eq_some_iff {op : Int64 → Int64 → Option Int64} {f : Int → Int → Int}
    (hop : ∀ a b, op a b = fit? (f a.toInt b.toInt)) : accumulate op start ns = some n ↔
      (∀ front, front <+: ns.map Int64.toInt → Fits (front.foldl f start.toInt)) ∧
        n.toInt = (ns.map Int64.toInt).foldl f start.toInt := by
  induction ns generalizing start with
  | nil =>
    simp only [accumulate, List.map_nil, List.prefix_nil, forall_eq, List.foldl_nil, fits_toInt,
      true_and, Option.some.injEq, Int64.toInt_inj, eq_comm]
  | cons m ns ih =>
    simp only [accumulate, hop, Option.bind_eq_some_iff, ih, fit?_eq_some_iff, List.map_cons,
      List.foldl_cons]
    constructor
    · rintro ⟨next, hnext, hfronts, htotal⟩
      rw [hnext] at hfronts htotal
      refine ⟨fun front hfront => ?_, htotal⟩
      obtain rfl | ⟨front, rfl, hprefix⟩ := List.prefix_cons_iff.1 hfront
      · exact fits_toInt start
      · exact hfronts front hprefix
    · rintro ⟨hfronts, htotal⟩
      obtain ⟨hlow, hhigh⟩ := hfronts [m.toInt] (by simp)
      have hnext := Int64.toInt_ofInt_of_le hlow hhigh
      rw [List.foldl_cons, List.foldl_nil] at hnext
      refine ⟨_, hnext, fun front hfront => ?_, by rw [hnext]; exact htotal⟩
      rw [hnext]
      exact hfronts (m.toInt :: front) (List.cons_prefix_cons.2 ⟨rfl, hfront⟩)

lemma foldl_add (start : Int) (ns : List Int) : ns.foldl (· + ·) start = start + ns.sum := by
  induction ns generalizing start with
  | nil => simp
  | cons n ns ih => simp [ih, Int.add_assoc]

lemma foldl_sub (start : Int) (ns : List Int) : ns.foldl (· - ·) start = start - ns.sum := by
  induction ns generalizing start with
  | nil => simp
  | cons n ns ih => simp [ih, Int.sub_sub]

lemma foldl_mul (start : Int) (ns : List Int) : ns.foldl (· * ·) start = start * ns.prod := by
  induction ns generalizing start with
  | nil => simp
  | cons n ns ih => simp [ih, Int.mul_assoc]

/-! ## Comparisons -/

lemma chain_iff_pairwise {related : Int64 → Int64 → Bool} {r : Int → Int → Prop} [Trans r r r]
    (hrelated : ∀ a b, related a b = true ↔ r a.toInt b.toInt) :
    chain related ns = true ↔ (ns.map Int64.toInt).Pairwise r := by
  rw [← List.isChain_iff_pairwise]
  induction ns with
  | nil => simp [chain]
  | cons a ns ih => cases ns with
    | nil => simp [chain]
    | cons b ns =>
      rw [chain, Bool.and_eq_true, hrelated, ih, List.map_cons, List.map_cons, List.map_cons,
        List.isChain_cons_cons]

end Arithmetic

namespace Eval

/-- What comes of integers that are taken one after another: the last total as a value if every
total on the way fits, and an overflow if one does not. -/
def Accumulates (result : Eval Sexp) (total : List Int → Int) (ns : List Int64) : Prop :=
  ((∀ front, front <+: ns.map Int64.toInt → Fits (total front)) →
    ∃ n : Int64, n.toInt = total (ns.map Int64.toInt) ∧ result = pure (.int n)) ∧
  (∀ front, front <+: ns.map Int64.toInt → ¬ Fits (total front) → result = throw .overflow)

/-- What the functions on integers make of any arguments. -/
structure ExactOn (arguments : List Sexp) : Prop where
  /-- The first argument that is no integer is named, whatever the others are. -/
  refuses : ∀ operator ∈ ["+", "-", "*", "<", ">", "<=", ">="], ∀ front got rest,
    arguments = front ++ got :: rest → (∀ v ∈ front, ∃ n, v = .int n) → (∀ n, got ≠ .int n) →
    ∃ fault, apply operator arguments = throw (.type fault) ∧
      fault.message = operator ++ " expects integers, got " ++ got.print
  adds : ∀ ns, arguments = ns.map .int → Accumulates (apply "+" arguments) List.sum ns
  multiplies : ∀ ns, arguments = ns.map .int → Accumulates (apply "*" arguments) List.prod ns
  subtracts : ∀ x ns, ns ≠ [] → arguments = .int x :: ns.map .int →
    Accumulates (apply "-" arguments) (fun front => x.toInt - front.sum) ns
  /-- The least integer has no negation. -/
  negates : ∀ x, arguments = [.int x] →
    (x.toInt ≠ -2 ^ 63 → ∃ n : Int64, n.toInt = -x.toInt ∧ apply "-" arguments = pure (.int n)) ∧
    (x.toInt = -2 ^ 63 → apply "-" arguments = throw .overflow)
  increments : ∀ x, arguments = [.int x] →
    Accumulates (apply "inc" arguments) (fun _ => x.toInt + 1) []
  decrements : ∀ x, arguments = [.int x] →
    Accumulates (apply "dec" arguments) (fun _ => x.toInt - 1) []
  /-- Each earlier argument is compared with each later one. -/
  compares : ∀ operator r, (operator, r) ∈
      [("<", fun a b : Int => a < b), (">", fun a b => b < a), ("<=", fun a b => a ≤ b),
        (">=", fun a b => b ≤ a)] →
    ∀ ns : List Int64, ns ≠ [] → arguments = ns.map .int →
    ((ns.map Int64.toInt).Pairwise r → apply operator arguments = pure .t) ∧
    (¬ (ns.map Int64.toInt).Pairwise r → apply operator arguments = pure .nil)

lemma apply_of_compute {b : Builtin} {f : List Sexp → Except EvalError Sexp} {arguments : List Sexp}
    {result : Except EvalError Sexp} (hb : b.compute? = some f) (hresult : f arguments = result) :
    apply b.name arguments = ofExcept result := by
  rw [apply, Builtin.ofName?_name]
  simp only [applyBuiltin, hb, hresult]

lemma accumulates_checked {total : List Int → Int} {ns : List Int64} {o : Option Int64}
    (ho : ∀ n, o = some n ↔
      (∀ front, front <+: ns.map Int64.toInt → Fits (total front)) ∧
        n.toInt = total (ns.map Int64.toInt)) :
    Accumulates (ofExcept (Arithmetic.checked o)) total ns := by
  constructor
  · intro hfits
    obtain ⟨hlow, hhigh⟩ := hfits _ List.prefix_rfl
    have htotal := Int64.toInt_ofInt_of_le hlow hhigh
    refine ⟨_, htotal, ?_⟩
    rw [(ho _).2 ⟨hfits, htotal⟩]
    rfl
  · intro front hfront hfits
    cases o with
    | none => rfl
    | some n => exact absurd (((ho n).1 rfl).1 front hfront) hfits

lemma accumulates_fit (i : Int) :
    Accumulates (ofExcept (Arithmetic.checked (fit? i))) (fun _ => i) [] :=
  accumulates_checked fun n => by
    rw [fit?_eq_some_iff]
    exact ⟨fun h => ⟨fun _ _ => h ▸ fits_toInt n, h⟩, fun h => h.2⟩

lemma accumulates_fold {op : Int64 → Int64 → Option Int64} {f : Int → Int → Int}
    {total : List Int → Int} (hop : ∀ a b, op a b = fit? (f a.toInt b.toInt)) (start : Int64)
    (htotal : ∀ is : List Int, is.foldl f start.toInt = total is) (ns : List Int64) :
    Accumulates (ofExcept (Arithmetic.checked (Arithmetic.accumulate op start ns))) total ns :=
  accumulates_checked fun n => by
    rw [Arithmetic.accumulate_eq_some_iff hop, htotal]
    simp only [htotal]

lemma apply_compare {b : Builtin} {related : Int64 → Int64 → Bool} {r : Int → Int → Prop}
    [Trans r r r] (hb : b.compute? = some (Arithmetic.compare b.name related))
    (hrelated : ∀ a b, related a b = true ↔ r a.toInt b.toInt) {ns : List Int64} (hns : ns ≠ []) :
    ((ns.map Int64.toInt).Pairwise r → apply b.name (ns.map .int) = pure .t) ∧
    (¬ (ns.map Int64.toInt).Pairwise r → apply b.name (ns.map .int) = pure .nil) := by
  have hvalue : apply b.name (ns.map .int) =
      ofExcept (.ok (Sexp.ofBool (Arithmetic.chain related ns))) := by
    refine apply_of_compute hb ?_
    rw [Arithmetic.compare, if_neg (by simpa using hns), Arithmetic.integers_ints]
    rfl
  rw [hvalue, ← Arithmetic.chain_iff_pairwise hrelated]
  cases Arithmetic.chain related ns with
  | true => exact ⟨fun _ => rfl, fun h => absurd rfl h⟩
  | false => exact ⟨fun h => absurd h Bool.false_ne_true, fun _ => rfl⟩

lemma compare_of_error {operator : String} {related : Int64 → Int64 → Bool} {arguments : List Sexp}
    {e : EvalError} (hne : arguments ≠ [])
    (herror : Arithmetic.integers operator arguments = .error e) :
    Arithmetic.compare operator related arguments = .error e := by
  rw [Arithmetic.compare, if_neg (by simpa using hne), herror]
  rfl

/-- An argument that is no integer is refused before any total is looked at. -/
lemma apply_of_error {operator : String} {arguments : List Sexp} {e : EvalError}
    (hoperator : operator ∈ ["+", "-", "*", "<", ">", "<=", ">="]) (hne : arguments ≠ [])
    (herror : Arithmetic.integers operator arguments = .error e) :
    apply operator arguments = throw e := by
  simp only [List.mem_cons, List.not_mem_nil, or_false] at hoperator
  rcases hoperator with rfl | rfl | rfl | rfl | rfl | rfl | rfl
  · exact apply_of_compute (b := .add) rfl (by rw [herror]; rfl)
  · exact apply_of_compute (b := .subtract) rfl (by rw [Arithmetic.difference, herror])
  · exact apply_of_compute (b := .multiply) rfl (by rw [herror]; rfl)
  · exact apply_of_compute (b := .less) rfl (compare_of_error hne herror)
  · exact apply_of_compute (b := .greater) rfl (compare_of_error hne herror)
  · exact apply_of_compute (b := .lessOrEqual) rfl (compare_of_error hne herror)
  · exact apply_of_compute (b := .greaterOrEqual) rfl (compare_of_error hne herror)

/-- The functions on integers are exact, whatever they are applied to, or say that a total does not
fit. -/
theorem integers_exact (arguments : List Sexp) : ExactOn arguments where
  refuses := by
    rintro operator hoperator front got rest rfl hfront hgot
    exact ⟨.notInteger operator got, apply_of_error hoperator (by simp)
      (Arithmetic.integers_of_first hfront hgot), rfl⟩
  adds := by
    rintro ns rfl
    have hsum : apply "+" (ns.map .int) = ofExcept _ := apply_of_compute (b := .add) rfl
      (by rw [Arithmetic.integers_ints])
    rw [hsum]
    exact accumulates_fold (fun _ _ => rfl) 0 (fun is => by simp [Arithmetic.foldl_add]) ns
  multiplies := by
    rintro ns rfl
    have hproduct : apply "*" (ns.map .int) = ofExcept _ := apply_of_compute (b := .multiply) rfl
      (by rw [Arithmetic.integers_ints])
    rw [hproduct]
    exact accumulates_fold (fun _ _ => rfl) 1 (fun is => by simp [Arithmetic.foldl_mul]) ns
  subtracts := by
    rintro x ns hns rfl
    obtain ⟨y, ns, rfl⟩ := List.exists_cons_of_ne_nil hns
    have hdifference : apply "-" ((x :: y :: ns).map .int) = ofExcept _ :=
      apply_of_compute (b := .subtract) rfl
        (by rw [Arithmetic.difference, Arithmetic.integers_ints])
    rw [← List.map_cons, hdifference]
    exact accumulates_fold (fun _ _ => rfl) x (fun is => Arithmetic.foldl_sub _ is) (y :: ns)
  negates := by
    rintro x rfl
    have hnegation := accumulates_fit (-x.toInt)
    have hfits : Fits (-x.toInt) ↔ x.toInt ≠ -2 ^ 63 := by
      obtain ⟨hlow, hhigh⟩ := fits_toInt x
      unfold Fits
      omega
    exact ⟨fun hx => hnegation.1 fun _ _ => hfits.2 hx,
      fun hx => hnegation.2 [] List.nil_prefix fun h => hfits.1 h hx⟩
  increments := by
    rintro x rfl
    exact accumulates_fit (x.toInt + 1)
  decrements := by
    rintro x rfl
    exact accumulates_fit (x.toInt - 1)
  compares := by
    rintro operator r hmem ns hns rfl
    simp only [List.mem_cons, Prod.mk.injEq, List.not_mem_nil, or_false] at hmem
    rcases hmem with ⟨rfl, rfl⟩ | ⟨rfl, rfl⟩ | ⟨rfl, rfl⟩ | ⟨rfl, rfl⟩
    · exact apply_compare (b := .less) rfl (fun _ _ => decide_eq_true_iff) hns
    · exact apply_compare (b := .greater) rfl (fun _ _ => decide_eq_true_iff) hns
    · exact apply_compare (b := .lessOrEqual) rfl (fun _ _ => decide_eq_true_iff) hns
    · exact apply_compare (b := .greaterOrEqual) rfl (fun _ _ => decide_eq_true_iff) hns

/-- A sum that fits is refused for a total on the way that does not, and a product that does not
fit for an argument behind it that is no integer. -/
theorem integers_exact_extremes :
    apply "+" [.int 9223372036854775807, .int 1, .int (-1)] = throw .overflow ∧
    apply "-" [.int (-9223372036854775808)] = throw .overflow ∧
    (∃ fault, apply "*" [.int 9223372036854775807, .int 2, .keyword "a"] = throw (.type fault) ∧
      fault.message = "* expects integers, got :a") ∧
    apply "<=" [.int 1, .int 1, .int 2] = pure .t :=
  ⟨((integers_exact _).adds [9223372036854775807, 1, -1] rfl).2 [9223372036854775807, 1]
      (by decide) (by decide),
    ((integers_exact _).negates (-9223372036854775808) rfl).2 (by decide),
    (integers_exact _).refuses "*" (by decide) [.int 9223372036854775807, .int 2] (.keyword "a") []
      rfl (by simp) (by simp),
    ((integers_exact _).compares "<=" (fun a b => a ≤ b) (by simp) [1, 1, 2] (by simp) rfl).1
      (by decide)⟩

end Eval

end EvalServer
