/-!
# S-expressions

The values that messages, programs and results are made of. `nil` is a value of its own: it is
read as a list without elements, but the empty list is another value, and a true one.
-/

namespace EvalServer

/-- An s-expression. A keyword is kept without its colon. -/
inductive Sexp where
  | nil
  | t
  | int (n : Int64)
  | str (text : String)
  | symbol (name : String)
  | keyword (name : String)
  | list (items : List Sexp)
  deriving Repr, Inhabited

namespace Sexp

mutual

/-- Equality of s-expressions as a test. -/
def beq : Sexp → Sexp → Bool
  | .nil, .nil => true
  | .t, .t => true
  | .int a, .int b => decide (a = b)
  | .str a, .str b => decide (a = b)
  | .symbol a, .symbol b => decide (a = b)
  | .keyword a, .keyword b => decide (a = b)
  | .list a, .list b => beqAll a b
  | _, _ => false

def beqAll : List Sexp → List Sexp → Bool
  | [], [] => true
  | a :: as, b :: bs => beq a b && beqAll as bs
  | _, _ => false

end

mutual

theorem beq_self : ∀ a : Sexp, beq a a = true
  | .nil | .t | .int _ | .str _ | .symbol _ | .keyword _ => by simp [beq]
  | .list items => by simpa [beq] using beqAll_self items

theorem beqAll_self : ∀ as : List Sexp, beqAll as as = true
  | [] => by simp [beqAll]
  | a :: as => by simp [beqAll, beq_self a, beqAll_self as]

end

mutual

theorem eq_of_beq : ∀ a b : Sexp, beq a b = true → a = b
  | .nil, b, h => by cases b <;> simp_all [beq]
  | .t, b, h => by cases b <;> simp_all [beq]
  | .int _, b, h => by cases b <;> simp_all [beq]
  | .str _, b, h => by cases b <;> simp_all [beq]
  | .symbol _, b, h => by cases b <;> simp_all [beq]
  | .keyword _, b, h => by cases b <;> simp_all [beq]
  | .list as, b, h => by
    cases b with
    | list bs =>
      rw [beq] at h
      rw [eq_of_beqAll as bs h]
    | _ => simp [beq] at h

theorem eq_of_beqAll : ∀ as bs : List Sexp, beqAll as bs = true → as = bs
  | [], bs, h => by cases bs <;> simp_all [beqAll]
  | a :: as, bs, h => by
    cases bs with
    | nil => simp [beqAll] at h
    | cons b bs =>
      rw [beqAll, Bool.and_eq_true] at h
      rw [eq_of_beq a b h.1, eq_of_beqAll as bs h.2]

end

theorem beq_iff (a b : Sexp) : beq a b = true ↔ a = b :=
  ⟨eq_of_beq a b, fun h => h ▸ beq_self a⟩

instance : DecidableEq Sexp := fun a b => decidable_of_iff _ (beq_iff a b)

def ofBool (b : Bool) : Sexp :=
  if b then .t else .nil

/-- Every value but `nil` counts as true. -/
def isTrue : Sexp → Bool
  | .nil => false
  | _ => true

/-- The elements of a list; `nil` has none. -/
def items? : Sexp → Option (List Sexp)
  | .list items => some items
  | .nil => some []
  | _ => none

def str? : Sexp → Option String
  | .str text => some text
  | _ => none

def int? : Sexp → Option Int64
  | .int n => some n
  | _ => none

def symbol? : Sexp → Option String
  | .symbol name => some name
  | _ => none

def keyword? : Sexp → Option String
  | .keyword name => some name
  | _ => none

/-- The keyword at the head of a list. -/
def headKeyword? : Sexp → Option String
  | .list (head :: _) => head.keyword?
  | _ => none

/-- The form that a quote character before `form` abbreviates. -/
def quoted (form : Sexp) : Sexp :=
  .list [.symbol "quote", form]

end Sexp

end EvalServer
