import EvalServer.Proofs.Sexp.RoundTrip

/-!
# Values that are read and not looked at

Once a value is in a list the reader never looks at it again. So a reader that goes on behind the
first value of the second list of a form reads the same whatever this value is, and fails in the
same place and for the same reason. `Reader.Holds` follows such a reader up to the end of the form.
-/

namespace EvalServer

open Sexp Token

namespace Reader

/-- A reader of one form for every value `x`, which is on the way to the form
`(head (x ...) ...)`: it reads what follows `x` in its list, or what follows this list, or it has
read the form. -/
inductive Holds (head : Sexp) : (Sexp → Reader) → Prop
  | inside (r : Reader) (inner : List OpenForm) (items : List Sexp) :
      r.single = true → r.forms = [] →
      Holds head fun x => r.withStack (inner ++ [.list (items ++ [x]), .list [head]])
  | behind (r : Reader) (inner : List OpenForm) (items rest : List Sexp) :
      r.single = true → r.forms = [] →
      Holds head fun x => r.withStack (inner ++ [.list (items ++ [.list (x :: rest), head])])
  | done (r : Reader) (rest more : List Sexp) : r.single = true → r.stack = [] →
      Holds head fun x => { r with forms := [(r.start, .list (head :: .list (x :: rest) :: more))] }

/-- What happens where a list is open below other forms and in `n` others, whatever these lists
hold: it fails, or only the forms above the list change, or the list gets a value. -/
inductive Below (r : Reader) (n : Nat)
    (act : List Sexp → List OpenForm → Except ReadError Reader) : Prop
  | fails (e : ReadError) : (∀ items outer, outer.length = n → act items outer = .error e) →
      Below r n act
  | goesOn (inner : List OpenForm) : (∀ items outer, outer.length = n →
      act items outer = .ok (r.withStack (inner ++ .list items :: outer))) → Below r n act
  | gives (w : Sexp) : (∀ items outer, outer.length = n →
      act items outer = .ok (r.withStack (.list (w :: items) :: outer))) → Below r n act

section below

variable {r : Reader} {n line : Nat} {token : Token} (inner : List OpenForm)

lemma below_open {form : OpenForm}
    (htoken : ∀ (r : Reader) line, r.acceptInner line token = r.open? line form) :
    Below r n fun items outer =>
      (r.withStack (inner ++ .list items :: outer)).acceptInner line token := by
  have hlength : ∀ items outer, outer.length = n →
      (r.withStack (inner ++ .list items :: outer)).stack.length = inner.length + (n + 1) := by
    rintro items outer rfl
    simp [withStack]
  by_cases hdeep : maxDepth ≤ inner.length + (n + 1)
  · refine .fails (.tooDeep line) fun items outer houter => ?_
    rw [htoken, open?, hlength items outer houter, if_pos hdeep]
  · refine .goesOn (form :: inner) fun items outer houter => ?_
    rw [htoken, open?, hlength items outer houter, if_neg hdeep]
    rfl

lemma below_complete (v : Sexp) :
    Below r n fun items outer => .ok (r.complete v (inner ++ .list items :: outer)) := by
  induction inner generalizing v with
  | nil => exact .gives v fun _ _ _ => rfl
  | cons form inner ih =>
    cases form with
    | quote => exact ih v.quoted
    | list items => exact .goesOn (.list (v :: items) :: inner) fun _ _ _ => rfl

lemma below_value (v : Sexp) {front : List OpenForm}
    (htoken : ∀ items outer, (r.withStack (inner ++ .list items :: outer)).acceptInner line token =
      .ok (r.complete v (front ++ .list items :: outer))) :
    Below r n fun items outer =>
      (r.withStack (inner ++ .list items :: outer)).acceptInner line token := by
  simp only [htoken]
  exact below_complete front v

/-- A token does not look at what an open list holds, unless it closes this list. -/
lemma below_acceptInner (r : Reader) (n line : Nat) (hopen : inner ≠ [] ∨ token ≠ .closing) :
    Below r n fun items outer =>
      (r.withStack (inner ++ .list items :: outer)).acceptInner line token := by
  cases token with
  | opening => exact below_open inner acceptInner_opening
  | quote => exact below_open inner acceptInner_quote
  | unclosed => exact .fails (.unterminatedString line) fun _ _ _ => rfl
  | string text =>
    exact below_value inner (.str (String.ofList text)) fun _ _ =>
      congrArg Except.ok (complete_withStack _ _ _ _)
  | atom name =>
    exact below_value inner (ofAtom name) fun _ _ => congrArg Except.ok (complete_withStack _ _ _ _)
  | closing =>
    cases inner with
    | nil => simp at hopen
    | cons form front =>
      cases form with
      | quote => exact .fails (.unexpected ')' line) fun _ _ _ => rfl
      | list items =>
        exact below_value _ (.list items.reverse) fun _ _ =>
          congrArg Except.ok (complete_withStack _ _ _ _)

end below

variable {head : Sexp} {R : Sexp → Reader}

lemma accept_over (r : Reader) (inner : List OpenForm) (form : OpenForm) (outer : List OpenForm)
    (token : Token.Located) : (r.withStack (inner ++ form :: outer)).accept token =
      (r.withStack (inner ++ form :: outer)).acceptInner token.1 token.2 := by
  rw [accept, if_neg (by simp [withStack])]

/-- What a token does does not depend on the value. -/
lemma Holds.accept (h : Holds head R) (token : Token.Located) :
    (∃ e, ∀ x, (R x).accept token = .error e) ∨
      ∃ R', Holds head R' ∧ ∀ x, (R x).accept token = .ok (R' x) := by
  obtain ⟨line, token⟩ := token
  cases h with
  | inside r inner items hsingle hforms =>
    simp only [accept_over]
    by_cases hopen : inner ≠ [] ∨ token ≠ .closing
    · rcases below_acceptInner inner r 1 line hopen with
        ⟨e, he⟩ | ⟨inner', h⟩ | ⟨w, h⟩
      · exact .inl ⟨e, fun x => he _ _ rfl⟩
      · exact .inr ⟨_, .inside r inner' items hsingle hforms, fun x => h _ _ rfl⟩
      · exact .inr ⟨_, .inside r [] (w :: items) hsingle hforms, fun x => h _ _ rfl⟩
    · obtain ⟨rfl, rfl⟩ : inner = [] ∧ token = .closing := by simpa using hopen
      refine .inr ⟨_, .behind r [] [] items.reverse hsingle hforms, fun x => ?_⟩
      simp [acceptInner, withStack, complete]
  | behind r inner items rest hsingle hforms =>
    simp only [accept_over]
    by_cases hopen : inner ≠ [] ∨ token ≠ .closing
    · rcases below_acceptInner inner r 0 line hopen with
        ⟨e, he⟩ | ⟨inner', h⟩ | ⟨w, h⟩
      · exact .inl ⟨e, fun x => he _ _ rfl⟩
      · exact .inr ⟨_, .behind r inner' items rest hsingle hforms, fun x => h _ _ rfl⟩
      · exact .inr ⟨_, .behind r [] (w :: items) rest hsingle hforms, fun x => h _ _ rfl⟩
    · obtain ⟨rfl, rfl⟩ : inner = [] ∧ token = .closing := by simpa using hopen
      refine .inr ⟨_, .done (r.withStack []) rest items.reverse hsingle rfl, fun x => ?_⟩
      simp [acceptInner, withStack, complete, hforms]
  | done r rest more hsingle hstack =>
    refine .inl ⟨.trailing line, fun x => ?_⟩
    simp [Reader.accept, hstack, hsingle]

lemma Holds.acceptAll (h : Holds head R) (found : List Token.Located) :
    (∃ e, ∀ x, (R x).acceptAll found = .error e) ∨
      ∃ R', Holds head R' ∧ ∀ x, (R x).acceptAll found = .ok (R' x) := by
  induction found generalizing R with
  | nil => exact .inr ⟨R, h, fun _ => rfl⟩
  | cons token rest ih =>
    rcases h.accept token with ⟨e, he⟩ | ⟨R', h', hR'⟩
    · exact .inl ⟨e, fun x => acceptAll_cons_error (he x) rest⟩
    · simp only [fun x => acceptAll_cons (hR' x) rest]
      exact ih h'

/-- What such a reader has read at the end. -/
lemma Holds.settle (h : Holds head R) :
    (∃ e, ∀ x, (R x).settle = .error e) ∨ ∃ line rest more,
      ∀ x, (R x).settle = .ok [(line, .list (head :: .list (x :: rest) :: more))] := by
  cases h with
  | inside r inner items _ _ =>
    exact .inl ⟨.unexpectedEnd, fun x => by simp [Reader.settle, withStack]⟩
  | behind r inner items rest _ _ =>
    exact .inl ⟨.unexpectedEnd, fun x => by simp [Reader.settle, withStack]⟩
  | done r rest more _ hstack =>
    exact .inr ⟨r.start, rest, more, fun x => by simp [Reader.settle, hstack]⟩

/-- Reading on gives the same error for every value, or forms that differ in this value. -/
theorem Holds.read (h : Holds head R) (found : List Token.Located) :
    (∃ e, ∀ x, ((R x).acceptAll found).bind Reader.settle = .error e) ∨ ∃ line rest more,
      ∀ x, ((R x).acceptAll found).bind Reader.settle =
        .ok [(line, .list (head :: .list (x :: rest) :: more))] := by
  rcases h.acceptAll found with ⟨e, he⟩ | ⟨R', h', hR'⟩
  · exact .inl ⟨e, fun x => by rw [he]; rfl⟩
  · simp only [hR']
    exact h'.settle

end Reader

namespace Sexp

/-- A value that is nested too deep is not read from its text. -/
lemma parse_print_deep {v : Sexp} (hv : v.Legible) (hdepth : maxDepth < v.nesting) :
    ∃ line, parse v.print = .error (.tooDeep line) := by
  have hends : Token.Ends [] := by simp [Token.Ends]
  obtain ⟨found, after, hlex, hfound⟩ := lex_chars v hv [] hends 1
  have hnone : Token.lex .between after [] = [] := rfl
  rw [hnone, List.append_nil, List.append_nil] at hlex
  obtain ⟨line, haccept⟩ := (Reader.reads_tokens v hv found hfound).deep { single := true }
    (fun _ _ => rfl) (Nat.zero_le _) hdepth
  refine ⟨line, ?_⟩
  rw [parse, print, String.toList_ofList, Reader.run_eq, hlex, haccept]
  rfl

end Sexp

end EvalServer
