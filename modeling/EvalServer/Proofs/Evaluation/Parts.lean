import EvalServer.Proofs.Evaluation.Scripts

/-!
# Parts of evaluations

An evaluation is put together from others: it begins with a part, and where the part has ended in a
value it goes on with the next. A part that fails fails the whole.
-/

namespace EvalServer

namespace Script

variable {α β γ : Type} {s s₁ t t' : Script} {asked : List Request}

/-- Once it has asked this, an evaluation begins with another one, which is a part of it, on the
console that it has left by then. -/
inductive Begins : {α β : Type} → Script → Eval α → List Request → Script → Eval β → Prop
  | whole {α : Type} (s : Script) (x : Eval α) : Begins s x [] s x
  | first {α β γ : Type} {s t : Script} {x : Eval α} {f : α → Eval γ} {y : Eval β}
      {asked : List Request} : Begins s x asked t y → Begins s (x >>= f) asked t y
  | later {α β γ : Type} {s s₁ t : Script} {x : Eval α} {f : α → Eval γ} {y : Eval β} {a : α}
      {asked : List Request} : s.Evaluates x a s₁ → Begins s₁ (f a) asked t y →
      Begins s (x >>= f) (s.requests x.run ++ asked) t y

/-- By the time it has asked this, an evaluation is done with a part of it, which began on one
console, has a value and leaves another one. -/
structure Completes (s : Script) (x : Eval α) (asked : List Request) (t : Script) (y : Eval β)
    (v : β) (t' : Script) : Prop where
  begun : ∃ before, s.Begins x before t y ∧ asked = before ++ t.requests y.run
  evaluates : t.Evaluates y v t'

lemma after_append (s : Script) (asked more : List Request) :
    s.after (asked ++ more) = (s.after asked).after more :=
  List.foldl_append

lemma Evaluates.after {x : Eval α} {a : α} (h : s.Evaluates x a s₁) :
    s.after (s.requests x.run) = s₁ := by
  rw [after_requests, h]

section parts

variable {x : Eval α} {y : Eval β} {f : α → Eval γ} {v : β} {a : α}

lemma Begins.after (h : s.Begins x asked t y) : s.after asked = t := by
  induction h with
  | whole => rfl
  | first _ ih => exact ih
  | later hfirst _ ih => rw [after_append, hfirst.after, ih]

lemma requests_isPrefix (s : Script) (x : Eval α) (f : α → Eval γ) :
    s.requests x.run <+: s.requests (x >>= f).run :=
  ⟨_, (s.requests_bind x.run (ExceptT.bindCont f)).symm⟩

/-- What a part asks is asked. -/
lemma Begins.asks (h : s.Begins x asked t y) :
    asked ++ t.requests y.run <+: s.requests x.run := by
  induction h with
  | whole => exact List.prefix_rfl
  | first _ ih => exact ih.trans (requests_isPrefix _ _ _)
  | @later _ _ _ _ _ _ _ _ _ _ asked hfirst _ ih =>
    rw [(run_bind_ok hfirst).2, List.append_assoc]
    exact (List.prefix_append_right_inj _).2 ih

/-- No evaluation goes on where a part of it has failed. -/
lemma Begins.fails {e : EvalError} (h : s.Begins x asked t y)
    (hfails : t.run y.run = (.error e, t')) : s.run x.run = (.error e, t') := by
  induction h with
  | whole => exact hfails
  | first _ ih => exact (run_bind_error (ih hfails)).1
  | later hfirst _ ih => exact (run_bind_ok hfirst).1.trans (ih hfails)

/-- Once a part of it has failed, an evaluation asks nothing else. -/
lemma Begins.asks_no_more {e : EvalError} (h : s.Begins x asked t y)
    (hfails : t.run y.run = (.error e, t')) : s.requests x.run = asked ++ t.requests y.run := by
  induction h with
  | whole => rfl
  | first hbegins ih => exact (run_bind_error (hbegins.fails hfails)).2.trans (ih hfails)
  | later hfirst _ ih => rw [(run_bind_ok hfirst).2, ih hfails, List.append_assoc]

lemma completes_whole {x : Eval α} (h : s.Evaluates x a s₁) :
    s.Completes x (s.requests x.run) s x a s₁ :=
  ⟨⟨[], .whole s x, rfl⟩, h⟩

/-- Only where the part began matters to what is completed. -/
lemma Completes.map {δ : Type} {s' : Script} {x' : Eval δ} {before : List Request}
    (hbegins : ∀ {asked}, s.Begins x asked t y → s'.Begins x' (before ++ asked) t y)
    (h : s.Completes x asked t y v t') : s'.Completes x' (before ++ asked) t y v t' := by
  obtain ⟨⟨asked, hbegun, rfl⟩, hevaluates⟩ := h
  exact ⟨⟨before ++ asked, hbegins hbegun, (List.append_assoc _ _ _).symm⟩, hevaluates⟩

lemma Completes.asks (h : s.Completes x asked t y v t') : asked <+: s.requests x.run := by
  obtain ⟨before, hbegins, rfl⟩ := h.begun
  exact hbegins.asks

lemma Completes.after (h : s.Completes x asked t y v t') : s.after asked = t' := by
  obtain ⟨before, hbegins, rfl⟩ := h.begun
  rw [after_append, hbegins.after, h.evaluates.after]

end parts

end Script

end EvalServer
