import EvalServer.Proofs.Evaluation.Answers
import EvalServer.Proofs.Evaluation.CheckPoints
import Mathlib

/-!
# Evaluations cut short

A console lets some check points pass and finds the interrupt flag raised at all that come after
them. An evaluation that comes to more check points than pass asks what it would ask anyway, up to
the first that does not pass, and ends there.
-/

namespace EvalServer

namespace Request

def isCheck : Request → Bool
  | .interrupted => true
  | _ => false

/-- What a request does can be seen afterwards: in the bindings, in the current namespace or on the
console. -/
def isEffect : Request → Bool
  | .define _ _ _ | .openNamespace _ | .enterNamespace _ | .writeOutput _ | .writeResult _ | .ask _
  | .debug _ _ | .requestQuit => true
  | .interrupted | .bindings | .currentNamespace | .readText _ | .isFile _ | .rest _ => false

end Request

namespace Script

variable {α : Type} {s : Script} {n : Nat}

/-- The console on which the flag is never seen raised. -/
def calm (s : Script) : Script :=
  { s with checksLeft := none }

/-- The console on which the flag is raised once `n` check points have passed. -/
def raisedAfter (s : Script) (n : Nat) : Script :=
  { s with checksLeft := some n }

/-- The effects of a computation on a scripted console, in order. -/
def effects (s : Script) (c : Computation α) : List Request :=
  (s.requests c).filter Request.isEffect

/-- The check points that a computation comes to on a scripted console. -/
def checks (s : Script) (c : Computation α) : Nat :=
  (s.requests c).countP Request.isCheck

/-- Nothing but a check point looks at the flag. -/
lemma answer_checksLeft (s : Script) (left : Option Nat) {r : Request} (hr : r ≠ .interrupted) :
    ({ s with checksLeft := left } : Script).answer r =
      ((s.answer r).1, { (s.answer r).2 with checksLeft := left }) := by
  cases r with
  | interrupted => exact absurd rfl hr
  | ask question =>
    obtain ⟨bindings, files, ns, checksLeft, input, log, quit, elapsed⟩ := s
    cases question <;> cases input <;> rfl
  | _ => rfl

/-- The computation comes to check points that all pass, and does what it does where nobody
interrupts. -/
structure Passes (s : Script) (n : Nat) (c : Computation α) : Prop where
  checks_le : s.calm.checks c ≤ n
  requests_eq : (s.raisedAfter n).requests c = s.calm.requests c
  run_eq : (s.raisedAfter n).run c =
    ((s.calm.run c).1, (s.calm.run c).2.raisedAfter (n - s.calm.checks c))

/-- Of what a computation asks where nobody interrupts it asks the part up to the check point that
`n` others precede, and ends there as interrupted. -/
structure CutShort (s : Script) (n : Nat) (c : Computation (Except EvalError α))
    (before later : List Request) : Prop where
  requests_eq : s.calm.requests c = before ++ .interrupted :: later
  checks_eq : before.countP Request.isCheck = n
  requests_cut : (s.raisedAfter n).requests c = before ++ [.interrupted]
  run_cut : (s.raisedAfter n).run c = (.error .interrupted, (s.calm.after before).raisedAfter 0)

section step

variable {t : Script} {m : Nat} {r : Request} {reply : r.Reply}
  (hcalm : s.calm.answer r = (reply, t.calm))
  (hraised : (s.raisedAfter n).answer r = (reply, t.raisedAfter m))
  (hn : n = m + if r.isCheck then 1 else 0)

include hcalm hraised hn

lemma Passes.step {next : r.Reply → Computation α} (h : t.Passes m (next reply)) :
    s.Passes n (.step r next) := by
  have hchecks : s.calm.checks (.step r next) =
      t.calm.checks (next reply) + if r.isCheck then 1 else 0 := by
    simp only [checks, requests, hcalm, List.countP_cons]
  have hleft : n - s.calm.checks (.step r next) = m - t.calm.checks (next reply) := by
    rw [hchecks, hn, Nat.add_sub_add_right]
  refine ⟨?_, ?_, ?_⟩
  · rw [hchecks, hn]
    exact Nat.add_le_add_right h.checks_le _
  · simp only [requests, hcalm, hraised, h.requests_eq]
  · rw [hleft]
    simp only [run, hcalm, hraised, h.run_eq]

lemma CutShort.step {next : r.Reply → Computation (Except EvalError α)}
    {before later : List Request} (h : t.CutShort m (next reply) before later) :
    s.CutShort n (.step r next) (r :: before) later := by
  refine ⟨?_, ?_, ?_, ?_⟩
  · simp only [requests, hcalm, h.requests_eq, List.cons_append]
  · rw [List.countP_cons, h.checks_eq, hn]
  · simp only [requests, hraised, h.requests_cut, List.cons_append]
  · simp only [run, hraised, h.run_cut, after, List.foldl_cons, hcalm]

end step

/-- A computation that yields to interrupts passes all its check points, or it ends at the first
that does not pass. -/
theorem passes_or_cutShort {k : Contract} {P : α → Prop} {c : Computation (Except EvalError α)}
    (h : c.Meets k P) (hgets : ∀ r reply, k.gets r reply) (s : Script) (n : Nat) :
    s.Passes n c ∨ ∃ before later, s.CutShort n c before later := by
  induction c generalizing s n with
  | done result => exact .inl ⟨Nat.zero_le _, rfl, rfl⟩
  | step r next ih =>
    obtain ⟨-, hyields, hnext⟩ := h
    -- a request that passes, and what comes after it
    have hgo : ∀ (reply : r.Reply) (t : Script) (m : Nat), s.calm.answer r = (reply, t.calm) →
        (s.raisedAfter n).answer r = (reply, t.raisedAfter m) →
        (n = m + if r.isCheck then 1 else 0) →
        s.Passes n (.step r next) ∨ ∃ before later, s.CutShort n (.step r next) before later := by
      intro reply t m hcalm hraised hn
      rcases ih reply (hnext reply (hgets r reply)) t m with hpasses | ⟨before, later, hcut⟩
      · exact .inl (hpasses.step hcalm hraised hn)
      · exact .inr ⟨_, _, hcut.step hcalm hraised hn⟩
    by_cases hr : r = .interrupted
    · subst hr
      cases n with
      | succ m => exact hgo false s m rfl rfl rfl
      | zero =>
        have hend : next (true : Bool) = .done (.error .interrupted) := hyields
        refine .inr ⟨[], _, rfl, rfl, ?_, ?_⟩
        · change Request.interrupted :: (s.raisedAfter 0).requests (next (true : Bool)) = _
          rw [hend]
          rfl
        · change (s.raisedAfter 0).run (next (true : Bool)) = _
          rw [hend]
          rfl
    · refine hgo _ _ n (s.answer_checksLeft none hr) (s.answer_checksLeft (some n) hr) ?_
      cases r with
      | interrupted => exact absurd rfl hr
      | _ => rfl

/-- On every console a request looks at the flag with each form that its evaluation begins with and
with each slice of a sleep, and nowhere else. It is evaluated where nobody interrupts, and on the
same console with the flag raised once `n` check points have passed. Either it comes to no more
check points than these; then both evaluations ask the same and end alike. Or the second one does
what the first one does before its check point number `n + 1` and nothing else, begins with no form
after it, ends there as interrupted, and leaves what the first one has made of bindings, namespace
and console by then. -/
theorem interrupted_cut (host : Host) (form : Sexp) (s : Script) (n : Nat) :
    let x := evaluateRequest host form
    let c := x.run
    (∀ t : Script, t.Heeds x) ∧
    ((s.calm.checks c ≤ n ∧ (s.raisedAfter n).effects c = s.calm.effects c ∧
      (s.raisedAfter n).requests c = s.calm.requests c ∧
      (s.raisedAfter n).run c =
        ((s.calm.run c).1, (s.calm.run c).2.raisedAfter (n - s.calm.checks c))) ∨
    ∃ before later, s.calm.requests c = before ++ .interrupted :: later ∧
      before.countP Request.isCheck = n ∧
      (s.raisedAfter n).effects c = before.filter Request.isEffect ∧
      (s.raisedAfter n).requests c = before ++ [.interrupted] ∧
      (∀ asked t load source part, (s.raisedAfter n).Begins x asked t
        (Eval.evaluateForm load source part) → asked <+: before) ∧
      (s.raisedAfter n).run c = (.error .interrupted, (s.calm.after before).raisedAfter 0)) := by
  intro x c
  have hheeds : ∀ t : Script, t.Heeds x :=
    fun t => heeds_of_attributed (attributed_evaluateRequest host form) t
  have hmeets : Computation.Meets (.storing fun _ => True) (fun _ => True) c :=
    gives_evaluateRequest host trivial
  refine ⟨hheeds, ?_⟩
  rcases passes_or_cutShort hmeets Contract.gets_anything s n with
    hpasses | ⟨before, later, hcut⟩
  · refine .inl ⟨hpasses.checks_le, ?_, hpasses.requests_eq, hpasses.run_eq⟩
    rw [effects, effects, hpasses.requests_eq]
  · refine .inr ⟨before, later, hcut.requests_eq, hcut.checks_eq, ?_, hcut.requests_cut,
      fun asked t load source part hbegins => ?_, hcut.run_cut⟩
    · rw [effects, hcut.requests_cut, List.filter_append]
      exact List.append_nil _
    · have hasked := ((hheeds _).form hbegins).1
      rw [hcut.requests_cut, List.prefix_concat_iff] at hasked
      rcases hasked with heq | hbefore
      · exact (List.append_inj' heq rfl).1 ▸ List.prefix_rfl
      · exact (List.prefix_append _ _).trans hbefore

/-- Something is printed, some time passes, and something else is printed. -/
def drowsy : Sexp :=
  .list [.symbol "do", .list [.symbol "println", .int 1], .list [.symbol "sleep", .int 25],
    .list [.symbol "println", .int 2]]

abbrev drowsing : Eval Sexp :=
  evaluateRequest Interpreted.plainHost drowsy

lemma drowsy_sleeps : ∃ asked t, (({} : Script).raisedAfter 7).Begins drowsing asked t
    (Eval.apply "sleep" [.int 25]) ∧ t.checksLeft = some 2 := by
  have hrequest : drowsing = Eval.evaluateForm (Eval.loadFile 1) none drowsy := by
    have hcall : EditorCall.ofSexp? drowsy = none := by cbv
    rw [drowsing, evaluateRequest, hcall]
    rfl
  have hdo : SpecialForm.ofName? "do" = some .sequence := by decide
  have hno : SpecialForm.ofName? "sleep" = none := by decide
  have hsleep : Eval.evaluateForm (Eval.loadFile 1) none (.list [.symbol "sleep", .int 25]) =
      Eval.checkInterrupt >>= fun _ =>
        Eval.evaluateAll (Eval.loadFile 1) none [] [.int 25] >>= Eval.apply "sleep" := by
    rw [Eval.evaluateForm]
    simp only [hno]
  have hprinted : (({} : Script).raisedAfter 6).Evaluates
      (Eval.evaluateForm (Eval.loadFile 1) none (.list [.symbol "println", .int 1])) .nil
      (({ log := [.output "1\n"] } : Script).raisedAfter 4) := by
    unfold Evaluates
    cbv
  have hvalues : (({ log := [.output "1\n"] } : Script).raisedAfter 3).Evaluates
      (Eval.evaluateAll (Eval.loadFile 1) none [] [.int 25]) [.int 25]
      (({ log := [.output "1\n"] } : Script).raisedAfter 2) := by
    unfold Evaluates
    cbv
  rw [hrequest, drowsy, Eval.evaluateForm]
  simp only [hdo, Eval.evaluateSpecial, Eval.evaluateBody, hsleep]
  exact ⟨_, _, .later (evaluates_check.2 rfl) (.later hprinted
    (.first (.later (evaluates_check.2 rfl) (.later hvalues (.whole _ _))))), rfl⟩

/-- Interrupted in its sleep, it never gets to print anything else. -/
theorem interrupted_cut_drowsy :
    (∃ (asked : List Request) (slices : List Nat), slices.sum = 25 ∧
      asked ++ Request.sleeping (slices.take 2) <+:
        (({} : Script).raisedAfter 7).requests drowsing.run) ∧
    ∃ before later, ({} : Script).calm.requests drowsing.run = before ++ .interrupted :: later ∧
      before.countP Request.isCheck = 7 ∧
      before.filter Request.isEffect = [.writeOutput "1\n"] ∧
      (({} : Script).raisedAfter 7).run drowsing.run = (.error .interrupted,
        ({ log := [.output "1\n"], elapsed := 20 } : Script).raisedAfter 0) := by
  have hchecks : ({} : Script).calm.checks drowsing.run = 11 := by cbv
  have heffects : (({} : Script).raisedAfter 7).effects drowsing.run =
      [.writeOutput "1\n"] := by cbv
  have hends : (({} : Script).raisedAfter 7).run drowsing.run = (.error .interrupted,
      ({ log := [.output "1\n"], elapsed := 20 } : Script).raisedAfter 0) := by cbv
  obtain ⟨hheeds, ⟨hfew, -⟩ | ⟨before, later, hcalm, hcount, hdone, -⟩⟩ :=
    interrupted_cut Interpreted.plainHost drowsy {} 7
  · rw [hchecks] at hfew
    exact absurd hfew (by decide)
  · obtain ⟨asked, t, hbegins, hleft⟩ := drowsy_sleeps
    obtain ⟨slices, hsum, -, hasked, -⟩ := (hheeds _).sleep hbegins
    have htaken : t.slept slices = slices.take 2 := by simp [slept, hleft]
    exact ⟨⟨asked, slices, hsum, htaken ▸ hasked⟩, before, later, hcalm, hcount,
      hdone.symm.trans heffects, hends⟩

end Script

end EvalServer
