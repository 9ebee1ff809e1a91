import EvalServer.Proofs.Evaluation.Attribution
import Mathlib.Algebra.GroupWithZero.Nat

/-!
# Check points

An evaluation looks at the interrupt flag before anything else that it does with a form, before each
slice of a sleep and once more at its end. Where it finds the flag raised the whole evaluation ends,
whatever the form or the sleep is a part of.
-/

namespace EvalServer

/-- What a sleep asks that rests in these slices. -/
def Request.sleeping (slices : List Nat) : List Request :=
  slices.flatMap (fun ms => [.interrupted, .rest ms]) ++ [.interrupted]

namespace Script

open Eval

/-- Of the slices of a sleep those before which the flag is not seen raised. -/
def slept (s : Script) (slices : List Nat) : List Nat :=
  match s.checksLeft with
  | none => slices
  | some n => slices.take n

section points

variable {α : Type} {s t t₁ : Script} {f : Unit → Eval α}

lemma requests_checked (h : s.check = (false, t)) :
    s.requests (checkInterrupt >>= f).run = .interrupted :: t.requests (f ()).run := by
  rw [(run_bind_ok (evaluates_check.2 h)).2, requests_check]
  rfl

lemma checked_raised (h : s.checksLeft = some 0) :
    s.requests (checkInterrupt >>= f).run = [.interrupted] ∧
      s.run (checkInterrupt >>= f).run = (.error .interrupted, s) := by
  have hcheck : s.run checkInterrupt.run = (.error .interrupted, s) := by
    obtain ⟨bindings, files, ns, left, input, log, quit, elapsed⟩ := s
    obtain rfl : left = some 0 := h
    rfl
  rw [← s.requests_check]
  exact (run_bind_error hcheck).symm

/-! ## Sleeps -/

lemma sleep_raised (ms : Nat) (h : s.checksLeft = some 0) :
    s.requests (sleep ms).run = [.interrupted] ∧
      s.run (sleep ms).run = (.error .interrupted, s) := by
  rw [sleep]
  exact checked_raised h

lemma requests_sleep_zero (s : Script) : s.requests (sleep 0).run = [.interrupted] := by
  rcases hleft : s.checksLeft with _ | _ | n
  · rw [sleep, requests_checked (t := s) (by simp [check, hleft])]
    rfl
  · exact (sleep_raised 0 hleft).1
  · rw [sleep, requests_checked (t := { s with checksLeft := some n }) (by simp [check, hleft])]
    rfl

/-- A sleep that is not interrupted rests for a slice and sleeps on. -/
lemma sleep_step {ms : Nat} (hms : ms ≠ 0) (h : s.check = (false, t)) :
    let t' : Script := { t with elapsed := t.elapsed + min 10 ms }
    s.requests (sleep ms).run = .interrupted :: .rest (min 10 ms) ::
        t'.requests (sleep (ms - min 10 ms)).run ∧
      s.run (sleep ms).run = t'.run (sleep (ms - min 10 ms)).run := by
  have hsleep : sleep ms = checkInterrupt >>= fun _ => (do
      let _ : Unit ← Eval.request (.rest (min 10 ms))
      sleep (ms - min 10 ms)) := by
    rw [sleep]
    simp only [hms, if_false]
  rw [hsleep]
  exact ⟨requests_checked h, (run_bind_ok (evaluates_check.2 h)).1⟩

/-- A sleep rests in slices of at most ten milliseconds, which make up its time. -/
lemma sleep_slices (ms : Nat) : ∃ slices : List Nat, slices.sum = ms ∧
    (∀ slice ∈ slices, 0 < slice ∧ slice ≤ 10) ∧ ∀ s : Script,
      s.requests (sleep ms).run = Request.sleeping (s.slept slices) ∧
      ∀ n ≤ slices.length, s.checksLeft = some n → s.run (sleep ms).run = (.error .interrupted,
        { s with checksLeft := some 0, elapsed := s.elapsed + (slices.take n).sum }) := by
  induction ms using Nat.strongRecOn with
  | ind ms ih =>
    by_cases hms : ms = 0
    · subst hms
      refine ⟨[], rfl, by simp, fun s => ⟨?_, fun n hn hleft => ?_⟩⟩
      · have hnone : s.slept [] = [] := by
          unfold slept
          split <;> simp
        rw [hnone]
        exact s.requests_sleep_zero
      · obtain rfl := Nat.le_zero.1 hn
        rw [(sleep_raised 0 hleft).2, ← hleft]
        rfl
    · obtain ⟨slices, hsum, hsize, hsleeps⟩ := ih (ms - min 10 ms) (by omega)
      refine ⟨min 10 ms :: slices, by simp only [List.sum_cons, hsum]; omega,
        List.forall_mem_cons.2 ⟨by omega, hsize⟩, fun s => ?_⟩
      rcases hleft : s.checksLeft with _ | _ | n
      · have hcheck : s.check = (false, s) := by simp [check, hleft]
        obtain ⟨hasked, -⟩ := sleep_step hms hcheck
        rw [hasked, (hsleeps _).1]
        simp [slept, hleft, Request.sleeping]
      · obtain ⟨hasked, hrun⟩ := sleep_raised ms hleft
        rw [hasked, hrun]
        refine ⟨by simp [slept, hleft, Request.sleeping], fun n _ hn => ?_⟩
        obtain rfl := Option.some.inj hn
        rw [← hleft]
        rfl
      · have hcheck : s.check = (false, { s with checksLeft := some n }) := by
          simp [check, hleft]
        obtain ⟨hasked, hrun⟩ := sleep_step hms hcheck
        rw [hasked, hrun, (hsleeps _).1]
        refine ⟨by simp [slept, hleft, Request.sleeping], fun m hm hn => ?_⟩
        obtain rfl := Option.some.inj hn
        rw [(hsleeps _).2 n (Nat.le_of_succ_le_succ hm) rfl]
        simp [Nat.add_assoc]

end points

/-- An evaluation looks at the flag with each form, each slice of a sleep, and nowhere else. -/
structure Heeds (s : Script) (x : Eval α) : Prop where
  /-- With a form it does so first, and ends there if the flag is raised. -/
  form : ∀ {asked t load source form}, s.Begins x asked t (evaluateForm load source form) →
    asked ++ [.interrupted] <+: s.requests x.run ∧
    (t.checksLeft = some 0 → s.requests x.run = asked ++ [.interrupted] ∧
      s.run x.run = (.error .interrupted, t))
  /-- With a sleep it does so before each slice and at the end, and ends there if the flag is raised
  after `n` slices. -/
  sleep : ∀ {asked t ms}, s.Begins x asked t (apply "sleep" [.int ms]) →
    ∃ slices : List Nat, slices.sum = ms.toInt.toNat ∧
      (∀ slice ∈ slices, 0 < slice ∧ slice ≤ 10) ∧
      asked ++ Request.sleeping (t.slept slices) <+: s.requests x.run ∧
      ∀ n ≤ slices.length, t.checksLeft = some n →
        s.requests x.run = asked ++ Request.sleeping (slices.take n) ∧
        s.run x.run = (.error .interrupted,
          { t with checksLeft := some 0, elapsed := t.elapsed + (slices.take n).sum })
  /-- Where it does so a form begins, or a sleep or what is left of one. -/
  only : ∀ {asked}, asked ++ [.interrupted] <+: s.requests x.run →
    (∃ t load source form, s.Begins x asked t (evaluateForm load source form)) ∨
      ∃ t ms, s.Begins x asked t (Eval.sleep ms)

/-- Every form is a check point before anything else is done with it. -/
lemma evaluateForm_checks (load : String → Eval Sexp) (source : Option Source) (form : Sexp) :
    ∃ f, evaluateForm load source form = checkInterrupt >>= f := by
  cases form with
  | list items =>
    cases items with
    | nil => exact ⟨_, by unfold evaluateForm; rfl⟩
    | cons head arguments => exact ⟨_, by unfold evaluateForm; rfl⟩
  | _ => exact ⟨_, by unfold evaluateForm; rfl⟩

/-- No evaluation passes over the check points of its parts. -/
lemma heeds_of_attributed {x : Eval α} (hx : x.Attributed) (s : Script) : s.Heeds x where
  form := by
    intro asked t load source form hbegins
    obtain ⟨f, hform⟩ := evaluateForm_checks load source form
    rw [hform] at hbegins
    refine ⟨?_, fun hraised => ?_⟩
    · have hfirst : [.interrupted] <+: t.requests (checkInterrupt >>= f).run :=
        t.requests_check ▸ t.requests_isPrefix checkInterrupt f
      exact ((List.prefix_append_right_inj asked).2 hfirst).trans hbegins.asks
    · obtain ⟨hasked, hrun⟩ := checked_raised (f := f) hraised
      exact ⟨by rw [hbegins.asks_no_more hrun, hasked], hbegins.fails hrun⟩
  sleep := by
    intro asked t ms hbegins
    have happly : apply "sleep" [.int ms] =
        Eval.sleep ms.toInt.toNat >>= fun _ => pure .nil := rfl
    rw [happly] at hbegins
    obtain ⟨slices, hsum, hsize, hsleeps⟩ := sleep_slices ms.toInt.toNat
    obtain ⟨hasked, hraised⟩ := hsleeps t
    refine ⟨slices, hsum, hsize, ?_, fun n hn hleft => ?_⟩
    · have hfirst : Request.sleeping (t.slept slices) <+: _ :=
        hasked ▸ t.requests_isPrefix (Eval.sleep ms.toInt.toNat) fun _ => pure Sexp.nil
      exact ((List.prefix_append_right_inj asked).2 hfirst).trans hbegins.asks
    · obtain ⟨hrun, hasked'⟩ := run_bind_error (f := fun _ => pure Sexp.nil) (hraised n hn hleft)
      have htaken : t.slept slices = slices.take n := by simp [slept, hleft]
      refine ⟨?_, hbegins.fails hrun⟩
      rw [hbegins.asks_no_more hrun, hasked', hasked, htaken]
  only := by
    intro asked hasked
    have hchecks : s.Checks x (asked ++ [.interrupted]) := hx s asked _ hasked
    generalize hall : asked ++ [.interrupted] = all at hchecks
    cases hchecks with
    | form hbegins =>
      obtain ⟨rfl, -⟩ := List.append_inj' hall rfl
      exact .inl ⟨_, _, _, _, hbegins⟩
    | sleep hbegins =>
      obtain ⟨rfl, -⟩ := List.append_inj' hall rfl
      exact .inr ⟨_, _, hbegins⟩

end Script

end EvalServer
