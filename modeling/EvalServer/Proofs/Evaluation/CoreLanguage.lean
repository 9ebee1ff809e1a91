import EvalServer.Proofs.Evaluation.Answers
import EvalServer.Proofs.Evaluation.Scripts
import Mathlib

/-!
# The core language

A form of the core language has no symbol where one would be looked up, defines nothing and goes to
no other namespace. Its evaluation asks the console and nothing else: not the bindings, not the
current namespace and no file. So whatever a user has defined, and under whatever names, the form
has the same result and does the same on the console.
-/

namespace EvalServer

/-- A form of literals, `quote`, `do`, `if`, `throw` and calls of the builtin functions, but for the
function that looks up what users have documented. -/
inductive Sexp.IsCore : Sexp → Prop
  | nil : IsCore .nil
  | t : IsCore .t
  | int (n : Int64) : IsCore (.int n)
  | str (text : String) : IsCore (.str text)
  | keyword (name : String) : IsCore (.keyword name)
  | empty : IsCore (.list [])
  | quote (arguments : List Sexp) : IsCore (.list (.symbol SpecialForm.quote.name :: arguments))
  | special (special : SpecialForm) {arguments : List Sexp} :
      special ∈ [.sequence, .conditional, .throw] → (∀ form ∈ arguments, IsCore form) →
      IsCore (.list (.symbol special.name :: arguments))
  | call (b : Builtin) {arguments : List Sexp} : b ≠ .doc → (∀ form ∈ arguments, IsCore form) →
      IsCore (.list (.symbol b.name :: arguments))

/-- Only the console is asked, and may reply as it likes. -/
def Contract.consoleOnly : Contract where
  asks := Request.OnConsole
  gets _ _ := True

namespace Builtin

lemma special_name (b : Builtin) : SpecialForm.ofName? b.name = none := by
  cases b <;> decide

lemma ofName?_name (b : Builtin) : ofName? b.name = some b := by
  cases b <;> decide

end Builtin

lemma SpecialForm.ofName?_name (special : SpecialForm) : ofName? special.name = some special := by
  cases special <;> decide

/-! ## Evaluations that ask the console only -/

namespace Eval

/-- The computation asks the console only. -/
abbrev OnConsole {α : Type} (e : Eval α) : Prop :=
  e.Meets .consoleOnly fun _ => True

variable {load : String → Eval Sexp} {source : Option Source}

lemma onConsole_check : checkInterrupt.OnConsole :=
  meets_checkInterrupt trivial

lemma onConsole_evaluateSpecial {special : SpecialForm} {arguments : List Sexp}
    (hspecial : special ∈ [.sequence, .conditional, .throw])
    (hforms : ∀ form ∈ arguments, (evaluateForm load source form).OnConsole) :
    (evaluateSpecial load source special arguments).OnConsole := by
  unfold evaluateSpecial
  split
  case h_1 | h_2 | h_3 | h_7 | h_9 => simp at hspecial
  case h_4 => exact meets_evaluateBody hforms trivial
  case h_5 test consequence =>
    refine (hforms test (by simp)).bind fun value _ => ?_
    split
    · exact hforms consequence (by simp)
    · exact meets_pure trivial
  case h_6 test consequence alternative =>
    refine (hforms test (by simp)).bind fun value _ => ?_
    split
    · exact hforms consequence (by simp)
    · exact hforms alternative (by simp)
  case h_8 form => exact (hforms form (by simp)).bind fun value _ => meets_throw _
  case h_10 => exact meets_throw _

/-- A form of the core language asks the console only, whatever files it could load. -/
theorem onConsole_evaluateForm {form : Sexp} (h : form.IsCore) :
    (evaluateForm load source form).OnConsole := by
  induction h with
  | nil | t | int _ | str _ | keyword _ | empty =>
    unfold evaluateForm
    exact onConsole_check.bind fun _ _ => meets_pure trivial
  | quote arguments =>
    unfold evaluateForm
    refine onConsole_check.bind fun _ _ => ?_
    simp only [SpecialForm.ofName?_name]
    unfold evaluateSpecial
    match arguments with
    | [form] => exact meets_pure trivial
    | [] | _ :: _ :: _ => exact meets_throw _
  | special _ hspecial _ ih =>
    unfold evaluateForm
    refine onConsole_check.bind fun _ _ => ?_
    simp only [SpecialForm.ofName?_name]
    exact onConsole_evaluateSpecial hspecial ih
  | call b hb _ ih =>
    unfold evaluateForm
    refine onConsole_check.bind fun _ _ => ?_
    simp only [Builtin.special_name]
    refine (meets_evaluateAll ih (by simp)).bind fun values _ => ?_
    simp only [apply, Builtin.ofName?_name]
    exact meets_applyBuiltin (fun _ h => h) hb values

end Eval

/-- No form of the core language is a call of the editor. -/
lemma Sexp.IsCore.ofSexp? {form : Sexp} (h : form.IsCore) : EditorCall.ofSexp? form = none := by
  have hhead : ∀ (head : String) (arguments : List Sexp),
      ¬ (EditorCall.package ++ "/").toList <+: head.toList →
        EditorCall.ofSexp? (.list (.symbol head :: arguments)) = none := by
    intro head arguments hstart
    rw [← String.startsWith_string_iff] at hstart
    simp only [EditorCall.ofSexp?, items?, if_neg hstart]
  cases h with
  | quote arguments => exact hhead _ _ (by decide)
  | special special _ _ => exact hhead _ _ (by cases special <;> decide)
  | call b _ _ => exact hhead _ _ (by cases b <;> decide)
  | _ => rfl

namespace Script

variable {α : Type}

/-- The same console, with another interpreter and other files. -/
def elsewhere (s : Script) (bindings : Bindings) (ns : String) (files : File.Store) : Script :=
  { s with bindings, ns, files }

lemma takeLine_elsewhere (s : Script) (b : Bindings) (ns : String) (files : File.Store) :
    (s.elsewhere b ns files).takeLine = (s.takeLine.1, s.takeLine.2.elsewhere b ns files) := by
  obtain ⟨bindings, files', ns', checksLeft, input, log, quit, elapsed⟩ := s
  cases input <;> rfl

lemma check_elsewhere (s : Script) (b : Bindings) (ns : String) (files : File.Store) :
    (s.elsewhere b ns files).check = (s.check.1, s.check.2.elsewhere b ns files) := by
  obtain ⟨bindings, files', ns', checksLeft, input, log, quit, elapsed⟩ := s
  match checksLeft with
  | none | some 0 | some (_ + 1) => rfl

/-- The console replies the same elsewhere. -/
lemma answer_elsewhere {r : Request} (h : r.OnConsole) (s : Script) (b : Bindings) (ns : String)
    (files : File.Store) : (s.elsewhere b ns files).answer r =
      ((s.answer r).1, (s.answer r).2.elsewhere b ns files) := by
  cases r with
  | interrupted => exact s.check_elsewhere b ns files
  | ask question =>
    cases question with
    | line => exact s.takeLine_elsewhere b ns files
    | yesOrNo prompt =>
      have hline := (s.record (.prompt prompt)).takeLine_elsewhere b ns files
      change ((((s.record (.prompt prompt)).elsewhere b ns files).takeLine.1.map _),
        ((s.record (.prompt prompt)).elsewhere b ns files).takeLine.2) = _
      rw [hline]
      rfl
  | writeOutput _ | writeResult _ | debug _ _ | requestQuit | rest _ => rfl
  | bindings | define _ _ _ | openNamespace _ | currentNamespace | enterNamespace _ | readText _
    | isFile _ => exact h.elim

/-- A computation that asks the console only does the same elsewhere. -/
lemma run_elsewhere {c : Computation (Except EvalError α)} (h : c.Meets .consoleOnly fun _ => True)
    (s : Script) (b : Bindings) (ns : String) (files : File.Store) :
    (s.elsewhere b ns files).run c = ((s.run c).1, (s.run c).2.elsewhere b ns files) ∧
      (s.elsewhere b ns files).requests c = s.requests c := by
  induction c generalizing s with
  | done result => exact ⟨rfl, rfl⟩
  | step r next ih =>
    obtain ⟨hconsole, -, hnext⟩ := h
    obtain ⟨hrun, hrequests⟩ := ih _ (hnext _ trivial) (s.answer r).2
    constructor
    · rw [run, answer_elsewhere hconsole]
      exact hrun
    · rw [requests, answer_elsewhere hconsole]
      exact congrArg (r :: ·) hrequests

/-- What the console is asked changes neither the interpreter nor the files. -/
lemma run_stays {c : Computation (Except EvalError α)} (h : c.Meets .consoleOnly fun _ => True)
    (s : Script) : (s.run c).2.bindings = s.bindings ∧ (s.run c).2.ns = s.ns ∧
      (s.run c).2.files = s.files := by
  have hrun := (run_elsewhere h s s.bindings s.ns s.files).1
  have hstays : (s.run c).2 = (s.run c).2.elsewhere s.bindings s.ns s.files :=
    (Prod.ext_iff.1 hrun).2
  rw [hstays]
  exact ⟨rfl, rfl, rfl⟩

/-- An evaluation on a console has one interpreter and one set of files, or others, where users may
have defined anything. It has the same result, makes the same requests, all of the console, and
leaves the console alike. Bindings, current namespace and files stay as they are. -/
structure Unaffected (x : Eval α) : Prop where
  result_eq : ∀ (s : Script) b ns files,
    ((s.elsewhere b ns files).run x.run).1 = (s.run x.run).1
  requests_eq : ∀ (s : Script) b ns files,
    (s.elsewhere b ns files).requests x.run = s.requests x.run
  console_eq : ∀ (s : Script) b ns files,
    ((s.elsewhere b ns files).run x.run).2 = (s.run x.run).2.elsewhere b ns files
  onConsole : ∀ s : Script, ∀ r ∈ s.requests x.run, r.OnConsole
  bindings_eq : ∀ s : Script, (s.run x.run).2.bindings = s.bindings
  ns_eq : ∀ s : Script, (s.run x.run).2.ns = s.ns
  files_eq : ∀ s : Script, (s.run x.run).2.files = s.files

lemma unaffected {x : Eval α} (h : x.OnConsole) : Unaffected x where
  result_eq s b ns files := (Prod.ext_iff.1 (run_elsewhere h s b ns files).1).1
  requests_eq s b ns files := (run_elsewhere h s b ns files).2
  console_eq s b ns files := (Prod.ext_iff.1 (run_elsewhere h s b ns files).1).2
  onConsole s := asks_of_meets h (fun _ _ => trivial) s
  bindings_eq s := (run_stays h s).1
  ns_eq s := (run_stays h s).2.1
  files_eq s := (run_stays h s).2.2

/-- No form of the core language is affected by what users have defined: not as a request, and not
as a part of another form or of a file. -/
theorem core_unaffected {form : Sexp} (h : form.IsCore) :
    (∀ host, Unaffected (evaluateRequest host form)) ∧
    ∀ load source, Unaffected (Eval.evaluateForm load source form) := by
  refine ⟨fun host => ?_, fun load source => unaffected (Eval.onConsole_evaluateForm h)⟩
  have hform : evaluateRequest host form = Eval.evaluate host.loadDepth form := by
    rw [evaluateRequest, h.ofSexp?]
  rw [hform]
  exact unaffected (Eval.onConsole_evaluateForm h)

section redefined

/-- A user has defined three names of the core language, and is in another namespace. -/
def redefined : Script :=
  ({} : Script).elsewhere (((Bindings.define {} "own" "+" ⟨.int 0, none, none⟩).define "own" "if"
    ⟨.nil, none, none⟩).define "own" "list" ⟨.str "mine", none, none⟩) "own" {}

/-- This is `(if (= (+ 1 2) 3) (list (println 3) '+) (throw "unequal"))`. -/
def coreForm : Sexp :=
  .list [.symbol "if",
    .list [.symbol "=", .list [.symbol "+", .int 1, .int 2], .int 3],
    .list [.symbol "list", .list [.symbol "println", .int 3],
      .list [.symbol "quote", .symbol "+"]],
    .list [.symbol "throw", .str "unequal"]]

lemma isCore_coreForm : coreForm.IsCore := by
  refine .special .conditional (by simp) ?_
  simp only [List.forall_mem_cons]
  refine ⟨.call .equal (by simp) ?_, .call .list (by simp) ?_,
    .special .throw (by simp) (by simpa using .str _), by simp⟩
  · simp only [List.forall_mem_cons]
    exact ⟨.call .add (by simp) (by simp [Sexp.IsCore.int]), .int 3, by simp⟩
  · simp only [List.forall_mem_cons]
    exact ⟨.call .println (by simp) (by simpa using .int 3), .quote _, by simp⟩

theorem core_unaffected_redefined :
    coreForm.IsCore ∧ redefined.run (evaluateRequest Interpreted.plainHost coreForm).run =
      (.ok (.list [.nil, .symbol "+"]), redefined.record (.output "3\n")) := by
  obtain ⟨hrequest, -⟩ := core_unaffected isCore_coreForm
  have h := hrequest Interpreted.plainHost
  have hplain : ({} : Script).run (evaluateRequest Interpreted.plainHost coreForm).run =
      (.ok (.list [.nil, .symbol "+"]), { log := [.output "3\n"] }) := by
    cbv
  refine ⟨isCore_coreForm, Prod.ext ?_ ?_⟩
  · exact (h.result_eq _ _ _ _).trans (Prod.ext_iff.1 hplain).1
  · refine (h.console_eq _ _ _ _).trans ?_
    rw [hplain]
    rfl

end redefined

end Script

end EvalServer
