import EvalServer.Proofs.Evaluation.Texts
import EvalServer.Proofs.Sexp.Faults
import Mathlib

/-!
# Evaluations that end

A form is evaluated by way of its parts, which are smaller. Only a file that is loaded brings new
forms, so an evaluation can go on for ever by loading files from files. It does not if no file is
loaded while it is being loaded already: then at most all files are open at a time. Computations
are compared as trees of requests, in all worlds that may answer these.
-/

namespace EvalServer

open Sexp

/-! ## Computations that get further -/

namespace Computation

variable {α β : Type}

/-- The second computation does the same as the first one, and goes on, if at all, where in the
first one files have loaded one another too deep. -/
inductive Extends : Computation (Except EvalError α) → Computation (Except EvalError α) → Prop
  | tooDeep (c : Computation (Except EvalError α)) : Extends (.done (.error .loadsTooDeep)) c
  | done (result : Except EvalError α) : Extends (.done result) (.done result)
  | step {r : Request} {next next' : r.Reply → Computation (Except EvalError α)} :
      (∀ reply, Extends (next reply) (next' reply)) → Extends (.step r next) (.step r next')

lemma Extends.refl (c : Computation (Except EvalError α)) : c.Extends c := by
  induction c with
  | done result => exact .done result
  | step r next ih => exact .step ih

lemma Extends.run {c c' : Computation (Except EvalError α)} (h : c.Extends c') {s : Script}
    (hends : (s.run c).1 ≠ .error .loadsTooDeep) :
    s.run c' = s.run c ∧ s.requests c' = s.requests c := by
  induction h generalizing s with
  | tooDeep => exact absurd rfl hends
  | done => exact ⟨rfl, rfl⟩
  | step _ ih =>
    obtain ⟨hrun, hrequests⟩ := ih (s.answer _).1 hends
    exact ⟨hrun, congrArg (_ :: ·) hrequests⟩

end Computation

namespace Eval

variable {α β : Type} {x x' : Eval α}

def Extends (x x' : Eval α) : Prop :=
  Computation.Extends x.run x'.run

lemma Extends.refl (x : Eval α) : x.Extends x :=
  Computation.Extends.refl x.run

lemma extends_of_tooDeep (x : Eval α) : (throw .loadsTooDeep : Eval α).Extends x :=
  .tooDeep x.run

lemma Extends.bind {f f' : α → Eval β} (h : x.Extends x') (hf : ∀ a, (f a).Extends (f' a)) :
    (x >>= f).Extends (x' >>= f') := by
  have general : ∀ c c' : Computation (Except EvalError α), c.Extends c' →
      (c.bind (ExceptT.bindCont f)).Extends (c'.bind (ExceptT.bindCont f')) := by
    intro c c' h
    induction h with
    | tooDeep c => exact .tooDeep _
    | done result =>
      cases result with
      | ok a => exact hf a
      | error e => exact .done _
    | step _ ih => exact .step ih
  exact general x.run x'.run h

/-! ## Forms -/

section forms

variable {load load' : String → Eval Sexp} {source : Option Source}

lemma extends_evaluateAll {forms : List Sexp}
    (hforms : ∀ form ∈ forms,
      (evaluateForm load source form).Extends (evaluateForm load' source form))
    (values : List Sexp) :
    (evaluateAll load source values forms).Extends (evaluateAll load' source values forms) := by
  induction forms generalizing values with
  | nil =>
    rw [evaluateAll, evaluateAll]
    exact .refl _
  | cons form rest ih =>
    obtain ⟨hform, hrest⟩ := List.forall_mem_cons.1 hforms
    rw [evaluateAll, evaluateAll]
    exact hform.bind fun value => ih hrest _

lemma extends_evaluateBody {forms : List Sexp}
    (hforms : ∀ form ∈ forms,
      (evaluateForm load source form).Extends (evaluateForm load' source form))
    (last : Sexp) :
    (evaluateBody load source last forms).Extends (evaluateBody load' source last forms) := by
  induction forms generalizing last with
  | nil =>
    rw [evaluateBody, evaluateBody]
    exact .refl _
  | cons form rest ih =>
    obtain ⟨hform, hrest⟩ := List.forall_mem_cons.1 hforms
    rw [evaluateBody, evaluateBody]
    exact hform.bind fun value => ih hrest _

lemma extends_evaluateSpecial (hload : ∀ path, (load path).Extends (load' path))
    (special : SpecialForm) {arguments : List Sexp}
    (hforms : ∀ form ∈ arguments,
      (evaluateForm load source form).Extends (evaluateForm load' source form)) :
    (evaluateSpecial load source special arguments).Extends
      (evaluateSpecial load' source special arguments) := by
  fun_cases evaluateSpecial load source special arguments
  case case1 form =>
    rw [evaluateSpecial]
    exact .refl _
  case case2 form name | case4 doc form name =>
    rw [evaluateSpecial]
    exact (hforms form (by simp)).bind fun value => .refl _
  case case3 got form hgot | case5 got doc form hgot =>
    rw [evaluateSpecial]
    · exact .refl _
    · exact hgot
  case case6 =>
    rw [evaluateSpecial]
    exact extends_evaluateBody hforms _
  case case7 test consequence =>
    rw [evaluateSpecial]
    refine (hforms test (by simp)).bind fun value => ?_
    split
    · exact hforms consequence (by simp)
    · exact .refl _
  case case8 test consequence alternative =>
    rw [evaluateSpecial]
    refine (hforms test (by simp)).bind fun value => ?_
    split
    · exact hforms consequence (by simp)
    · exact hforms alternative (by simp)
  case case9 form | case10 form =>
    rw [evaluateSpecial]
    exact (hforms form (by simp)).bind fun value => .refl _
  case case11 form =>
    rw [evaluateSpecial]
    refine (hforms form (by simp)).bind fun path => ?_
    split
    · exact hload _
    · exact .refl _
  case case12 =>
    rw [evaluateSpecial]
    · exact .refl _
    all_goals assumption

/-- A form does the same, and gets as far as the files that it loads. -/
theorem extends_evaluateForm (hload : ∀ path, (load path).Extends (load' path)) :
    ∀ form : Sexp, (evaluateForm load source form).Extends (evaluateForm load' source form)
  | .symbol name => by
    unfold evaluateForm
    exact .refl _
  | .list (head :: arguments) => by
    have hforms : ∀ form ∈ arguments,
        (evaluateForm load source form).Extends (evaluateForm load' source form) :=
      fun form _ => extends_evaluateForm hload form
    unfold evaluateForm
    refine (Extends.refl _).bind fun _ => ?_
    cases head with
    | symbol name =>
      dsimp only
      cases SpecialForm.ofName? name with
      | some special => exact extends_evaluateSpecial hload special hforms
      | none => exact (extends_evaluateAll hforms []).bind fun values => .refl _
    | nil | t | int _ | str _ | keyword _ | list _ => exact .refl _
  | .list [] | .nil | .t | .int _ | .str _ | .keyword _ => by
    unfold evaluateForm
    exact .refl _

lemma extends_evaluateForms (hload : ∀ path, (load path).Extends (load' path))
    (sourceOf : Nat → Option Source) (last : Sexp) (forms : List (Nat × Sexp)) :
    (evaluateForms load sourceOf last forms).Extends
      (evaluateForms load' sourceOf last forms) := by
  induction forms generalizing last with
  | nil => exact .refl _
  | cons p rest ih =>
    rw [evaluateForms, evaluateForms]
    exact (extends_evaluateForm hload p.2).bind fun value => ih value

end forms

end Eval

/-! ## Requests -/

/-- Evaluates every form of a text, with a way to load files. -/
def EditorCall.evaluateTextWith (load : String → Eval Sexp) (text : String) : Eval Sexp :=
  match parseAll text with
  | .error e => throw (.unreadable e)
  | .ok forms => Eval.evaluateForms load (fun _ => none) .nil forms

/-- The computation of a request, with a way to load files. Three operations of the editor evaluate
forms. -/
def evaluateRequestWith (load : String → Eval Sexp) (host : Host) (form : Sexp) : Eval Sexp :=
  match EditorCall.ofSexp? form with
  | some ("interactive-eval", arguments) => do
    let _ ← Eval.currentNamespace
    let text ← Eval.ofExcept (EditorCall.textArgument "interactive-eval" arguments 0)
    let value ← EditorCall.evaluateTextWith load text
    return .str ("=> " ++ value.print)
  | some ("listener-eval", arguments) => do
    let _ ← Eval.currentNamespace
    let text ← Eval.ofExcept (EditorCall.textArgument "listener-eval" arguments 0)
    let value ← EditorCall.evaluateTextWith load text
    let _ : Unit ← Eval.request (.writeResult (value.print ++ "\n"))
    return .nil
  | some ("load-file", arguments) => do
    let _ ← Eval.currentNamespace
    let path ← Eval.ofExcept (EditorCall.textArgument "load-file" arguments 0)
    Eval.evaluateForm load none (.list [.symbol SpecialForm.loadFile.name, .str path])
  | some (operation, arguments) => EditorCall.run host operation arguments
  | none => Eval.evaluateForm load none form

lemma evaluateRequestWith_loadFile (host : Host) (form : Sexp) :
    evaluateRequestWith (Eval.loadFile host.loadDepth) host form = evaluateRequest host form := by
  unfold evaluateRequestWith evaluateRequest
  split
  · rename_i h
    rw [h]
    rfl
  · rename_i h
    rw [h]
    rfl
  · rename_i h
    rw [h]
    rfl
  · rename_i h
    rw [h]
  · rename_i h
    rw [h]
    rfl

/-- The depth to which files may load one another is known to the loading of files only. -/
lemma evaluateRequestWith_upTo (load : String → Eval Sexp) (host : Host) (depth : Nat)
    (form : Sexp) :
    evaluateRequestWith load (host.upTo depth) form = evaluateRequestWith load host form := by
  unfold evaluateRequestWith
  split
  · rfl
  · rfl
  · rfl
  · next operation arguments hinteractive hlistener hfile _ =>
    unfold EditorCall.run
    refine congrArg (Eval.currentNamespace >>= ·) (funext fun ns => ?_)
    split
    case h_3 => exact absurd rfl hinteractive
    case h_4 => exact absurd rfl hlistener
    case h_9 => exact absurd rfl hfile
    all_goals rfl
  · rfl

lemma extends_evaluateRequestWith {load load' : String → Eval Sexp}
    (hload : ∀ path, (load path).Extends (load' path)) (host : Host) (form : Sexp) :
    (evaluateRequestWith load host form).Extends (evaluateRequestWith load' host form) := by
  have htext : ∀ text, (EditorCall.evaluateTextWith load text).Extends
      (EditorCall.evaluateTextWith load' text) := by
    intro text
    unfold EditorCall.evaluateTextWith
    split
    · exact .refl _
    · exact Eval.extends_evaluateForms hload _ _ _
  unfold evaluateRequestWith
  split
  · refine (Eval.Extends.refl _).bind fun _ => (Eval.Extends.refl _).bind fun text => ?_
    exact (htext text).bind fun value => .refl _
  · refine (Eval.Extends.refl _).bind fun _ => (Eval.Extends.refl _).bind fun text => ?_
    exact (htext text).bind fun value => .refl _
  · refine (Eval.Extends.refl _).bind fun _ => (Eval.Extends.refl _).bind fun path => ?_
    exact Eval.extends_evaluateForm hload _
  · exact .refl _
  · exact Eval.extends_evaluateForm hload form

/-! ## Files that are not open -/

/-- The places of the files. -/
def File.Store.places (s : File.Store) : List File.Place :=
  (s.nodes.filter fun entry => entry.2 ≠ .directory).map Prod.fst

/-- All places but one. -/
def File.others (place : Place) (places : List Place) : List Place :=
  places.filter (· ≠ place)

lemma File.length_others {place : Place} {places : List Place} (h : place ∈ places) :
    (others place places).length < places.length :=
  List.length_filter_lt_length_iff_exists.2 ⟨place, h, by simp⟩

/-- Loads a file unless it is open: only the files of `closed` are not being loaded already. -/
def Eval.loadClosed (files : File.Store) (closed : List File.Place) (path : String) :
    Eval Sexp := do
  let contents : Except FileError String ← Eval.request (.readText path)
  match contents with
  | .error e => throw (.load path (.file e))
  | .ok text =>
    match parseAll text with
    | .error e => throw (.load path (.unreadable e))
    | .ok forms =>
      match files.locate path with
      | .error _ => throw .loadsTooDeep
      | .ok place =>
        if place ∈ closed then
          Eval.evaluateForms (Eval.loadClosed files (File.others place closed))
            (fun line => some ⟨path, line⟩) .nil forms
        else throw .loadsTooDeep
termination_by closed.length
decreasing_by
  next hclosed => exact File.length_others hclosed

/-- At most the files that are not open can be open at a time. -/
lemma Eval.extends_loadClosed (files : File.Store) {closed : List File.Place} {depth : Nat}
    (h : closed.length < depth) (path : String) :
    (Eval.loadClosed files closed path).Extends (Eval.loadFile depth path) := by
  induction depth generalizing closed path with
  | zero => exact absurd h (Nat.not_lt_zero _)
  | succ depth ih =>
    rw [Eval.loadClosed, Eval.loadFile]
    refine (Extends.refl _).bind fun contents => ?_
    cases (contents : Except FileError String) with
    | error e => exact .refl _
    | ok text =>
      cases hparse : parseAll text with
      | error e =>
        simp only [hparse]
        exact .refl _
      | ok forms =>
        simp only [hparse]
        split
        · exact Eval.extends_of_tooDeep _
        · next place _ =>
          split
          · next hclosed =>
            have hless := File.length_others hclosed
            exact Eval.extends_evaluateForms (fun path => ih (by omega) path) _ _ forms
          · exact Eval.extends_of_tooDeep _

/-- A file that can be read is one of the files that are counted. -/
lemma File.Store.locate_of_readText {s : File.Store} {path text : String}
    (h : s.readText path = .ok text) : ∃ place ∈ s.places, s.locate path = .ok place := by
  obtain ⟨place, bytes, hlocate, hnode, -⟩ := isFile_iff.1 (isFile_of_readText h)
  refine ⟨place, ?_, hlocate⟩
  unfold node? at hnode
  split at hnode
  · cases hnode
  · obtain ⟨earlier, later, hnodes, -⟩ := List.lookup_eq_some_iff.1 hnode
    have hmem : (place, Node.file bytes) ∈ s.nodes := hnodes ▸ by simp
    exact List.mem_map.2 ⟨_, List.mem_filter.2 ⟨hmem, by simp⟩, rfl⟩

namespace Script

variable {s : Script} {path text : String}

/-- An evaluation comes to load a file that is being loaded already. -/
def Reenters (s : Script) (host : Host) (form : Sexp) : Prop :=
  (s.run (evaluateRequestWith (Eval.loadClosed s.files s.files.places) host form).run).1 =
    .error .loadsTooDeep

/-- An evaluation ends unless it comes to load a file that is being loaded already: it has a value
or an error, after these requests, as soon as all files may be open at a time. Within a file it goes
no deeper than the forms are nested. -/
theorem evaluation_ends (host : Host) (form : Sexp) (h : ¬ s.Reenters host form) :
    (∃ result t asked, result ≠ .error .loadsTooDeep ∧
      ∀ depth, s.files.places.length < depth →
        s.run (evaluateRequest (host.upTo depth) form).run = (result, t) ∧
        s.requests (evaluateRequest (host.upTo depth) form).run = asked) ∧
    ∀ path text, s.files.readText path = .ok text →
      (∃ place ∈ s.files.places, s.files.locate path = .ok place) ∧
      ∀ forms, parseAll text = .ok forms → ∀ p ∈ forms, p.2.nesting ≤ maxDepth := by
  refine ⟨?_, fun path text hread =>
    ⟨File.Store.locate_of_readText hread, fun forms hparse p hp => ?_⟩⟩
  · let closed := evaluateRequestWith (Eval.loadClosed s.files s.files.places) host form
    refine ⟨(s.run closed.run).1, (s.run closed.run).2, s.requests closed.run, h,
      fun depth hdepth => ?_⟩
    have hload : ∀ path, (Eval.loadClosed s.files s.files.places path).Extends
        (Eval.loadFile (host.upTo depth).loadDepth path) :=
      fun path => Eval.extends_loadClosed s.files hdepth path
    have hextends := extends_evaluateRequestWith hload (host.upTo depth) form
    rw [evaluateRequestWith_upTo, evaluateRequestWith_loadFile] at hextends
    exact hextends.run h
  · obtain ⟨items, -, hnesting, rfl⟩ := parseAll_eq_ok_iff.1 hparse
    obtain ⟨item, hitem, rfl⟩ := List.mem_map.1 hp
    exact hnesting item hitem

section twice

/-- A file that loads another one twice, one time after the other. -/
def twice : Script where
  files := {
    nodes := [(["w"], .directory),
      (["w", "a"], .file (Text.Utf8.encode "(load-file \"b\")(load-file \"b\")".toList)),
      (["w", "b"], .file (Text.Utf8.encode "(print 1)".toList))],
    workingDirectory := ["w"] }

theorem evaluation_ends_twice :
    ¬ twice.Reenters Interpreted.plainHost (.list [.symbol "load-file", .str "a"]) ∧
    ∃ result t asked, result ≠ .error .loadsTooDeep ∧
      ∀ depth, 2 < depth →
        twice.run (evaluateRequest (Interpreted.plainHost.upTo depth)
          (.list [.symbol "load-file", .str "a"])).run = (result, t) ∧
        twice.requests (evaluateRequest (Interpreted.plainHost.upTo depth)
          (.list [.symbol "load-file", .str "a"])).run = asked := by
  have hrun : (twice.run (evaluateRequestWith (Eval.loadClosed twice.files twice.files.places)
      Interpreted.plainHost (.list [.symbol "load-file", .str "a"])).run).1 = .ok .nil := by
    cbv
  have hnew : ¬ twice.Reenters Interpreted.plainHost (.list [.symbol "load-file", .str "a"]) := by
    rw [Reenters, hrun]
    simp
  exact ⟨hnew, (evaluation_ends _ _ hnew).1⟩

end twice

/-! ## A file that loads itself -/

section endless

/-- A file that only loads itself is loaded to any depth there may be. -/
lemma run_loadFile_self (hcalm : s.checksLeft = none) {line : Nat}
    (hread : s.files.readText path = .ok text)
    (hparse : parseAll text =
      .ok [(line, .list [.symbol SpecialForm.loadFile.name, .str path])]) (depth : Nat) :
    s.run (Eval.loadFile depth path).run = (.error .loadsTooDeep, s) := by
  induction depth with
  | zero => rfl
  | succ depth ih =>
    have hform : s.run (Eval.evaluateForm (Eval.loadFile depth) (some ⟨path, line⟩)
        (.list [.symbol SpecialForm.loadFile.name, .str path])).run =
          s.run (Eval.loadFile depth path).run := by
      have hname : SpecialForm.ofName? SpecialForm.loadFile.name = some .loadFile := by decide
      unfold Eval.evaluateForm
      simp only [hname]
      rw [(run_checked hcalm _).1]
      unfold Eval.evaluateSpecial
      rw [Interpreted.evaluateForm_self (.inr ⟨path, rfl⟩)]
      exact (run_checked hcalm _).1
    rw [(run_loadFile hread depth).1, hparse]
    exact (run_bind_error (hform.trans ih)).1

def endless : Script where
  files := {
    nodes := [(["w"], .directory),
      (["w", "a"], .file (Text.Utf8.encode "(load-file \"a\")".toList))],
    workingDirectory := ["w"] }

/-- The load of a file that only loads itself has no result, however deep files may load one
another. -/
theorem endless_no_result : ¬ ∃ result t asked,
    endless.ComesTo (loading Interpreted.plainHost "a") result t asked := by
  rintro ⟨result, t, asked, hresult, depth, h⟩
  have hread : endless.files.readText "a" = .ok "(load-file \"a\")" := by decide +kernel
  have hparse : parseAll "(load-file \"a\")" =
      .ok [(1, .list [.symbol SpecialForm.loadFile.name, .str "a"])] := by decide +kernel
  have hself := run_loadFile_self rfl hread hparse depth
  obtain ⟨hrun, -⟩ := h depth le_rfl
  rw [(run_loading rfl _ _ _).1, hself] at hrun
  cases hrun
  exact hresult rfl

end endless

end Script

end EvalServer
