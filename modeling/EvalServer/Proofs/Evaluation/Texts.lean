import EvalServer.Proofs.Evaluation.Answers
import EvalServer.Proofs.Evaluation.Loading
import EvalServer.Proofs.Evaluation.Sources

/-!
# Files and texts

To load a file is to evaluate its text: only the sources differ that are recorded for definitions.
Files may load one another up to some depth. What ends at one depth ends in the same way at all
greater depths, and this is what `ComesTo` says of an evaluation without a depth.
-/

namespace EvalServer

open Sexp

def Host.upTo (host : Host) (depth : Nat) : Host :=
  { host with loadDepth := depth }

namespace Script

variable {α : Type} {s : Script} {host : Host} {path text : String}

/-- An evaluation for each depth to which files may load one another. From some depth on it always
ends with this result, has asked this and leaves this console. -/
def ComesTo (s : Script) (x : Nat → Eval α) (result : Except EvalError α) (t : Script)
    (asked : List Request) : Prop :=
  result ≠ .error .loadsTooDeep ∧ ∃ depth, ∀ more, depth ≤ more →
    s.run (x more).run = (result, t) ∧ s.requests (x more).run = asked

def loading (host : Host) (path : String) (depth : Nat) : Eval Sexp :=
  evaluateRequest (host.upTo depth) (.list [.symbol SpecialForm.loadFile.name, .str path])

def reading (host : Host) (text : String) (depth : Nat) : Eval Sexp :=
  EditorCall.evaluateText (host.upTo depth) text

/-- A definition in a file, and the same definition where no file is known. -/
def FiledIn (path : String) (source source' : Option Source) : Prop :=
  (∃ line, source = some ⟨path, line⟩) ∧ source' = none

/-- The forms of a text are evaluated one after another, as those of a file on one console and as
those of no file on another one. Each form has the same value on both, up to the first form that
fails, which fails with the same error on both. -/
inductive SideBySide (load : String → Eval Sexp) (path : String) : Sexp → Script → Script →
    List (Nat × Sexp) → Except EvalError Sexp → Script → Script → Prop
  | done {last : Sexp} {s s' : Script} : s.Alike s' →
      SideBySide load path last s s' [] (.ok last) s s'
  | value {last value : Sexp} {s s' t t' u u' : Script} {line : Nat} {form : Sexp}
      {rest : List (Nat × Sexp)} {result : Except EvalError Sexp} : s.Alike s' →
      s.Evaluates (Eval.evaluateForm load (some ⟨path, line⟩) form) value t →
      s'.Evaluates (Eval.evaluateForm load none form) value t' →
      SideBySide load path value t t' rest result u u' →
      SideBySide load path last s s' ((line, form) :: rest) result u u'
  | failure {last : Sexp} {s s' t t' : Script} {line : Nat} {form : Sexp}
      {rest : List (Nat × Sexp)} {e : EvalError} : s.Alike s' →
      s.run (Eval.evaluateForm load (some ⟨path, line⟩) form).run = (.error e, t) →
      s'.run (Eval.evaluateForm load none form).run = (.error e, t') → t.Alike t' →
      SideBySide load path last s s' ((line, form) :: rest) (.error e) t t'

/-- What there is to say about the load of a file with these forms, which has a result, asks
something and leaves a console, and about the evaluation of its text. -/
structure LoadedAsRead (s : Script) (path : String) (forms : List (Nat × Sexp))
    (result : Except EvalError Sexp) (t : Script) (asked : List Request)
    (result' : Except EvalError Sexp) (t' : Script) (asked' : List Request) : Prop where
  result_eq : result = result'
  alike : t.Alike t'
  /-- Apart from two check points and the look at the file, the requests are the same up to the
  sources of definitions. -/
  accord : ∃ inside, asked = .interrupted :: .interrupted :: .readText path :: inside ∧
    Accord (FiledIn path) inside asked'
  in_order : ∃ depth, ∀ more, depth ≤ more →
    SideBySide (Eval.loadFile more) path .nil s s forms result t t'

section comesTo

variable {x y : Nat → Eval α} {own : Option Source → Option Source → Prop}
  {result result' : Except EvalError α} {t t' : Script} {asked asked' : List Request}

/-- What ends at some depth does the same at all greater depths. -/
lemma comesTo_of_run (hx : ∀ depth more, depth ≤ more → Follows Eq (x depth) (x more))
    (hcalm : s.checksLeft = none) {depth : Nat} (hrun : s.run (x depth).run = (result, t))
    (hends : result ≠ .error .loadsTooDeep) :
    s.ComesTo x result t (s.requests (x depth).run) := by
  refine ⟨hends, depth, fun more hmore => ?_⟩
  obtain ⟨hresult, -, haccord⟩ :=
    hx depth more hmore s s (Alike.refl hcalm) (by rwa [Ends, hrun])
  have hasked := haccord.eq fun _ _ h => h
  refine ⟨?_, hasked.symm⟩
  rw [← hrun]
  refine Prod.ext hresult.symm ?_
  rw [← after_requests, ← after_requests, hasked]

lemma ComesTo.follows (h : s.ComesTo x result t asked) (hcalm : s.checksLeft = none)
    (hxy : ∀ depth, Follows own (x depth) (y depth))
    (hy : ∀ depth more, depth ≤ more → Follows Eq (y depth) (y more)) :
    ∃ result t asked, s.ComesTo y result t asked := by
  obtain ⟨hends, depth, h⟩ := h
  obtain ⟨hrun, -⟩ := h depth le_rfl
  obtain ⟨hresult, -, -⟩ := hxy depth s s (Alike.refl hcalm) (by rwa [Ends, hrun])
  rw [hrun] at hresult
  have hrun' : s.run (y depth).run = (_, _) := rfl
  exact ⟨_, _, _, comesTo_of_run hy hcalm hrun' (by rwa [← hresult])⟩

lemma ComesTo.agree (h : s.ComesTo x result t asked) (h' : s.ComesTo y result' t' asked')
    (hcalm : s.checksLeft = none) (hxy : ∀ depth, Follows own (x depth) (y depth)) :
    result = result' ∧ t.Alike t' ∧ Accord own asked asked' := by
  obtain ⟨hends, depth, h⟩ := h
  obtain ⟨-, depth', h'⟩ := h'
  obtain ⟨hrun, hasked⟩ := h _ (Nat.le_max_left depth depth')
  obtain ⟨hrun', hasked'⟩ := h' _ (Nat.le_max_right depth depth')
  have hagree := hxy (max depth depth') s s (Alike.refl hcalm) (by rw [Ends, hrun]; exact hends)
  refine ⟨?_, ?_, ?_⟩
  · simpa only [hrun, hrun'] using hagree.result
  · simpa only [hrun, hrun'] using hagree.alike
  · simpa only [hasked, hasked'] using hagree.accord

end comesTo

/-! ## Loads and texts -/

section texts

variable {forms : List (Nat × Sexp)}

/-- The forms of a text that no file holds. -/
abbrev textForms (depth : Nat) (last : Sexp) (forms : List (Nat × Sexp)) : Eval Sexp :=
  Eval.evaluateForms (Eval.loadFile depth) (fun _ => none) last forms

lemma follows_fileForms {depth more : Nat} (h : depth ≤ more) :
    Follows Eq (fileForms depth path .nil forms) (fileForms more path .nil forms) :=
  follows_evaluateForms (fun _ => rfl) (follows_loadFile h) _ _

lemma follows_textForms {depth more : Nat} (h : depth ≤ more) :
    Follows Eq (textForms depth .nil forms) (textForms more .nil forms) :=
  follows_evaluateForms (fun _ => rfl) (follows_loadFile h) _ _

lemma follows_file_text (depth : Nat) (last : Sexp) : Follows (FiledIn path)
    (fileForms depth path last forms) (textForms depth last forms) :=
  follows_evaluateForms (fun line => ⟨⟨line, rfl⟩, rfl⟩) (follows_loadFile le_rfl) _ _

lemma follows_text_file (depth : Nat) (last : Sexp) :
    Follows (fun source source' => FiledIn path source' source)
      (textForms depth last forms) (fileForms depth path last forms) :=
  follows_evaluateForms (fun line => ⟨⟨line, rfl⟩, rfl⟩) (follows_loadFile le_rfl) _ _

lemma sideBySide_of_ends {load : String → Eval Sexp}
    (hload : ∀ other, Follows (FiledIn path) (load other) (load other)) {last : Sexp}
    {s s' : Script}
    (h : s.Alike s') (hends : s.Ends
      (Eval.evaluateForms load (fun line => some ⟨path, line⟩) last forms)) :
    SideBySide load path last s s' forms
      (s.run (Eval.evaluateForms load (fun line => some ⟨path, line⟩) last forms).run).1
      (s.run (Eval.evaluateForms load (fun line => some ⟨path, line⟩) last forms).run).2
      (s'.run (Eval.evaluateForms load (fun _ => none) last forms).run).2 := by
  induction forms generalizing last s s' with
  | nil => exact .done h
  | cons p rest ih =>
    obtain ⟨line, form⟩ := p
    have hform : Follows (FiledIn path) (Eval.evaluateForm load (some ⟨path, line⟩) form)
        (Eval.evaluateForm load none form) :=
      follows_evaluateForm ⟨⟨line, rfl⟩, rfl⟩ hload form
    rw [Eval.evaluateForms] at hends ⊢
    rw [Eval.evaluateForms]
    cases hrun : s.run (Eval.evaluateForm load (some ⟨path, line⟩) form).run with
    | mk result t =>
    cases hrun' : s'.run (Eval.evaluateForm load none form).run with
    | mk result' t' =>
    have hagree (hends) := hform s s' h hends
    rw [Ends, hrun] at hagree
    cases result with
    | error e =>
      rw [Ends, (run_bind_error hrun).1] at hends
      obtain ⟨hresult, halike, -⟩ := hagree fun hdeep => hends (by cases hdeep; rfl)
      rw [hrun, hrun'] at hresult halike
      obtain rfl : .error e = result' := hresult
      rw [(run_bind_error hrun).1, (run_bind_error hrun').1]
      exact .failure h hrun hrun' halike
    | ok value =>
      rw [Ends, (run_bind_ok hrun).1] at hends
      obtain ⟨hresult, halike, -⟩ := hagree (by simp)
      rw [hrun, hrun'] at hresult halike
      obtain rfl : .ok value = result' := hresult
      rw [(run_bind_ok hrun).1, (run_bind_ok hrun').1]
      exact .value h hrun hrun' (ih halike hends)

lemma run_checked (hcalm : s.checksLeft = none) (x : Eval α) :
    s.run (Eval.checkInterrupt >>= fun _ => x).run = s.run x.run ∧
      s.requests (Eval.checkInterrupt >>= fun _ => x).run = .interrupted :: s.requests x.run := by
  have hcheck : s.check = (false, s) := by rw [check, hcalm]
  obtain ⟨hrun, hrequests⟩ := run_bind_ok (f := fun _ => x) (evaluates_check.2 hcheck)
  have hasked : s.requests Eval.checkInterrupt.run = [.interrupted] := by
    change Request.interrupted :: s.check.2.requests
      (if s.check.1 then throw .interrupted else pure () : Eval Unit).run = _
    rw [hcheck]
    rfl
  refine ⟨hrun, ?_⟩
  rw [hrequests, hasked]
  rfl

lemma loading_eq (host : Host) (path : String) : loading host path = fun depth =>
    Eval.checkInterrupt >>= fun _ => Eval.checkInterrupt >>= fun _ => Eval.loadFile depth path := by
  funext depth
  have hname : SpecialForm.ofName? SpecialForm.loadFile.name = some .loadFile := by decide
  unfold loading
  rw [Interpreted.evaluateRequest_special _ [.str path] (by decide +kernel) hname]
  unfold Eval.evaluateSpecial
  rw [Interpreted.evaluateForm_self (.inr ⟨path, rfl⟩)]
  rfl

lemma follows_loading {depth more : Nat} (h : depth ≤ more) :
    Follows Eq (loading host path depth) (loading host path more) := by
  rw [loading_eq]
  exact follows_checkInterrupt.bind fun _ => follows_checkInterrupt.bind fun _ =>
    follows_loadFile h path

lemma run_loading (hcalm : s.checksLeft = none) (host : Host) (path : String) (depth : Nat) :
    s.run (loading host path depth).run = s.run (Eval.loadFile depth path).run ∧
      s.requests (loading host path depth).run =
        .interrupted :: .interrupted :: s.requests (Eval.loadFile depth path).run := by
  rw [loading_eq, (run_checked hcalm _).1, (run_checked hcalm _).1, (run_checked hcalm _).2,
    (run_checked hcalm _).2]
  exact ⟨rfl, rfl⟩

/-- A file that can be opened is loaded by evaluating its forms, if it can be read as a whole. -/
lemma run_loadFile (hread : s.files.readText path = .ok text) (depth : Nat) :
    let inside : Eval Sexp := match parseAll text with
      | .error e => throw (.load path (.unreadable e))
      | .ok forms => fileForms depth path .nil forms
    s.run (Eval.loadFile (depth + 1) path).run = s.run inside.run ∧
      s.requests (Eval.loadFile (depth + 1) path).run =
        .readText path :: s.requests inside.run := by
  have hasked : s.run (Eval.request (.readText path)).run = (.ok (.ok text), s) :=
    evaluates_request.2 (Prod.ext hread rfl)
  rw [Eval.loadFile]
  exact ⟨(run_bind_ok hasked).1, (run_bind_ok hasked).2⟩

lemma reading_eq (hparse : parseAll text = .ok forms) (host : Host) :
    reading host text = fun depth => textForms depth .nil forms := by
  funext depth
  unfold reading EditorCall.evaluateText
  rw [hparse]
  rfl

lemma follows_reading {depth more : Nat} (h : depth ≤ more) :
    Follows Eq (reading host text depth) (reading host text more) := by
  cases hparse : parseAll text with
  | ok forms =>
    rw [reading_eq hparse]
    exact follows_textForms h
  | error e =>
    unfold reading EditorCall.evaluateText
    rw [hparse]
    exact follows_throw _

lemma comesTo_loading_iff (hcalm : s.checksLeft = none)
    (hread : s.files.readText path = .ok text) (hparse : parseAll text = .ok forms) (host : Host)
    {result : Except EvalError Sexp} {t : Script} {asked : List Request} :
    s.ComesTo (loading host path) result t asked ↔
      ∃ inside, asked = .interrupted :: .interrupted :: .readText path :: inside ∧
        s.ComesTo (fun depth => fileForms depth path .nil forms) result t inside := by
  -- a file that may load others up to some depth is itself one file deeper
  have hload : ∀ depth,
      s.run (loading host path (depth + 1)).run = s.run (fileForms depth path .nil forms).run ∧
        s.requests (loading host path (depth + 1)).run = .interrupted :: .interrupted ::
          .readText path :: s.requests (fileForms depth path .nil forms).run := by
    intro depth
    obtain ⟨hrun, hrequests⟩ := run_loading hcalm host path (depth + 1)
    obtain ⟨hrun', hrequests'⟩ := run_loadFile hread depth
    simp only [hparse] at hrun' hrequests'
    exact ⟨hrun.trans hrun', by rw [hrequests, hrequests']⟩
  constructor
  · rintro ⟨hresult, depth, h⟩
    have hinside : ∀ more, depth ≤ more →
        s.run (fileForms more path .nil forms).run = (result, t) ∧
          asked = .interrupted :: .interrupted :: .readText path ::
            s.requests (fileForms more path .nil forms).run := by
      intro more hmore
      obtain ⟨hrun, hrequests⟩ := h (more + 1) (by omega)
      rw [(hload more).1] at hrun
      rw [(hload more).2] at hrequests
      exact ⟨hrun, hrequests.symm⟩
    refine ⟨_, (hinside depth le_rfl).2, hresult, depth, fun more hmore => ?_⟩
    have hasked := (hinside more hmore).2.symm.trans (hinside depth le_rfl).2
    simp only [List.cons.injEq, true_and] at hasked
    exact ⟨(hinside more hmore).1, hasked⟩
  · rintro ⟨inside, rfl, hresult, depth, h⟩
    refine ⟨hresult, depth + 1, fun more hmore => ?_⟩
    obtain ⟨more, rfl⟩ := Nat.exists_eq_add_of_le' (le_trans (Nat.le_add_left 1 depth) hmore)
    obtain ⟨hrun, hrequests⟩ := h more (by omega)
    rw [(hload more).1, (hload more).2, hrequests]
    exact ⟨hrun, rfl⟩

/-- What an editor sees of the evaluation of a text is the value, in print. -/
lemma run_interactive {argument : Sexp} (h : EditorCall.Names argument text) (host : Host) :
    let x := (EditorCall.evaluateText host text).run
    let shown := (evaluateRequest host (.list [.symbol "swank/interactive-eval", argument])).run
    s.run shown = ((s.run x).1.map fun v => .str ("=> " ++ v.print), (s.run x).2) ∧
      s.requests shown = .currentNamespace :: s.requests x := by
  have hname : EditorCall.fullName "interactive-eval" = "swank/interactive-eval" := by
    decide +kernel
  have heq : evaluateRequest host (.list [.symbol "swank/interactive-eval", argument]) =
      Eval.currentNamespace >>= fun _ => Eval.ofExcept (.ok text) >>= fun text =>
        EditorCall.evaluateText host text >>= fun v => pure (.str ("=> " ++ v.print)) := by
    rw [← hname, evaluateRequest_fullName, ← h.text "interactive-eval"]
    rfl
  have hns : s.run Eval.currentNamespace.run = (.ok s.ns, s) := rfl
  have htext : s.run (Eval.ofExcept (.ok text)).run = (.ok text, s) := rfl
  intro x shown
  unfold shown
  rw [heq, (run_bind_ok hns).1, (run_bind_ok hns).2, (run_bind_ok htext).1, (run_bind_ok htext).2]
  cases hrun : s.run x with
  | mk result t =>
    cases result with
    | ok v =>
      rw [(run_bind_ok hrun).1, (run_bind_ok hrun).2]
      exact ⟨rfl, congrArg (Request.currentNamespace :: ·) (List.append_nil _)⟩
    | error e =>
      rw [(run_bind_error hrun).1, (run_bind_error hrun).2]
      exact ⟨rfl, rfl⟩

end texts

/-- A file with some text is loaded, and the text itself is evaluated, where nobody interrupts. If
one of the two ends, so does the other one. They have the same result, leave the same console up to
the sources of definitions, and have evaluated the same forms in the same order. A text that cannot
be read as a whole is not evaluated at all: the results are the error of the reader, as one of the
file and as one of the text, and the consoles are as before. -/
theorem load_agrees_text (host : Host) (hcalm : s.checksLeft = none)
    (hread : s.files.readText path = .ok text) :
    (∀ forms, parseAll text = .ok forms →
      ((∃ result t asked, s.ComesTo (loading host path) result t asked) ↔
        ∃ result t asked, s.ComesTo (reading host text) result t asked) ∧
      ∀ result t asked result' t' asked', s.ComesTo (loading host path) result t asked →
        s.ComesTo (reading host text) result' t' asked' →
        s.LoadedAsRead path forms result t asked result' t' asked') ∧
    (∀ e, parseAll text = .error e →
      s.ComesTo (loading host path) (.error (.load path (.unreadable e))) s
        [.interrupted, .interrupted, .readText path] ∧
      s.ComesTo (reading host text) (.error (.unreadable e)) s [] ∧
      (LoadFault.unreadable e).message = (EvalError.unreadable e).message) ∧
    ∀ argument depth, EditorCall.Names argument text →
      let x := (reading host text depth).run
      let shown := (evaluateRequest (host.upTo depth)
        (.list [.symbol "swank/interactive-eval", argument])).run
      s.run shown = ((s.run x).1.map fun v => .str ("=> " ++ v.print), (s.run x).2) ∧
        s.requests shown = .currentNamespace :: s.requests x := by
  refine ⟨fun forms hparse => ⟨?_, ?_⟩, fun e hparse => ⟨?_, ?_, rfl⟩,
    fun argument depth hnames => run_interactive hnames _⟩
  · rw [reading_eq hparse]
    constructor
    · rintro ⟨result, t, asked, h⟩
      obtain ⟨inside, -, h⟩ := (comesTo_loading_iff hcalm hread hparse host).1 h
      exact h.follows hcalm (follows_file_text · .nil) fun _ _ => follows_textForms
    · rintro ⟨result, t, asked, h⟩
      obtain ⟨result, t, inside, h⟩ :=
        h.follows hcalm (follows_text_file · .nil) fun _ _ => follows_fileForms
      exact ⟨result, t, _, (comesTo_loading_iff hcalm hread hparse host).2 ⟨inside, rfl, h⟩⟩
  · intro result t asked result' t' asked' hload h'
    rw [reading_eq hparse] at h'
    obtain ⟨inside, rfl, h⟩ := (comesTo_loading_iff hcalm hread hparse host).1 hload
    obtain ⟨hresult, halike, haccord⟩ := h.agree h' hcalm (follows_file_text · .nil)
    refine ⟨hresult, halike, ⟨inside, rfl, haccord⟩, ?_⟩
    obtain ⟨hends, depth, hdepth⟩ := h
    obtain ⟨-, depth', hdepth'⟩ := h'
    refine ⟨max depth depth', fun more hmore => ?_⟩
    obtain ⟨hrun, -⟩ := hdepth more (le_trans (Nat.le_max_left _ _) hmore)
    obtain ⟨hrun', -⟩ := hdepth' more (le_trans (Nat.le_max_right _ _) hmore)
    have hforms : SideBySide (Eval.loadFile more) path .nil s s forms _ _ _ :=
      sideBySide_of_ends (follows_loadFile (le_refl more)) (Alike.refl hcalm)
        (by rw [Ends, hrun]; exact hends)
    rwa [hrun, hrun'] at hforms
  · refine ⟨by simp, 1, fun more hmore => ?_⟩
    obtain ⟨more, rfl⟩ := Nat.exists_eq_add_of_le' hmore
    obtain ⟨hrun, hrequests⟩ := run_loadFile hread more
    simp only [hparse] at hrun hrequests
    rw [(run_loading hcalm host path _).1, (run_loading hcalm host path _).2, hrun, hrequests]
    exact ⟨rfl, rfl⟩
  · refine ⟨by simp, 0, fun more _ => ?_⟩
    unfold reading EditorCall.evaluateText
    rw [hparse]
    exact ⟨rfl, rfl⟩

section chained

/-- A file that defines a name and loads another file. -/
def chainText : String := "(def n 1)\n(load-file \"b.clj\")"

def chainForms : List (Nat × Sexp) :=
  [(1, .list [.symbol "def", .symbol "n", .int 1]),
    (2, .list [.symbol "load-file", .str "b.clj"])]

/-- A file with this text, and the other file. -/
def chain : Script where
  files := {
    nodes := [(["w"], .directory),
      (["w", "a.clj"], .file (Text.Utf8.encode chainText.toList)),
      (["w", "b.clj"], .file (Text.Utf8.encode "(def m n)".toList))],
    workingDirectory := ["w"] }

/-- The text has been evaluated, with this source for its own definition. -/
def chained (source : Option Source) : Script :=
  { chain with
    bindings := (Bindings.define {} "user" "n" ⟨.int 1, none, source⟩).define "user" "m"
      ⟨.int 1, none, some (Source.mk "b.clj" 1)⟩ }

lemma evaluates_chainForms (sourceOf : Nat → Option Source) :
    chain.Evaluates (Eval.evaluateForms (Eval.loadFile 1) sourceOf .nil chainForms)
      (.symbol "#'user/m") (chained (sourceOf 1)) := by
  let known : Script :=
    { chain with bindings := Bindings.define {} "user" "n" ⟨.int 1, none, sourceOf 1⟩ }
  have hother : chain.files.readText "b.clj" = .ok "(def m n)" := by decide +kernel
  have hparse : parseAll "(def m n)" =
      .ok [(1, .list [.symbol "def", .symbol "m", .symbol "n"])] := by decide +kernel
  have hn : known.Evaluates (Eval.evaluateForm (Eval.loadFile 0) (some ⟨"b.clj", 1⟩) (.symbol "n"))
      (.int 1) known := evaluates_symbol.2 ⟨⟨.int 1, none, sourceOf 1⟩, rfl, rfl, rfl⟩
  have hm : known.Evaluates (Eval.loadFile 1 "b.clj") (.symbol "#'user/m")
      (chained (sourceOf 1)) := by
    refine evaluates_loadFile.2 ⟨0, _, _, rfl, hother, hparse, ?_⟩
    refine evaluates_forms_cons.2 ⟨_, _, ?_, evaluates_pure.2 ⟨rfl, rfl⟩⟩
    exact evaluates_definition.2
      ⟨none, .symbol "n", _, _, known, .inl ⟨rfl, rfl⟩, rfl, hn, rfl, rfl⟩
  have hspecial : SpecialForm.ofName? "load-file" = some .loadFile := by decide
  refine evaluates_forms_cons.2 ⟨_, known, evaluates_definition_int rfl "n" 1, ?_⟩
  refine evaluates_forms_cons.2 ⟨_, _, ?_, evaluates_pure.2 ⟨rfl, rfl⟩⟩
  refine (evaluates_special hspecial).2 ⟨known, rfl, ?_⟩
  unfold Eval.evaluateSpecial
  exact evaluates_bind.2 ⟨_, known, (evaluates_self (by simp) (by simp)).2 ⟨rfl, rfl⟩, hm⟩

/-- The file and its text bind the same names to the same values. The name that is defined in the
other file has the same source in both. -/
theorem load_agrees_text_chain : ∃ asked asked',
    chain.ComesTo (loading Interpreted.plainHost "a.clj") (.ok (.symbol "#'user/m"))
      (chained (some ⟨"a.clj", 1⟩)) asked ∧
    chain.ComesTo (reading Interpreted.plainHost chainText) (.ok (.symbol "#'user/m"))
      (chained none) asked' ∧
    chain.LoadedAsRead "a.clj" chainForms (.ok (.symbol "#'user/m"))
      (chained (some ⟨"a.clj", 1⟩)) asked (.ok (.symbol "#'user/m")) (chained none) asked' := by
  have hread : chain.files.readText "a.clj" = .ok chainText := by decide +kernel
  have hparse : parseAll chainText = .ok chainForms := by decide +kernel
  obtain ⟨hforms, -, -⟩ := load_agrees_text Interpreted.plainHost (s := chain) rfl hread
  obtain ⟨-, hagrees⟩ := hforms _ hparse
  have hload : chain.Evaluates (loading Interpreted.plainHost "a.clj" 2) (.symbol "#'user/m")
      (chained (some ⟨"a.clj", 1⟩)) :=
    (run_loading rfl _ _ _).1.trans
      (evaluates_loadFile.2 ⟨1, _, _, rfl, hread, hparse, evaluates_chainForms _⟩)
  have htext : chain.Evaluates (reading Interpreted.plainHost chainText 1) (.symbol "#'user/m")
      (chained none) := by
    rw [reading_eq hparse]
    exact evaluates_chainForms _
  have hload := comesTo_of_run (fun _ _ => follows_loading) rfl hload (by simp)
  have htext := comesTo_of_run (fun _ _ => follows_reading) rfl htext (by simp)
  exact ⟨_, _, hload, htext, hagrees _ _ _ _ _ _ hload htext⟩

end chained

end Script

end EvalServer
