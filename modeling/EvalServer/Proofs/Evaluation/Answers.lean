import EvalServer.Proofs.Evaluation.Values
import EvalServer.Proofs.Sexp.Recognition

/-!
# Answers on the wire

`Interpreted` is a history of evaluations on one interpreter. What is stored stays legible from one
evaluation to the next, so the answer of each is a legible message, and whether the reader accepts
it depends on its depth alone.
-/

namespace EvalServer

open Sexp

namespace Bindings

variable {V : Sexp → Prop} {b : Bindings}

lemma hold_empty : Bindings.Hold V {} := by
  intro ns name d h
  cases h

lemma Hold.define (hb : b.Hold V) (ns name : String) {d : Definition} (hd : V d.value) :
    (b.define ns name d).Hold V := by
  intro ns' name' d' h
  rw [find?_define] at h
  split at h
  · cases h
    exact hd
  · exact hb ns' name' d' h

lemma Hold.openNamespace (hb : b.Hold V) (ns : String) : (b.openNamespace ns).Hold V := by
  intro ns' name d h
  rw [find?_openNamespace] at h
  exact hb ns' name d h

end Bindings

/-- An interpreter gives the replies that a computation relies on, and stores what it is given. -/
lemma Request.Allowed.storing {V : Sexp → Prop} {b b' : Bindings} {ns ns' : String} {r : Request}
    {reply : r.Reply} (h : r.Allowed b ns reply b' ns') (hb : b.Hold V)
    (hasks : (Contract.storing V).asks r) (hmade : ∀ name ∈ r.makes, V (.symbol name)) :
    (Contract.storing V).gets r reply ∧ b'.Hold V := by
  refine ⟨⟨hmade, ?_⟩, ?_⟩
  · cases r with
    | bindings =>
      obtain ⟨rfl, -, -⟩ := h
      exact hb
    | _ => trivial
  · cases r with
    | define dest name d =>
      obtain ⟨rfl, -⟩ := h
      exact hb.define dest name hasks
    | openNamespace dest =>
      obtain ⟨rfl, -⟩ := h
      exact hb.openNamespace dest
    | bindings | currentNamespace =>
      obtain ⟨-, rfl, -⟩ := h
      exact hb
    | interrupted | enterNamespace _ | readText _ | isFile _ | writeOutput _ | writeResult _ | ask _
      | debug _ _ | requestQuit | rest _ =>
      obtain ⟨rfl, -⟩ := h
      exact hb

/-- Forms of texts, evaluated one after another on one interpreter, each in a namespace and for a
connection of its own: the bindings after them, the names they made and their results. -/
inductive Interpreted : Bindings → List String → List (Except EvalError Sexp) → Prop
  | start : Interpreted {} [] []
  | evaluate {b b' : Bindings} {made more : List String} {results : List (Except EvalError Sexp)}
      {result : Except EvalError Sexp} (host : Host) (ns : String) {text : String} {form : Sexp} :
      Interpreted b made results → parse text = .ok form →
      Computation.Runs b ns (evaluateRequest host form).run more result b' →
      Interpreted b' (made ++ more) (results ++ [result])

namespace Interpreted

variable {b : Bindings} {made : List String} {results : List (Except EvalError Sexp)}

/-- If the names that were made read as symbols, all that is stored and answered is legible. -/
theorem legible (h : Interpreted b made results) (hmade : ∀ name ∈ made, IsSymbol name.toList) :
    b.Hold Sexp.Legible ∧ ∀ v, .ok v ∈ results → v.Legible := by
  induction h with
  | start => exact ⟨Bindings.hold_empty, by simp⟩
  | evaluate host ns _ hparse hrun ih =>
    obtain ⟨hbefore, hmore⟩ := List.forall_mem_append.1 hmade
    obtain ⟨hb, hresults⟩ := ih hbefore
    have hform := (readable_of_parse hparse).2
    obtain ⟨hvalue, hb'⟩ := Computation.Meets.runs (gives_evaluateRequest host hform)
      (fun hb hasks hallowed hgood => hallowed.storing hb hasks hgood) hrun hb hmore
    refine ⟨hb', fun v hv => ?_⟩
    rcases List.mem_append.1 hv with hv | hv
    · exact hresults v hv
    · exact hvalue v (List.mem_singleton.1 hv).symm

/-- The message with the value of a request. -/
def answer (v : Sexp) (id : Int64) : Sexp :=
  (ServerEvent.return (.ok v) id).toSexp

lemma nesting_answer (v : Sexp) (id : Int64) : (answer v id).nesting = v.nesting + 2 := by
  simp [answer, ServerEvent.toSexp, ServerEvent.tagged, Status.toSexp, nesting, nestingAll]

lemma legible_answer {v : Sexp} (id : Int64) : (answer v id).Legible ↔ v.Legible := by
  have hkeys : (Sexp.keyword "return").Legible ∧ (Sexp.keyword "ok").Legible :=
    ⟨legible_keyword (by decide), legible_keyword (by decide)⟩
  constructor
  · rintro ⟨-, ⟨-, hv, -⟩, -⟩
    exact hv
  · exact fun hv => ⟨hkeys.1, ⟨hkeys.2, hv, trivial⟩, trivial, trivial⟩

/-- The answer of every evaluation is read back as the message it is, unless its value is nested
too deep for a message. -/
theorem parse_answer (h : Interpreted b made results)
    (hmade : ∀ name ∈ made, IsSymbol name.toList) {v : Sexp} (hv : .ok v ∈ results) (id : Int64) :
    parse (answer v id).print = .ok (answer v id) ↔ v.nesting + 2 ≤ maxDepth := by
  have hlegible : (answer v id).Legible := (legible_answer id).2 ((h.legible hmade).2 v hv)
  rw [← nesting_answer v id]
  exact ⟨fun hparse => (readable_of_parse hparse).1, fun hdepth => parse_print ⟨hdepth, hlegible⟩⟩

/-! ## Three requests -/

section requests

variable (host : Host) (b : Bindings) (ns : String)

lemma runs_checked {b' : Bindings} {f : Unit → Eval Sexp} {result : Except EvalError Sexp}
    (h : (f ()).run.Runs b ns made result b') :
    (Eval.checkInterrupt >>= f).run.Runs b ns made result b' := by
  have hcalm : Request.Allowed b ns .interrupted false b ns := ⟨rfl, rfl⟩
  exact .step hcalm h

lemma evaluateRequest_special {name : String} {special : SpecialForm} (arguments : List Sexp)
    (hcall : name.startsWith (EditorCall.package ++ "/") = false)
    (hname : SpecialForm.ofName? name = some special) :
    evaluateRequest host (.list (.symbol name :: arguments)) =
      Eval.checkInterrupt >>= fun _ =>
        Eval.evaluateSpecial (Eval.loadFile host.loadDepth) none special arguments := by
  have hother : EditorCall.ofSexp? (.list (.symbol name :: arguments)) = none := by
    simp [EditorCall.ofSexp?, items?, hcall]
  rw [evaluateRequest, hother]
  simp only [Eval.evaluate]
  unfold Eval.evaluateForm
  simp only [hname]

lemma evaluateForm_self {v : Sexp} (hv : (∃ n, v = .int n) ∨ ∃ text, v = .str text)
    (load : String → Eval Sexp) (source : Option Source) (f : Sexp → Eval Sexp) :
    Eval.evaluateForm load source v >>= f = Eval.checkInterrupt >>= fun _ => f v := by
  rcases hv with ⟨n, rfl⟩ | ⟨text, rfl⟩ <;>
  · unfold Eval.evaluateForm
    simp only [bind_assoc, pure_bind]

lemma runs_quote (v : Sexp) : (evaluateRequest host (.list [.symbol "quote", v])).run.Runs b ns []
    (.ok v) b := by
  have hname : SpecialForm.ofName? "quote" = some .quote := by decide
  rw [evaluateRequest_special host [v] (by decide +kernel) hname]
  refine runs_checked b ns ?_
  unfold Eval.evaluateSpecial
  exact .done b ns _

lemma runs_define (name : String) (n : Int64) :
    (evaluateRequest host (.list [.symbol "def", .symbol name, .int n])).run.Runs b ns
      ["#'" ++ ns ++ "/" ++ name] (.ok (.symbol ("#'" ++ ns ++ "/" ++ name)))
      (b.define ns name ⟨.int n, none, none⟩) := by
  have hspecial : SpecialForm.ofName? "def" = some .define := by decide
  have hns : Request.Allowed b ns .currentNamespace ns b ns := ⟨rfl, rfl, rfl⟩
  have hdefine : Request.Allowed b ns (.define ns name ⟨.int n, none, none⟩) ()
      (b.define ns name ⟨.int n, none, none⟩) ns := ⟨rfl, rfl⟩
  rw [evaluateRequest_special host _ (by decide +kernel) hspecial]
  refine runs_checked b ns ?_
  unfold Eval.evaluateSpecial
  simp only
  rw [evaluateForm_self (.inl ⟨n, rfl⟩)]
  refine runs_checked b ns (.step hns ?_)
  refine .step hdefine ?_
  exact .done _ ns _

lemma runs_enter (dest : String) :
    (evaluateRequest host (.list [.symbol "in-ns", .str dest])).run.Runs b ns
      [dest] (.ok (.symbol dest)) (b.openNamespace dest) := by
  have hname : SpecialForm.ofName? "in-ns" = some .inNamespace := by decide
  have hopen : Request.Allowed b ns (.openNamespace dest) () (b.openNamespace dest) ns := ⟨rfl, rfl⟩
  have henter : Request.Allowed (b.openNamespace dest) ns (.enterNamespace dest) ()
      (b.openNamespace dest) dest := ⟨rfl, rfl⟩
  rw [evaluateRequest_special host _ (by decide +kernel) hname]
  refine runs_checked b ns ?_
  unfold Eval.evaluateSpecial
  rw [evaluateForm_self (.inr ⟨dest, rfl⟩)]
  refine runs_checked b ns (.step hopen ?_)
  refine .step henter ?_
  exact .done _ dest _

end requests

/-- A connection that evaluates in the background. -/
def plainHost : Host where
  processId := "1"
  workingDirectory := "/"
  sourcePaths := []
  style := .spawn
  coding := .utf8
  loadDepth := 1

/-- A definition and the namespace of the next request are both answered with their names. -/
theorem parse_answer_named :
    Interpreted (Bindings.define {} "user" "x" ⟨.int 1, none, none⟩ |>.openNamespace "lib")
      ["#'user/x", "lib"] [.ok (.symbol "#'user/x"), .ok (.symbol "lib")] ∧
    parse (answer (.symbol "#'user/x") 1).print = .ok (answer (.symbol "#'user/x") 1) := by
  have hnames : ∀ name ∈ ["#'user/x", "lib"], IsSymbol name.toList := by
    have hplain : ∀ name ∈ ["#'user/x", "lib"], name.toList.all (!Token.isDelimiter ·) = true := by
      decide
    intro name hname
    refine ⟨⟨?_, Token.plain_of_all (hplain name hname), ?_⟩, ?_, ?_, ?_, ?_⟩ <;>
      rcases List.mem_pair.1 hname with rfl | rfl <;> first | decide | simp
  have hdefine : parse "(def x 1)" = .ok (.list [.symbol "def", .symbol "x", .int 1]) := by
    decide +kernel
  have henter : parse "(in-ns \"lib\")" = .ok (.list [.symbol "in-ns", .str "lib"]) := by
    decide +kernel
  have hsymbol : "#'" ++ "user" ++ "/" ++ "x" = "#'user/x" := by decide
  have hfirst := runs_define plainHost {} "user" "x" 1
  rw [hsymbol] at hfirst
  have hhistory := (Interpreted.start.evaluate plainHost "user" hdefine hfirst).evaluate plainHost
    "user" henter (runs_enter _ _ _ "lib")
  exact ⟨hhistory, (parse_answer hhistory hnames (by decide) 1).2 (by decide)⟩

/-- A value that is as deep as a request can make it is too deep for its answer, and a namespace
whose name has a space is answered as two symbols. -/
theorem answer_unreadable :
    (∃ b, Interpreted b [] [.ok (nested 254)] ∧
      parse (answer (nested 254) 1).print ≠ .ok (answer (nested 254) 1)) ∧
    ∃ b, Interpreted b ["a b"] [.ok (.symbol "a b")] ∧
      parse (answer (.symbol "a b") 1).print ≠ .ok (answer (.symbol "a b") 1) := by
  constructor
  · have hform : (Sexp.list [.symbol "quote", nested 254]).Readable := by
      refine ⟨?_, isSymbol_quote, legible_nested 254, trivial⟩
      simp only [nesting, nestingAll, nesting_nested]
      decide
    refine ⟨{}, .evaluate plainHost "user" .start (parse_print hform) (runs_quote _ _ _ _), ?_⟩
    intro h
    have hdepth := (readable_of_parse h).1
    rw [nesting_answer, nesting_nested] at hdepth
    exact absurd hdepth (by decide)
  · have henter : parse "(in-ns \"a b\")" = .ok (.list [.symbol "in-ns", .str "a b"]) := by
      decide +kernel
    exact ⟨_, .evaluate plainHost "user" .start henter (runs_enter _ _ _ "a b"), by decide +kernel⟩

end Interpreted

end EvalServer
