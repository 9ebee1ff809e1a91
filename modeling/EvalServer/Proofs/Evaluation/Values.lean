import EvalServer.Proofs.Evaluation.Contract
import EvalServer.Proofs.Sexp.RoundTrip

/-!
# The values of evaluations

The evaluator makes values of forms, of stored values, of texts and numbers, and it makes two kinds
of symbol of other names. So a property that legible values have, and lists of values that have it,
goes from the forms and the made symbols to every value that is stored or ends an evaluation.
-/

namespace EvalServer

namespace Sexp

/-- A property that legible values have, and lists exactly if all their items do. -/
class Hereditary (V : Sexp → Prop) : Prop where
  of_legible : ∀ v : Sexp, v.Legible → V v
  list_iff : ∀ items : List Sexp, V (.list items) ↔ ∀ v ∈ items, V v

instance : Hereditary Legible := ⟨fun _ hv => hv, fun _ => legibleAll_iff⟩

instance : Hereditary fun _ => True := ⟨fun _ _ => trivial, fun _ => by simp⟩

lemma legible_keyword {name : String}
    (h : name.toList ≠ [] ∧ name.toList.all (!Token.isDelimiter ·) = true) :
    (Sexp.keyword name).Legible :=
  ⟨h.1, Token.plain_of_all h.2⟩

lemma legible_ofBool (b : Bool) : (ofBool b).Legible := by
  cases b <;> trivial

section hereditary

variable {V : Sexp → Prop} [Hereditary V]

lemma Legible.holds {v : Sexp} (hv : v.Legible) : V v :=
  Hereditary.of_legible v hv

lemma Readable.holds {v : Sexp} (hv : v.Readable) : V v :=
  hv.2.holds

lemma holds_nil : V .nil :=
  Legible.holds trivial

lemma holds_str (text : String) : V (.str text) :=
  Legible.holds trivial

lemma holds_items {v : Sexp} (hv : V v) {items : List Sexp} (h : v.items? = some items) :
    ∀ v ∈ items, V v := by
  cases v with
  | list items' =>
    cases h
    exact (Hereditary.list_iff items).1 hv
  | nil =>
    cases h
    simp
  | t | int _ | str _ | symbol _ | keyword _ => cases h

end hereditary

end Sexp

open Sexp

/-- Every definition has a value with the property. -/
def Bindings.Hold (V : Sexp → Prop) (b : Bindings) : Prop :=
  ∀ ns name d, b.find? ns name = some d → V d.value

/-- Only values with the property are stored, and stored values and made symbols have it. -/
def Contract.storing (V : Sexp → Prop) : Contract where
  asks
    | .define _ _ d => V d.value
    | _ => True
  gets r reply := (∀ name ∈ r.makes, V (.symbol name)) ∧
    match r, reply with
    | .bindings, (b : Bindings) => b.Hold V
    | _, _ => True

lemma Contract.gets_anything (r : Request) (reply : r.Reply) :
    (Contract.storing fun _ => True).gets r reply := by
  refine ⟨fun _ _ => trivial, ?_⟩
  cases r with
  | bindings => exact fun _ _ _ _ => trivial
  | _ => trivial

variable {V : Sexp → Prop}

/-! ## Functions on values -/

namespace Arithmetic

variable {v : Sexp} {args : List Sexp}

lemma legible_checked {result : Option Int64} (h : checked result = .ok v) : v.Legible := by
  cases result with
  | none => cases h
  | some n =>
    cases h
    trivial

lemma legible_quotient {n : Int64} {divisors : List Int64} (h : quotient n divisors = .ok v) :
    v.Legible := by
  induction divisors generalizing n with
  | nil =>
    cases h
    trivial
  | cons d rest ih =>
    unfold quotient at h
    split at h
    · cases h
    · split at h
      · exact ih h
      · cases h

lemma legible_compare {operator : String} {related : Int64 → Int64 → Bool}
    (h : compare operator related args = .ok v) : v.Legible := by
  unfold compare at h
  split at h
  · cases h
  · cases hints : integers operator args with
    | error e =>
      rw [hints] at h
      cases h
    | ok ns =>
      rw [hints] at h
      cases h
      exact legible_ofBool _

lemma holds_unary {operator : String} {f : Sexp → Except EvalError Sexp}
    (hf : ∀ argument ∈ args, ∀ v, f argument = .ok v → V v)
    (h : unary operator f args = .ok v) : V v := by
  unfold unary at h
  split at h
  · exact hf _ (List.mem_singleton.2 rfl) v h
  · cases h

lemma legible_unaryInteger {operator : String} {f : Int64 → Option Int64}
    (h : unaryInteger operator f args = .ok v) : v.Legible := by
  refine holds_unary (V := Legible) (fun argument _ v hv => ?_) h
  split at hv
  · exact legible_checked hv
  · cases hv

lemma holds_onItems [Hereditary V] {operator : String} {f : List Sexp → Sexp} {argument : Sexp}
    (hargument : V argument) (hf : ∀ items : List Sexp, (∀ v ∈ items, V v) → V (f items))
    (h : onItems operator f argument = .ok v) : V v := by
  unfold onItems at h
  split at h
  · next items hitems =>
    cases h
    exact hf items (holds_items hargument hitems)
  · cases h

lemma legible_countOf {argument : Sexp} (h : countOf argument = .ok v) : v.Legible := by
  unfold countOf at h
  split at h
  · cases h
    trivial
  · split at h
    · cases h
      trivial
    · cases h

lemma legible_bind_integers {operator : String} {f : List Int64 → Option Int64}
    (h : (integers operator args).bind (fun ns => checked (f ns)) = .ok v) : v.Legible := by
  cases hints : integers operator args with
  | error e =>
    rw [hints] at h
    cases h
  | ok ns =>
    rw [hints] at h
    exact legible_checked h

lemma legible_difference (h : difference args = .ok v) : v.Legible := by
  unfold difference at h
  split at h
  · cases h
  · cases h
  · exact legible_checked h
  · exact legible_checked h

lemma legible_division (h : division args = .ok v) : v.Legible := by
  unfold division at h
  split at h
  · cases h
  · cases h
  · exact legible_quotient h
  · exact legible_quotient h

end Arithmetic

open Arithmetic in
/-- The property goes from the arguments of a function to its value. -/
theorem Builtin.holds_compute [Hereditary V] {b : Builtin} {f : List Sexp → Except EvalError Sexp}
    (hf : b.compute? = some f) {args : List Sexp} (hargs : ∀ v ∈ args, V v) {v : Sexp}
    (h : f args = .ok v) : V v := by
  cases b with
  | add | multiply =>
    cases hf
    exact (legible_bind_integers h).holds
  | subtract =>
    cases hf
    exact (legible_difference h).holds
  | divide =>
    cases hf
    exact (legible_division h).holds
  | equal =>
    cases hf
    cases args with
    | nil => cases h
    | cons a others =>
      cases h
      exact (legible_ofBool _).holds
  | less | greater | lessOrEqual | greaterOrEqual =>
    cases hf
    exact (legible_compare h).holds
  | increment | decrement =>
    cases hf
    exact (legible_unaryInteger h).holds
  | not =>
    cases hf
    refine holds_unary (fun _ _ v hv => ?_) h
    cases hv
    exact (legible_ofBool _).holds
  | str =>
    cases hf
    cases h
    exact holds_str _
  | list =>
    cases hf
    cases h
    exact (Hereditary.list_iff args).2 hargs
  | count =>
    cases hf
    exact holds_unary (fun _ _ _ hv => (legible_countOf hv).holds) h
  | first =>
    cases hf
    refine holds_unary (fun argument hargument _ => holds_onItems (hargs _ hargument) ?_) h
    intro items hitems
    cases items with
    | nil => exact holds_nil
    | cons v items => exact hitems v List.mem_cons_self
  | rest =>
    cases hf
    refine holds_unary (fun argument hargument _ => holds_onItems (hargs _ hargument) ?_) h
    intro items hitems
    exact (Hereditary.list_iff _).2 fun v hv => hitems v (List.mem_of_mem_tail hv)
  | println | print | readLine | yesOrNo | sleep | doc => cases hf

/-! ## Forms -/

namespace Eval

/-- The computation ends in a value with the property, if in any. -/
abbrev Gives (V : Sexp → Prop) (e : Eval Sexp) : Prop :=
  e.Meets (.storing V) V

/-- A request that stores nothing and is no check point. -/
lemma meets_harmless {r : Request}
    (h : r ≠ .interrupted ∧ ∀ ns name d, r ≠ .define ns name d) :
    (request r).Meets (.storing V) ((Contract.storing V).gets r) := by
  refine meets_request ?_ h.1
  cases r with
  | define ns name d => exact absurd rfl (h.2 ns name d)
  | _ => trivial

lemma meets_check : checkInterrupt.Meets (.storing V) fun _ => True :=
  meets_checkInterrupt trivial

lemma gives_ask (question : Question) {f : question.Answer → Eval Sexp}
    (hf : ∀ answer, (f answer).Gives V) : (ask question >>= f).Gives V := by
  have hask : (ask question).Meets (.storing V) fun _ => True := meets_ask trivial
  exact hask.bind fun answer _ => hf answer

lemma meets_currentNamespace : currentNamespace.Meets (.storing V) fun _ => True :=
  (meets_harmless (r := .currentNamespace) (by simp)).bind fun _ _ => meets_pure trivial

lemma meets_bindings : bindings.Meets (.storing V) (Bindings.Hold V) :=
  (meets_harmless (r := .bindings) (by simp)).bind fun _ hb => meets_pure hb.2

lemma gives_lookup (name : String) : (lookup name).Gives V := by
  refine meets_currentNamespace.bind fun ns _ => meets_bindings.bind fun b hb => ?_
  cases hfind : Bindings.resolve? b name ns with
  | some d => exact meets_pure (hb _ _ d hfind)
  | none => exact meets_throw _

lemma gives_define (name : String) (doc : Option String) (source : Option Source) {value : Sexp}
    (hvalue : V value) : (define name doc source value).Gives V := by
  refine meets_currentNamespace.bind fun ns _ => ?_
  have hstore : (request (.define ns name ⟨value, doc, source⟩)).Meets (.storing V)
      ((Contract.storing V).gets _) :=
    meets_request hvalue (by simp)
  exact hstore.bind fun _ hreply => meets_pure (hreply.1 _ List.mem_cons_self)

lemma gives_enterNamespace (value : Sexp) : (enterNamespace value).Gives V := by
  have henter : ∀ name : String, (do
      let _ : Unit ← request (.openNamespace name)
      let _ : Unit ← request (.enterNamespace name)
      return Sexp.symbol name : Eval Sexp).Gives V := by
    intro name
    refine (meets_harmless (r := .openNamespace name) (by simp)).bind fun _ hopen => ?_
    refine (meets_harmless (r := .enterNamespace name) (by simp)).bind fun _ _ => ?_
    exact meets_pure (hopen.1 _ List.mem_cons_self)
  cases value with
  | symbol name | str name => exact henter name
  | nil | t | int _ | keyword _ | list _ => exact meets_throw _

variable {load : String → Eval Sexp}

variable [Hereditary V]

lemma gives_writeOutput (text : String) : (do
    writeOutput text
    return Sexp.nil : Eval Sexp).Gives V :=
  (meets_harmless (r := .writeOutput text) (by simp)).bind fun _ _ => meets_pure holds_nil

lemma gives_applyBuiltin (b : Builtin) {arguments : List Sexp} (hargs : ∀ v ∈ arguments, V v) :
    (applyBuiltin b arguments).Gives V := by
  unfold applyBuiltin
  split
  · next f hf => exact meets_ofExcept fun v hv => b.holds_compute hf hargs hv
  · split
    · exact gives_writeOutput _
    · exact gives_writeOutput _
    · split
      · exact gives_ask .line fun line => meets_pure (holds_str _)
      · exact meets_throw _
    · exact meets_unary _ (fun v => gives_ask (.yesOrNo v.display) fun yes =>
        meets_pure (legible_ofBool yes).holds) _
    · refine meets_unary _ (fun v => ?_) _
      split
      · exact (meets_sleep trivial (fun _ => trivial) _).bind fun _ _ => meets_pure holds_nil
      · exact meets_throw _
    · refine meets_unary _ (fun v => ?_) _
      refine meets_currentNamespace.bind fun ns _ => meets_bindings.bind fun known _ => ?_
      refine meets_pure ?_
      cases known.documentation? v.display ns with
      | none => exact holds_nil
      | some doc => exact holds_str doc

lemma gives_apply (name : String) {arguments : List Sexp} (hargs : ∀ v ∈ arguments, V v) :
    (apply name arguments).Gives V := by
  unfold apply
  split
  · exact gives_applyBuiltin _ hargs
  · exact (gives_lookup name).bind fun _ _ => meets_throw _

lemma gives_evaluateSpecial (hload : ∀ path, (load path).Gives V) {source : Option Source}
    (special : SpecialForm) {arguments : List Sexp} (hargs : ∀ v ∈ arguments, V v)
    (hforms : ∀ form ∈ arguments, (evaluateForm load source form).Gives V) :
    (evaluateSpecial load source special arguments).Gives V := by
  unfold evaluateSpecial
  split
  · exact meets_pure (hargs _ List.mem_cons_self)
  · next name form =>
    split
    · exact (hforms form (by simp)).bind fun value hvalue => gives_define _ _ _ hvalue
    · exact meets_throw _
  · next name doc form =>
    split
    · exact (hforms form (by simp)).bind fun value hvalue => gives_define _ _ _ hvalue
    · exact meets_throw _
  · exact meets_evaluateBody hforms holds_nil
  · next test consequence =>
    refine (hforms test (by simp)).bind fun value _ => ?_
    split
    · exact hforms consequence (by simp)
    · exact meets_pure holds_nil
  · next test consequence alternative =>
    refine (hforms test (by simp)).bind fun value _ => ?_
    split
    · exact hforms consequence (by simp)
    · exact hforms alternative (by simp)
  · next form => exact (hforms form (by simp)).bind fun value _ => gives_enterNamespace value
  · next form => exact (hforms form (by simp)).bind fun value _ => meets_throw _
  · next form =>
    refine (hforms form (by simp)).bind fun path _ => ?_
    split
    · exact hload _
    · exact meets_throw _
  · exact meets_throw _

/-- The property goes from a form to its value. -/
theorem gives_evaluateForm (hload : ∀ path, (load path).Gives V) : ∀ form : Sexp, V form →
    ∀ source, (evaluateForm load source form).Gives V
  | .symbol name, _, source => by
    unfold evaluateForm
    exact meets_check.bind fun _ _ => gives_lookup name
  | .list (head :: arguments), hform, source => by
    have hargs := (List.forall_mem_cons.1 ((Hereditary.list_iff _).1 hform)).2
    -- special forms and calls evaluate nothing but arguments, which are smaller than the form
    have hforms : ∀ form ∈ arguments, (evaluateForm load source form).Gives V := fun form hmem =>
      gives_evaluateForm hload form (hargs form hmem) source
    unfold evaluateForm
    refine meets_check.bind fun _ _ => ?_
    split
    · next name =>
      split
      · next special _ => exact gives_evaluateSpecial hload special hargs hforms
      · refine (meets_evaluateAll hforms (by simp)).bind fun values hvalues => ?_
        exact gives_apply name hvalues
    · exact meets_throw _
  | .list [], hform, _ | .nil, hform, _ | .t, hform, _ | .int _, hform, _ | .str _, hform, _
  | .keyword _, hform, _ => by
    unfold evaluateForm
    exact meets_check.bind fun _ _ => meets_pure hform

/-! ## Files and texts -/

lemma gives_evaluateTexts (hload : ∀ path, (load path).Gives V)
    (sourceOf : Nat → Option Source) {last : Sexp} (hlast : V last)
    {forms : List (Nat × Sexp)} (hforms : ∀ p ∈ forms, p.2.Readable) :
    (evaluateForms load sourceOf last forms).Gives V := by
  induction forms generalizing last with
  | nil =>
    rw [evaluateForms]
    exact meets_pure hlast
  | cons p rest ih =>
    obtain ⟨hform, hrest⟩ := List.forall_mem_cons.1 hforms
    rw [evaluateForms]
    exact (gives_evaluateForm hload _ hform.holds _).bind fun value hvalue => ih hvalue hrest

lemma gives_loadFile (depth : Nat) (path : String) : (loadFile depth path).Gives V := by
  induction depth generalizing path with
  | zero => exact meets_throw _
  | succ depth ih =>
    rw [loadFile]
    refine (meets_harmless (r := .readText path) (by simp)).bind fun contents _ => ?_
    cases (contents : Except FileError String) with
    | error e => exact meets_throw _
    | ok text =>
      cases hparse : parseAll text with
      | error e => simp only [hparse]; exact meets_throw _
      | ok forms =>
        simp only [hparse]
        exact gives_evaluateTexts ih _ holds_nil (readable_of_parseAll hparse)

lemma gives_evaluate (depth : Nat) {form : Sexp} (hform : V form) :
    (evaluate depth form).Gives V :=
  gives_evaluateForm (gives_loadFile depth) form hform none

end Eval

/-! ## Editor calls -/

namespace EditorCall

open Eval

lemma meets_firstFile (paths : List String) :
    (firstFile paths).Meets (.storing V) fun _ => True := by
  induction paths with
  | nil => exact meets_pure trivial
  | cons path rest ih =>
    refine (meets_harmless (r := .isFile path) (by simp)).bind fun found _ => ?_
    cases (found : Bool) with
    | true => exact meets_pure trivial
    | false => exact ih

lemma meets_locate (host : Host) (name ns : String) :
    (locate host name ns).Meets (.storing V) fun _ => True := by
  refine meets_bindings.bind fun known _ => ?_
  split
  · exact meets_pure trivial
  · exact (meets_firstFile _).bind fun path _ => meets_pure trivial

variable [Hereditary V]

lemma gives_evaluateText (host : Host) (text : String) : (evaluateText host text).Gives V := by
  unfold evaluateText
  split
  · exact meets_throw _
  · next forms hparse =>
    exact gives_evaluateTexts (gives_loadFile _) _ holds_nil (readable_of_parseAll hparse)

lemma isSymbol_loadFile : IsSymbol SpecialForm.loadFile.name.toList where
  ne_nil := by decide
  plain := Token.plain_of_all (by decide)
  unquoted := by simp [SpecialForm.name]
  not_nil := by decide
  not_t := by decide
  not_keyword := by simp [SpecialForm.name]
  not_int := by decide

lemma legible_connectionInfo (host : Host) (ns : String) : (connectionInfo host ns).Legible := by
  have hkeys : ∀ name ∈ ["pid", "style", "encoding", "coding-systems", "lisp-implementation",
      "type", "name", "version", "package", "prompt"], (Sexp.keyword name).Legible := by
    intro name hname
    refine legible_keyword ?_
    revert name
    decide
  simp only [List.forall_mem_cons] at hkeys
  obtain ⟨hpid, hstyle, hencoding, hsystems, himplementation, htype, hname, hversion, hpackage,
    hprompt, -⟩ := hkeys
  refine ⟨hpid, trivial, hstyle, ?_, hencoding, ⟨hsystems, ⟨trivial, trivial⟩, trivial⟩,
    himplementation, ⟨htype, trivial, hname, trivial, hversion, trivial, trivial⟩, hpackage,
    ⟨hname, trivial, hprompt, trivial, trivial⟩, hversion, trivial, trivial⟩
  cases host.style with
  | spawn => exact legible_keyword (by decide)
  | inline => trivial

lemma gives_definitions (host : Host) (name ns : String) : (definitions host name ns).Gives V := by
  have hkeys : (Sexp.keyword "location").Legible ∧ (Sexp.keyword "file").Legible ∧
      (Sexp.keyword "line").Legible ∧ (Sexp.keyword "error").Legible :=
    ⟨legible_keyword (by decide), legible_keyword (by decide), legible_keyword (by decide),
      legible_keyword (by decide)⟩
  obtain ⟨hlocation, hfile, hline, herror⟩ := hkeys
  refine (meets_locate host name ns).bind fun found _ => ?_
  have hentry : ∀ items : List Sexp, LegibleAll items →
      V (.list [.list [.str name, .list items]]) :=
    fun items h => Legible.holds ⟨⟨trivial, h, trivial⟩, trivial⟩
  cases found with
  | none => exact meets_pure (hentry _ ⟨herror, trivial, trivial⟩)
  | some place => exact meets_pure (hentry _ ⟨hlocation, ⟨hfile, trivial, trivial⟩,
      ⟨hline, trivial, trivial⟩, trivial, trivial⟩)

lemma legible_completions (known : Bindings) (start ns : String) :
    (completions known start ns).Legible := by
  have hnames : ∀ texts : List String, (Sexp.list (texts.map .str)).Legible := by
    intro texts
    refine legibleAll_iff.2 fun v hv => ?_
    obtain ⟨text, -, rfl⟩ := List.mem_map.1 hv
    trivial
  exact ⟨hnames _, trivial, trivial⟩

/-- An editor call of any operation gives a value with the property. -/
theorem gives_run (host : Host) (operation : String) (arguments : List Sexp) :
    (run host operation arguments).Gives V := by
  have htext : ∀ index, (ofExcept (textArgument operation arguments index)).Meets (.storing V)
      fun _ => True := fun _ _ _ => trivial
  unfold run
  refine meets_currentNamespace.bind fun ns _ => ?_
  split
  · exact meets_pure (legible_connectionInfo host ns).holds
  · have hnames : (Sexp.list [.str ns, .str ns]).Legible := ⟨trivial, trivial, trivial⟩
    exact meets_pure hnames.holds
  · refine (htext 0).bind fun text _ => (gives_evaluateText host text).bind fun value _ => ?_
    exact meets_pure (holds_str _)
  · refine (htext 0).bind fun text _ => (gives_evaluateText host text).bind fun value _ => ?_
    exact (meets_harmless (r := .writeResult _) (by simp)).bind fun _ _ => meets_pure holds_nil
  · refine (htext 0).bind fun start _ => meets_bindings.bind fun known _ => ?_
    exact meets_pure (legible_completions known start _).holds
  · refine (htext 0).bind fun name _ => meets_bindings.bind fun known _ => meets_pure ?_
    cases (known.describe? name _).bind NameInfo.argumentList with
    | none => exact holds_nil
    | some text => exact holds_str text
  · refine (htext 0).bind fun name _ => meets_bindings.bind fun known _ => ?_
    exact meets_pure (holds_str _)
  · exact (htext 0).bind fun name _ => gives_definitions host name ns
  · have hsymbol : (Sexp.symbol SpecialForm.loadFile.name).Legible := isSymbol_loadFile
    refine (htext 0).bind fun path _ => gives_evaluate _ (Legible.holds ?_)
    exact ⟨hsymbol, trivial, trivial⟩
  · exact meets_pure (holds_str _)
  · exact meets_pure holds_nil
  · exact (meets_harmless (r := .requestQuit) (by simp)).bind fun _ _ => meets_pure holds_nil
  · exact meets_throw _

end EditorCall

/-- The property goes from a request to its value, whatever the request asks for. -/
theorem gives_evaluateRequest [Hereditary V] (host : Host) {form : Sexp} (hform : V form) :
    (evaluateRequest host form).Gives V := by
  unfold evaluateRequest
  split
  · exact EditorCall.gives_run host _ _
  · exact Eval.gives_evaluate _ hform

end EvalServer
