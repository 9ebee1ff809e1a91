import EvalServer.Proofs.Evaluation.Answers
import EvalServer.Proofs.Evaluation.Attribution
import Mathlib

/-!
# What evaluations leave of definitions

Definitions are added and replaced, and never removed. At every point of an evaluation an entry is
the one that the last completed definition of its name has made, or the one that was there from the
start; and the current namespace is the one that the last completed change of namespace has entered,
or the first one. So a definition that fails has no effect but that of its form.
-/

namespace EvalServer

namespace Bindings

variable {b b' b'' : Bindings}

/-- There is a namespace of this name. -/
def Has (b : Bindings) (ns : String) : Prop :=
  (b.namespaces.lookup ns).isSome = true

/-- Every namespace is still there, and every name that was bound in it is still bound. -/
structure Grows (b b' : Bindings) : Prop where
  has : ∀ ns, b.Has ns → b'.Has ns
  bound : ∀ ns name, (b.find? ns name).isSome = true → (b'.find? ns name).isSome = true

lemma Grows.refl (b : Bindings) : b.Grows b :=
  ⟨fun _ h => h, fun _ _ h => h⟩

lemma Grows.trans (h : b.Grows b') (h' : b'.Grows b'') : b.Grows b'' :=
  ⟨fun ns hns => h'.has ns (h.has ns hns), fun ns name hbound => h'.bound ns name
    (h.bound ns name hbound)⟩

lemma grows_define (b : Bindings) (ns name : String) (d : Definition) :
    b.Grows (b.define ns name d) := by
  constructor
  · intro other hother
    rw [Has, define, lookup_replace]
    split
    · rfl
    · exact hother
  · intro otherNs other hbound
    rw [find?_define]
    split
    · rfl
    · exact hbound

lemma has_openNamespace (b : Bindings) (ns : String) : (b.openNamespace ns).Has ns := by
  unfold openNamespace Has
  split
  · assumption
  · simp [List.lookup_append]

lemma grows_openNamespace (b : Bindings) (ns : String) : b.Grows (b.openNamespace ns) := by
  constructor
  · intro other hother
    unfold openNamespace Has
    split
    · exact hother
    · rw [List.lookup_append, Option.isSome_or, Bool.or_eq_true]
      exact .inl hother
  · intro otherNs other hbound
    rwa [find?_openNamespace]

end Bindings

lemma Request.Allowed.grows {b b' : Bindings} {ns ns' : String} {r : Request} {reply : r.Reply}
    (h : r.Allowed b ns reply b' ns') : b.Grows b' := by
  cases r with
  | define dest name d =>
    obtain ⟨rfl, -⟩ := h
    exact b.grows_define dest name d
  | openNamespace dest =>
    obtain ⟨rfl, -⟩ := h
    exact b.grows_openNamespace dest
  | bindings | currentNamespace =>
    obtain ⟨-, rfl, -⟩ := h
    exact .refl _
  | interrupted | enterNamespace _ | readText _ | isFile _ | writeOutput _ | writeResult _ | ask _
    | debug _ _ | requestQuit | rest _ =>
    obtain ⟨rfl, -⟩ := h
    exact .refl _

/-! ## What was done last -/

section last

variable {δ : Type} {completed : List Request → δ → Prop} {asked : List Request} {r : Request}
  {start now : δ}

/-- Of all that is completed by the time that this is asked, the last has left what is there now; if
nothing is completed, it was there at the start. -/
inductive LeftBy (completed : List Request → δ → Prop) (asked : List Request) (start : δ) : δ → Prop
  | untouched : (∀ upTo d, upTo <+: asked → ¬ completed upTo d) → LeftBy completed asked start start
  | last {upTo : List Request} {now : δ} : upTo <+: asked → completed upTo now →
      (∀ other d, other <+: asked → completed other d → other <+: upTo) →
      LeftBy completed asked start now

/-- What was left stays where nothing is completed. -/
lemma LeftBy.concat (h : LeftBy completed asked start now)
    (hnone : ∀ d, ¬ completed (asked ++ [r]) d) : LeftBy completed (asked ++ [r]) start now := by
  have hbefore : ∀ upTo d, upTo <+: asked ++ [r] → completed upTo d → upTo <+: asked := by
    intro upTo d hupTo hcompleted
    rcases List.prefix_concat_iff.1 hupTo with rfl | hupTo
    · exact absurd hcompleted (hnone d)
    · exact hupTo
  cases h with
  | untouched h =>
    exact .untouched fun upTo d hupTo hcompleted =>
      h upTo d (hbefore upTo d hupTo hcompleted) hcompleted
  | last hupTo hcompleted hlast =>
    refine .last (hupTo.trans (List.prefix_append _ _)) hcompleted fun other d hother hd => ?_
    exact hlast other d (hbefore other d hother hd) hd

/-- Each request completes something and leaves it, or completes nothing and leaves what was there
before. So this is how it is after all of them. -/
lemma leftBy_after {s : Script} (observed : Script → δ) {all : List Request}
    (hnil : ∀ d, ¬ completed [] d)
    (hstep : ∀ asked r, asked ++ [r] <+: all →
      completed (asked ++ [r]) (observed (s.after (asked ++ [r]))) ∨
      (∀ d, ¬ completed (asked ++ [r]) d) ∧
        observed (s.after (asked ++ [r])) = observed (s.after asked))
    (h : asked <+: all) : LeftBy completed asked (observed s) (observed (s.after asked)) := by
  induction asked using List.reverseRecOn with
  | nil =>
    refine .untouched fun upTo d hupTo => ?_
    obtain rfl := List.prefix_nil.1 hupTo
    exact hnil d
  | append_singleton asked r ih =>
    have ih := ih ((List.prefix_append _ _).trans h)
    rcases hstep asked r h with hcompleted | ⟨hnone, hsame⟩
    · exact .last List.prefix_rfl hcompleted fun _ _ hother _ => hother
    · rw [hsame]
      exact ih.concat hnone

end last

namespace Script

variable {α : Type} {s : Script} {x : Eval α} {asked : List Request} {ns name dest : String}
  {d : Definition} {r : Request}

open Eval

lemma grows_after (s : Script) (asked : List Request) :
    s.bindings.Grows (s.after asked).bindings := by
  induction asked generalizing s with
  | nil => exact .refl _
  | cons r rest ih => exact (s.allowed_answer r).grows.trans (ih _)

lemma after_concat (s : Script) (asked : List Request) (r : Request) :
    s.after (asked ++ [r]) = ((s.after asked).answer r).2 :=
  s.after_append asked [r]

/-- A definition is completed by the request to define. -/
lemma Defines.asks (h : s.Defines x asked ns name d) :
    asked <+: s.requests x.run ∧ ∃ before, asked = before ++ [.define ns name d] := by
  obtain ⟨hcompletes, hparts, hcheck, hvalue⟩ := h
  refine ⟨hcompletes.asks, ?_⟩
  obtain ⟨before, -, rfl⟩ := hcompletes.begun
  rw [requests_definitionAt hparts hcheck hvalue]
  rw [List.append_cons, ← List.append_assoc]
  exact ⟨_, rfl⟩

/-- A change of namespace is completed by the request to enter it. -/
lemma Enters.asks (h : s.Enters x asked dest) :
    asked <+: s.requests x.run ∧ ∃ before, asked = before ++ [.enterNamespace dest] := by
  obtain ⟨hcompletes, hcheck, hvalue, hdest⟩ := h
  refine ⟨hcompletes.asks, ?_⟩
  obtain ⟨before, -, rfl⟩ := hcompletes.begun
  rw [requests_changeAt hcheck hvalue hdest]
  rw [List.append_cons, ← List.append_assoc]
  exact ⟨_, rfl⟩

/-- A namespace that has been entered exists. -/
lemma Enters.has (h : s.Enters x asked dest) : (s.after asked).bindings.Has dest := by
  obtain ⟨hcompletes, hcheck, hvalue, hdest⟩ := h
  have hends := evaluates_inNamespace.2 ⟨dest, _, _, _, hcheck, hvalue, hdest, rfl, rfl⟩
  obtain ⟨-, rfl⟩ := hcompletes.evaluates.unique hends
  rw [hcompletes.after]
  exact Bindings.has_openNamespace _ _

lemma ns_answer (h : ∀ dest, r ≠ .enterNamespace dest) (s : Script) : (s.answer r).2.ns = s.ns := by
  cases r with
  | interrupted => exact s.check_place.2
  | ask question =>
    cases question with
    | line => exact s.takeLine_place.2
    | yesOrNo prompt => exact (takeLine_place (s.record (.prompt prompt))).2
  | enterNamespace dest => exact absurd rfl (h dest)
  | _ => rfl

/-- The definition of a name in a namespace is the one that was completed last, or it was there from
the start. -/
lemma leftBy_entry (hx : x.Attributed) (ns name : String) (h : asked <+: s.requests x.run) :
    LeftBy (fun upTo entry => ∃ d, entry = some d ∧ s.Defines x upTo ns name d) asked
      (s.bindings.find? ns name) ((s.after asked).bindings.find? ns name) := by
  refine leftBy_after (fun s => s.bindings.find? ns name) ?_ ?_ h
  · rintro _ ⟨d, -, hdefines⟩
    obtain ⟨-, before, hnil⟩ := hdefines.asks
    simp at hnil
  · intro asked r h
    rw [after_concat]
    by_cases hr : ∃ d, r = .define ns name d
    · obtain ⟨d, rfl⟩ := hr
      refine .inl ⟨d, ?_, hx s asked _ h⟩
      exact (Bindings.find?_define ..).trans (if_pos ⟨rfl, rfl⟩)
    · refine .inr ⟨?_, find?_answer fun hmem => ?_⟩
      · rintro _ ⟨d, -, hdefines⟩
        obtain ⟨-, before, hconcat⟩ := hdefines.asks
        exact hr ⟨d, by simpa using (List.append_inj' hconcat rfl).2⟩
      · cases r with
        | define dest other d =>
          obtain ⟨rfl, rfl⟩ : ns = dest ∧ name = other := by simpa [Request.defines] using hmem
          exact hr ⟨d, rfl⟩
        | _ => simp [Request.defines] at hmem

/-- The current namespace is the one that was entered last, or the first one. -/
lemma leftBy_current (hx : x.Attributed) (h : asked <+: s.requests x.run) :
    LeftBy (s.Enters x) asked s.ns (s.after asked).ns := by
  refine leftBy_after Script.ns ?_ ?_ h
  · intro dest henters
    obtain ⟨-, before, hnil⟩ := henters.asks
    simp at hnil
  · intro asked r h
    rw [after_concat]
    by_cases hr : ∃ dest, r = .enterNamespace dest
    · obtain ⟨dest, rfl⟩ := hr
      exact .inl (hx s asked _ h)
    · refine .inr ⟨fun dest henters => ?_, ns_answer (not_exists.1 hr) _⟩
      obtain ⟨-, before, hconcat⟩ := henters.asks
      exact hr ⟨dest, by simpa using (List.append_inj' hconcat rfl).2⟩

lemma run_definitionAt_error {depth : Nat} {source : Option Source} {arguments : List Sexp}
    {doc : Option String} {form : Sexp} {e : EvalError} {t t₁ t₂ : Script} (name : String)
    (hparts : DefinitionParts arguments doc form) (hcheck : t.check = (false, t₁))
    (hfails : t₁.run (formAt depth source form).run = (.error e, t₂)) :
    t.run (definitionAt depth source name arguments).run = (.error e, t₂) := by
  have hbefore := (run_bind_ok (f := fun _ => formAt depth source form)
    (evaluates_check.2 hcheck)).1.trans hfails
  rw [definitionAt_eq hparts]
  exact (run_bind_error hbefore).1

/-- What an evaluation leaves of definitions and of the current namespace, at every point and so at
the end, whether it has a value then or fails. -/
structure Keeps (s : Script) (x : Eval α) : Prop where
  /-- The end is the point at which all has been asked. -/
  ends : s.after (s.requests x.run) = (s.run x.run).2
  /-- What exists stays, and what is bound stays bound. -/
  grows : ∀ asked, asked <+: s.requests x.run → s.bindings.Grows (s.after asked).bindings
  /-- An entry is as it was, or as the last completed definition of its name, with its namespace
  current, has made it. -/
  entry : ∀ asked, asked <+: s.requests x.run → ∀ ns name,
    LeftBy (fun upTo entry => ∃ d, entry = some d ∧ s.Defines x upTo ns name d) asked
      (s.bindings.find? ns name) ((s.after asked).bindings.find? ns name)
  /-- A definition whose form fails leaves what its form leaves, and so does the whole. -/
  fails : ∀ {asked depth source name arguments doc form e t t₁ t₂},
    s.Begins x asked t (definitionAt depth source name arguments) →
    DefinitionParts arguments doc form → t.check = (false, t₁) →
    t₁.run (formAt depth source form).run = (.error e, t₂) →
    t.run (definitionAt depth source name arguments).run = (.error e, t₂) ∧
      s.run x.run = (.error e, t₂)
  /-- A completed definition ends in the symbol of the one entry that it makes. -/
  defines : ∀ {asked depth source name arguments v t t'},
    s.Completes x asked t (definitionAt depth source name arguments) v t' →
    ∃ doc form value t₁ t₂, DefinitionParts arguments doc form ∧ t.check = (false, t₁) ∧
      t₁.Evaluates (formAt depth source form) value t₂ ∧
      s.Defines x asked t₂.ns name ⟨value, doc, source⟩ ∧
      v = .symbol ("#'" ++ t₂.ns ++ "/" ++ name) ∧ s.after asked = t' ∧ t'.ns = t₂.ns ∧
      ∀ ns other, t'.bindings.find? ns other =
        if ns = t₂.ns ∧ other = name then some ⟨value, doc, source⟩
        else t₂.bindings.find? ns other
  /-- The current namespace is the first one, or the one that was entered last. -/
  current : ∀ asked, asked <+: s.requests x.run → LeftBy (s.Enters x) asked s.ns (s.after asked).ns
  /-- A namespace that has been entered exists from then on. -/
  entered : ∀ {asked upTo dest}, upTo <+: asked → s.Enters x upTo dest →
    (s.after asked).bindings.Has dest

/-- No request removes a definition. Whatever a request changes of definitions and of the current
namespace, completed definitions and changes of namespace have changed it, and the last of them has
left it as it is. -/
theorem evaluation_keeps (host : Host) (form : Sexp) (s : Script) :
    s.Keeps (evaluateRequest host form) where
  ends := s.after_requests _
  grows asked _ := s.grows_after asked
  entry asked h ns name := leftBy_entry (attributed_evaluateRequest host form) ns name h
  fails := by
    intro asked depth source name arguments doc value e t t₁ t₂ hbegins hparts hcheck hfails
    have hdefinition := run_definitionAt_error name hparts hcheck hfails
    exact ⟨hdefinition, hbegins.fails hdefinition⟩
  defines := by
    intro asked depth source name arguments v t t' hcompletes
    obtain ⟨doc, form, value, t₁, t₂, hparts, hcheck, hvalue, rfl, rfl⟩ :=
      evaluates_definition.1 hcompletes.evaluates
    exact ⟨doc, form, value, t₁, t₂, hparts, hcheck, hvalue,
      .intro hcompletes hparts hcheck hvalue, rfl, hcompletes.after, rfl,
      fun ns other => Bindings.find?_define ..⟩
  current asked h := leftBy_current (attributed_evaluateRequest host form) h
  entered := by
    rintro _ upTo dest ⟨more, rfl⟩ henters
    rw [after_append]
    exact ((s.after upTo).grows_after more).has dest henters.has

/-- A form that defines `x` and then fails. -/
def failing : Sexp :=
  .list [.symbol "do", .list [.symbol "def", .symbol "x", .int 2],
    .list [.symbol "throw", .str "no"]]

/-- A form that defines `x`, and then once more, as what `failing` comes to. -/
def redefining : Sexp :=
  .list [.symbol "do", .list [.symbol "def", .symbol "x", .int 1],
    .list [.symbol "def", .symbol "x", failing]]

/-- A console on which `x` is defined. -/
def knowing (v : Sexp) : Script :=
  { bindings := ({} : Bindings).define "user" "x" ⟨v, none, none⟩ }

lemma redefining_eq : evaluateRequest Interpreted.plainHost redefining =
    checkInterrupt >>= fun _ => definitionAt 1 none "x" [.int 1] >>= fun _ =>
      definitionAt 1 none "x" [failing] >>= fun value => pure value := by
  have hcall : EditorCall.ofSexp? redefining = none := by cbv
  have hdo : SpecialForm.ofName? "do" = some .sequence := by decide
  rw [evaluateRequest, hcall]
  change evaluateForm (loadFile 1) none redefining = _
  rw [redefining, evaluateForm]
  simp only [hdo, evaluateSpecial, evaluateBody]

lemma evaluates_first : ({} : Script).Evaluates (definitionAt 1 none "x" [.int 1])
    (.symbol "#'user/x") (knowing (.int 1)) := by
  unfold Evaluates
  cbv

/-- The first definition is completed and leaves its entry. The second one fails; the entry that
stays is neither the first one nor the one that was to be. -/
theorem evaluation_keeps_redefining :
    let x := evaluateRequest Interpreted.plainHost redefining
    (∃ asked, ({} : Script).Defines x asked "user" "x" ⟨.int 1, none, none⟩ ∧
      (({} : Script).after asked).bindings.find? "user" "x" = some ⟨.int 1, none, none⟩) ∧
    ∃ t, ({} : Script).run x.run = (.error (.raised "no"), t) ∧
      t.bindings.find? "user" "x" = some ⟨.int 2, none, none⟩ := by
  intro x
  have hkeeps : ({} : Script).Keeps x := evaluation_keeps Interpreted.plainHost redefining {}
  have hx : x = _ := redefining_eq
  refine ⟨?_, ?_⟩
  · have hbegins : ({} : Script).Begins x [.interrupted] {} (definitionAt 1 none "x" [.int 1]) := by
      rw [hx]
      exact .later (evaluates_check.2 rfl) (.first (.whole _ _))
    obtain ⟨doc, form, value, t₁, t₂, hparts, hcheck, hvalue, hdefines, -, hafter, -, hfind⟩ :=
      hkeeps.defines ⟨⟨_, hbegins, rfl⟩, evaluates_first⟩
    obtain ⟨rfl, rfl⟩ : form = .int 1 ∧ doc = none := by
      rcases hparts with ⟨hform, hdoc⟩ | ⟨text, hform, -⟩
      · exact ⟨by simpa using hform.symm, hdoc⟩
      · simp at hform
    obtain rfl : {} = t₁ := (Prod.mk.inj hcheck).2
    have hone : ({} : Script).Evaluates (formAt 1 none (.int 1)) (.int 1) {} := by
      unfold Evaluates
      cbv
    obtain ⟨rfl, rfl⟩ := hvalue.unique hone
    refine ⟨_, hdefines, ?_⟩
    rw [hafter, hfind, if_pos ⟨rfl, rfl⟩]
  · obtain ⟨asked, hbegins⟩ : ∃ asked, ({} : Script).Begins x asked (knowing (.int 1))
        (definitionAt 1 none "x" [failing]) := by
      rw [hx]
      exact ⟨_, .later (evaluates_check.2 rfl) (.later evaluates_first (.first (.whole _ _)))⟩
    have hfails : (knowing (.int 1)).run (formAt 1 none failing).run =
        (.error (.raised "no"), knowing (.int 2)) := by cbv
    obtain ⟨-, hwhole⟩ := hkeeps.fails hbegins (.inl ⟨rfl, rfl⟩) rfl hfails
    exact ⟨_, hwhole, rfl⟩

end Script

end EvalServer
