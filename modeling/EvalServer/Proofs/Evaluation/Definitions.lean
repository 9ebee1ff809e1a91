import EvalServer.Proofs.Evaluation.Scripts

/-!
# Definitions and names

A definition is entered under the name as it is written; what a name stands for is looked up by its
parts. The two agree on plain names, which have no slash with something on both sides. A name that
is not plain is offered as a completion where it has been defined, and does not stand for the
definition.
-/

namespace EvalServer

/-- A name that stands for a definition of the namespace in which it is looked up: if it has a
slash, there is nothing before the first one or nothing after it. -/
def IsPlain (name : String) : Prop :=
  ∀ package plain : List Char, name.toList = package ++ '/' :: plain → '/' ∉ package →
    package = [] ∨ plain = []

lemma isPlain_of_not_mem {name : String} (h : '/' ∉ name.toList) : IsPlain name := by
  intro package plain hsplit
  rw [hsplit] at h
  exact absurd (List.mem_append_right _ List.mem_cons_self) h

namespace Bindings

variable {b : Bindings} {ns name : String}

/-! ## What names stand for -/

section qualify

lemma takeWhile_slash {package : List Char} (hpackage : '/' ∉ package) (plain : List Char) :
    (package ++ '/' :: plain).takeWhile (· ≠ '/') = package := by
  rw [List.takeWhile_append_of_pos]
  · simp
  · intro c hc
    have hne : c ≠ '/' := fun heq => hpackage (heq ▸ hc)
    simpa using hne

/-- The first slash of a name. -/
lemma split_slash (cs : List Char) :
    '/' ∉ cs.takeWhile (· ≠ '/') ∧ (cs.takeWhile (· ≠ '/') = cs ∨
      ∃ plain, cs = cs.takeWhile (· ≠ '/') ++ '/' :: plain) := by
  refine ⟨fun h => by simpa using List.all_eq_true.1 List.all_takeWhile '/' h, ?_⟩
  have hsplit := List.takeWhile_append_dropWhile (p := (· ≠ '/')) (l := cs)
  cases hdrop : cs.dropWhile (· ≠ '/') with
  | nil =>
    rw [hdrop, List.append_nil] at hsplit
    exact .inl hsplit
  | cons c plain =>
    have hc := List.head?_dropWhile_not (· ≠ '/') cs
    rw [hdrop] at hsplit hc
    obtain rfl : c = '/' := by simpa using hc
    exact .inr ⟨plain, hsplit.symm⟩

/-- A name stands for a definition of another namespace, or is plain. -/
lemma qualify_cases (name ns : String) :
    (∃ package plain : List Char, name.toList = package ++ '/' :: plain ∧ '/' ∉ package ∧
      package ≠ [] ∧ plain ≠ [] ∧ qualify name ns = (String.ofList package, String.ofList plain)) ∨
    IsPlain name ∧ qualify name ns = (ns, name) := by
  obtain ⟨hnone, hwhole | ⟨plain, hsplit⟩⟩ := split_slash name.toList
  · refine .inr ⟨fun package plain heq _ => ?_, ?_⟩
    · rw [hwhole, heq] at hnone
      exact absurd (List.mem_append_right _ List.mem_cons_self) hnone
    · simp only [qualify, hwhole, List.drop_length]
  · generalize hpackage : name.toList.takeWhile (· ≠ '/') = package at hnone hsplit
    have hqualify : qualify name ns = if package.isEmpty || plain.isEmpty then (ns, name)
        else (String.ofList package, String.ofList plain) := by
      simp only [qualify, hsplit, takeWhile_slash hnone, List.drop_left]
    by_cases hempty : package = [] ∨ plain = []
    · refine .inr ⟨fun package' plain' heq hnone' => ?_, ?_⟩
      · obtain rfl : package = package' := by rw [← hpackage, heq, takeWhile_slash hnone']
        rw [hsplit, List.append_cancel_left_eq, List.cons.injEq] at heq
        exact heq.2 ▸ hempty
      · rw [hqualify, if_pos (by simpa using hempty)]
    · rw [not_or] at hempty
      refine .inl ⟨package, plain, hsplit, hnone, hempty.1, hempty.2, ?_⟩
      rw [hqualify, if_neg (by simpa using hempty)]

lemma qualify_plain (h : IsPlain name) (ns : String) : qualify name ns = (ns, name) := by
  rcases qualify_cases name ns with ⟨package, plain, hsplit, hnone, hpackage, hplain, -⟩ | ⟨-, h⟩
  · exact ((h package plain hsplit hnone).elim hpackage hplain).elim
  · exact h

/-- A name that is not plain stands for a definition with a shorter name. -/
lemma qualify_ne (h : ¬ IsPlain name) (ns : String) : (qualify name ns).2 ≠ name := by
  rcases qualify_cases name ns with ⟨package, plain, hsplit, -, -, -, hqualify⟩ | ⟨hplain, -⟩
  · rw [hqualify]
    rintro rfl
    have hlength := congrArg List.length hsplit
    simp at hlength
    omega
  · exact absurd hplain h

lemma resolve?_define (h : IsPlain name) (b : Bindings) (ns : String) (d : Definition) :
    (b.define ns name d).resolve? name ns = some d := by
  rw [resolve?, qualify_plain h, find?_define, if_pos ⟨rfl, rfl⟩]

/-- To define a name that is not plain does not change what it stands for. -/
lemma resolve?_define_ne (h : ¬ IsPlain name) (b : Bindings) (ns : String) (d : Definition) :
    (b.define ns name d).resolve? name ns = b.resolve? name ns := by
  rw [resolve?, find?_define, if_neg fun heq => qualify_ne h ns heq.2, resolve?]

lemma describe?_define (h : IsPlain name) (b : Bindings) (ns : String) (d : Definition) :
    (b.define ns name d).describe? name ns =
      some { name, home := ns, doc := d.doc, source := d.source } := by
  rw [describe?, resolve?_define h]
  simp only [NameInfo.ofDefinition, qualify_plain h]

end qualify

/-! ## What names are offered -/

section completions

lemma mem_keys {α : Type} (entries : List (String × α)) :
    name ∈ entries.map Prod.fst ↔ (entries.lookup name).isSome = true := by
  rw [List.mem_map]
  cases hlookup : entries.lookup name with
  | none =>
    have hnone := List.lookup_eq_none_iff.1 hlookup
    refine iff_of_false ?_ (by simp)
    rintro ⟨entry, hmem, rfl⟩
    simpa using hnone entry hmem
  | some value =>
    obtain ⟨l, r, rfl, -⟩ := List.lookup_eq_some_iff.1 hlookup
    exact iff_of_true ⟨(name, value), by simp, rfl⟩ rfl

lemma mem_names : name ∈ b.names ns ↔ (b.find? ns name).isSome = true := by
  rw [names, find?, mem_keys]
  cases b.namespaces.lookup ns <;> simp

lemma mem_completions {start : String} : name ∈ b.completions start ns ↔
    (name ∈ b.names ns ∨ name ∈ coreNames) ∧ name.startsWith start = true := by
  rw [completions, sortedNames, List.mem_eraseDups, List.mem_mergeSort, List.mem_filter,
    List.mem_append]

/-- Every name of the core language is known, unless a definition hides it. -/
lemma describe?_core (h : name ∈ coreNames) (b : Bindings) (ns : String) :
    (b.describe? name ns).isSome = true := by
  unfold describe?
  split
  · rfl
  · split
    · rfl
    · next hbuiltin =>
      rw [Option.isSome_map, SpecialForm.ofName?, List.find?_isSome]
      rcases List.mem_append.1 h with hmem | hmem
      · obtain ⟨builtin, hall, rfl⟩ := List.mem_map.1 hmem
        have hsome := List.find?_eq_none.1 hbuiltin builtin hall
        simp at hsome
      · obtain ⟨special, hall, rfl⟩ := List.mem_map.1 hmem
        exact ⟨special, hall, decide_eq_true rfl⟩

/-- What is offered is known, if it is a plain name. -/
lemma describe?_of_mem_completions {start : String} (h : name ∈ b.completions start ns)
    (hplain : IsPlain name) : (b.describe? name ns).isSome = true := by
  rcases (mem_completions.1 h).1 with hmem | hmem
  · obtain ⟨d, hd⟩ := Option.isSome_iff_exists.1 (mem_names.1 hmem)
    rw [describe?, resolve?, qualify_plain hplain, hd]
    rfl
  · exact describe?_core hmem b ns

lemma mem_completions_define (b : Bindings) (ns start rest : String) (d : Definition) :
    start ++ rest ∈ (b.define ns (start ++ rest) d).completions start ns := by
  refine mem_completions.2 ⟨.inl (mem_names.2 ?_), ?_⟩
  · rw [find?_define, if_pos ⟨rfl, rfl⟩]
    rfl
  · simp [String.startsWith_string_iff]

end completions

end Bindings

namespace Script

variable {s s' : Script} {load : String → Eval Sexp} {source : Option Source} {v : Sexp}

/-- The documentation and the form of a definition, as they stand after its name. -/
def DefinitionParts (arguments : List Sexp) (doc : Option String) (form : Sexp) : Prop :=
  arguments = [form] ∧ doc = none ∨ ∃ text, arguments = [.str text, form] ∧ doc = some text

lemma DefinitionParts.evaluate {arguments : List Sexp} {doc : Option String} {form : Sexp}
    (h : DefinitionParts arguments doc form) (name : String) :
    Eval.evaluateSpecial load source .define (.symbol name :: arguments) =
      Eval.evaluateForm load source form >>= fun value => Eval.define name doc source value := by
  unfold Eval.evaluateSpecial
  rcases h with ⟨rfl, rfl⟩ | ⟨text, rfl, rfl⟩ <;> rfl

lemma evaluateSpecial_define (name : String) (arguments : List Sexp) :
    (∃ doc form, DefinitionParts arguments doc form) ∨
    Eval.evaluateSpecial load source .define (.symbol name :: arguments) =
      throw (.arity SpecialForm.define.name (arguments.length + 1)) := by
  match arguments with
  | [form] => exact .inl ⟨none, form, .inl ⟨rfl, rfl⟩⟩
  | [.str text, form] => exact .inl ⟨some text, form, .inr ⟨text, rfl, rfl⟩⟩
  | [] | [.nil, _] | [.t, _] | [.int _, _] | [.symbol _, _] | [.keyword _, _] | [.list _, _]
  | _ :: _ :: _ :: _ =>
    right
    unfold Eval.evaluateSpecial
    rfl

/-- What a definition does if it ends in a value: it evaluates its form, and defines the name in
the namespace that is current then. -/
lemma evaluates_definition {name : String} {arguments : List Sexp} :
    s.Evaluates (Eval.evaluateForm load source (.list (.symbol "def" :: .symbol name :: arguments)))
      v s' ↔ ∃ doc form value s₁ s₂, DefinitionParts arguments doc form ∧ s.check = (false, s₁) ∧
        s₁.Evaluates (Eval.evaluateForm load source form) value s₂ ∧
        v = .symbol ("#'" ++ s₂.ns ++ "/" ++ name) ∧
        s' = { s₂ with bindings := s₂.bindings.define s₂.ns name ⟨value, doc, source⟩ } := by
  have hname : SpecialForm.ofName? "def" = some .define := by decide
  rw [evaluates_special hname]
  constructor
  · rintro ⟨s₁, hcheck, h⟩
    rcases evaluateSpecial_define name arguments with
      ⟨doc, form, hparts⟩ | hthrows
    · rw [hparts.evaluate name] at h
      obtain ⟨value, s₂, hform, hdefine⟩ := evaluates_bind.1 h
      obtain ⟨hv, hs'⟩ := evaluates_define.1 hdefine
      exact ⟨doc, form, value, s₁, s₂, hparts, hcheck, hform, hv, hs'⟩
    · rw [hthrows] at h
      exact absurd h not_evaluates_throw
  · rintro ⟨doc, form, value, s₁, s₂, hparts, hcheck, hform, hv, hs'⟩
    refine ⟨s₁, hcheck, ?_⟩
    rw [hparts.evaluate name]
    exact evaluates_bind.2 ⟨value, s₂, hform, evaluates_define.2 ⟨hv, hs'⟩⟩

lemma evaluates_int {n : Int64} : s.Evaluates (Eval.evaluateForm load source (.int n)) v s' ↔
    s.check = (false, s') ∧ .int n = v :=
  evaluates_self (by simp) (by simp)

lemma check_of_none (h : s.checksLeft = none) : s.check = (false, s) := by
  rw [check, h]

/-- A number is defined, if nobody can interrupt. -/
lemma evaluates_definition_int (h : s.checksLeft = none) (name : String) (n : Int64) :
    s.Evaluates (Eval.evaluateForm load source (.list [.symbol "def", .symbol name, .int n]))
      (.symbol ("#'" ++ s.ns ++ "/" ++ name))
      { s with bindings := s.bindings.define s.ns name ⟨.int n, none, source⟩ } :=
  evaluates_definition.2 ⟨none, .int n, .int n, s, s, .inl ⟨rfl, rfl⟩, check_of_none h,
    evaluates_int.2 ⟨check_of_none h, rfl⟩, rfl, rfl⟩

/-- After a definition that ends in the symbol of a name and a namespace, the name is offered in
the namespace for each of its starts. If it is plain, it is described as defined there, with the
documentation and the source of the definition, and stands for the value that its form had; if it
is not, it stands for what it stood for before. In every state, a plain name that is offered is
known. -/
theorem definition_agrees {arguments : List Sexp} {ns name : String}
    (h : s.Evaluates
      (Eval.evaluateForm load source (.list (.symbol "def" :: .symbol name :: arguments)))
      (.symbol ("#'" ++ ns ++ "/" ++ name)) s') :
    (∃ doc form value s₁ s₂, DefinitionParts arguments doc form ∧ s.check = (false, s₁) ∧
      s₁.Evaluates (Eval.evaluateForm load source form) value s₂ ∧ s₂.ns = ns ∧
      s' = { s₂ with bindings := s₂.bindings.define ns name ⟨value, doc, source⟩ } ∧
      (∀ start rest, name = start ++ rest → name ∈ s'.bindings.completions start ns) ∧
      (IsPlain name →
        s'.bindings.describe? name ns = some { name, home := ns, doc, source } ∧
        ∀ (t t' : Script) load' source', t.bindings = s'.bindings → t.ns = ns →
          t.check = (false, t') →
            t.Evaluates (Eval.evaluateForm load' source' (.symbol name)) value t') ∧
      (¬ IsPlain name → s'.bindings.resolve? name ns = s₂.bindings.resolve? name ns)) ∧
    ∀ (b : Bindings) start ns other, other ∈ b.completions start ns → IsPlain other →
      (b.describe? other ns).isSome = true := by
  refine ⟨?_, fun b start ns other => Bindings.describe?_of_mem_completions⟩
  obtain ⟨doc, form, value, s₁, s₂, hparts, hcheck, hform, hv, rfl⟩ := evaluates_definition.1 h
  obtain rfl : ns = s₂.ns := by
    simp only [Sexp.symbol.injEq, String.append_assoc, String.append_right_inj] at hv
    have hlist := congrArg String.toList hv
    exact String.toList_inj.1 (by simpa using hlist)
  refine ⟨doc, form, value, s₁, s₂, hparts, hcheck, hform, rfl, rfl, ?_, fun hplain => ⟨?_, ?_⟩,
    fun hplain => Bindings.resolve?_define_ne hplain _ _ _⟩
  · rintro start rest rfl
    exact Bindings.mem_completions_define _ _ _ _ _
  · exact Bindings.describe?_define hplain _ _ _
  · intro t t' _ _ hbindings hns ht
    obtain ⟨hkept, hkept'⟩ : t'.bindings = t.bindings ∧ t'.ns = t.ns := by
      simpa only [ht] using t.check_place
    refine evaluates_symbol.2 ⟨⟨value, doc, source⟩, ht, ?_, rfl⟩
    rw [hkept, hkept', hbindings, hns]
    exact Bindings.resolve?_define hplain _ _ _

/-- A definition, as it is on a new interpreter. -/
theorem definition_agrees_answer : ∃ s' : Script,
    ({} : Script).Evaluates (Eval.evaluate 1 (.list [.symbol "def", .symbol "answer",
      .str "The answer.", .int 42])) (.symbol ("#'" ++ "user" ++ "/" ++ "answer")) s' ∧
    s'.bindings.describe? "answer" "user" =
      some { name := "answer", home := "user", doc := some "The answer." } ∧
    s'.Evaluates (Eval.evaluate 1 (.symbol "answer")) (.int 42) s' ∧
    "answer" ∈ s'.bindings.completions "ans" "user" := by
  have hdefine : ({} : Script).Evaluates (Eval.evaluate 1 (.list [.symbol "def", .symbol "answer",
      .str "The answer.", .int 42])) (.symbol ("#'" ++ "user" ++ "/" ++ "answer"))
      { bindings := Bindings.define {} "user" "answer" ⟨.int 42, some "The answer.", none⟩ } :=
    evaluates_definition.2 ⟨some "The answer.", .int 42, .int 42, {}, {}, .inr ⟨_, rfl, rfl⟩, rfl,
      evaluates_int.2 ⟨rfl, rfl⟩, rfl, rfl⟩
  have hplain : IsPlain "answer" := isPlain_of_not_mem (by decide)
  obtain ⟨⟨doc, form, value, s₁, s₂, hparts, hcheck, hform, -, -, hoffered, hknown, -⟩, -⟩ :=
    definition_agrees hdefine
  obtain ⟨hdescribed, hvalue⟩ := hknown hplain
  obtain ⟨rfl, rfl⟩ : doc = some "The answer." ∧ form = .int 42 := by
    rcases hparts with ⟨hone, -⟩ | ⟨text, htwo, rfl⟩
    · simp at hone
    · simp only [List.cons.injEq, Sexp.str.injEq, and_true] at htwo
      exact ⟨congrArg some htwo.1.symm, htwo.2.symm⟩
  obtain ⟨-, rfl⟩ := evaluates_int.1 hform
  exact ⟨_, hdefine, hdescribed, hvalue _ _ _ _ rfl rfl rfl, hoffered "ans" "wer" (by decide)⟩

/-- A definition of a name that is not plain: it is offered, but it is not known, and to evaluate it
fails. -/
theorem definition_lost : ∃ s' : Script,
    ({} : Script).Evaluates (Eval.evaluate 1 (.list [.symbol "def", .symbol "a/b", .int 1]))
      (.symbol ("#'" ++ "user" ++ "/" ++ "a/b")) s' ∧
    "a/b" ∈ s'.bindings.completions "a" "user" ∧ s'.bindings.describe? "a/b" "user" = none ∧
    ∀ v s'', ¬ s'.Evaluates (Eval.evaluate 1 (.symbol "a/b")) v s'' := by
  refine ⟨{ bindings := Bindings.define {} "user" "a/b" ⟨.int 1, none, none⟩ },
    evaluates_definition_int rfl "a/b" 1, ?_, by decide, fun v s'' h => ?_⟩
  · exact Bindings.mem_completions_define {} "user" "a" "/b" _
  · obtain ⟨d, hcheck, hd, -⟩ := evaluates_symbol.1 h
    cases hcheck
    have hnone : (Bindings.define {} "user" "a/b" ⟨.int 1, none, none⟩).resolve? "a/b" "user" =
        none := by decide
    exact absurd (hnone.symm.trans hd) (by simp)

end Script

end EvalServer
