import EvalServer.Proofs.Evaluation.Loading
import Mathlib

/-!
# Completions

An editor that asks how a text may be completed is answered with names and with what they have in
common. The names come in order and once each. What they have in common is the greatest of their
common starts, which is a cut through the bytes of each of them between two characters.
-/

namespace EvalServer

/-! ## Names in order -/

section sorted

lemma sorted_eraseDups : ∀ {names : List String}, names.Pairwise (· ≤ ·) →
    names.eraseDups.Pairwise (· < ·)
  | [], _ => by simp
  | name :: rest, h => by
    obtain ⟨hname, hrest⟩ := List.pairwise_cons.1 h
    rw [List.eraseDups_cons]
    refine List.pairwise_cons.2 ⟨fun other hother => ?_,
      sorted_eraseDups (hrest.sublist List.filter_sublist)⟩
    obtain ⟨hmem, hne⟩ := List.mem_filter.1 (List.mem_eraseDups.1 hother)
    have hne : other ≠ name := by simpa using hne
    exact lt_of_le_of_ne (hname other hmem) hne.symm
termination_by names => names.length
decreasing_by exact Nat.lt_succ_of_le (List.length_filter_le _ _)

lemma sorted_sortedNames (names : List String) : (sortedNames names).Pairwise (· < ·) := by
  have htrans : ∀ a b c : String, decide (a ≤ b) = true → decide (b ≤ c) = true →
      decide (a ≤ c) = true := fun a b c hab hbc =>
    decide_eq_true ((of_decide_eq_true hab).trans (of_decide_eq_true hbc))
  have htotal : ∀ a b : String, (decide (a ≤ b) || decide (b ≤ a)) = true := by
    intro a b
    rw [Bool.or_eq_true, decide_eq_true_iff, decide_eq_true_iff]
    exact le_total a b
  have hsorted := List.pairwise_mergeSort htrans htotal names
  refine sorted_eraseDups ?_
  exact hsorted.imp fun hab => of_decide_eq_true hab

end sorted

/-! ## Common starts -/

section common

/-- The characters at which two texts agree, before the first at which they differ. -/
def agreeing (a b : List Char) : List Char :=
  ((a.zip b).takeWhile fun pair => pair.1 = pair.2).map Prod.fst

@[simp] lemma agreeing_nil_left (b : List Char) : agreeing [] b = [] :=
  rfl

@[simp] lemma agreeing_nil_right (a : List Char) : agreeing a [] = [] := by
  rw [agreeing, List.zip_nil_right]
  rfl

lemma agreeing_cons_cons (c d : Char) (a b : List Char) :
    agreeing (c :: a) (d :: b) = if c = d then c :: agreeing a b else [] := by
  by_cases h : c = d <;> simp [agreeing, h]

/-- The common starts of two texts are the starts of what agrees in them. -/
lemma prefix_agreeing_iff {p a b : List Char} : p <+: agreeing a b ↔ p <+: a ∧ p <+: b := by
  induction a generalizing p b with
  | nil =>
    simp only [agreeing_nil_left, List.prefix_nil, iff_self_and]
    rintro rfl
    exact List.nil_prefix
  | cons c a ih =>
    cases b with
    | nil =>
      simp only [agreeing_nil_right, List.prefix_nil, iff_and_self]
      rintro rfl
      exact List.nil_prefix
    | cons d b =>
      cases p with
      | nil => simp
      | cons e p =>
        rw [agreeing_cons_cons, List.cons_prefix_cons, List.cons_prefix_cons]
        split
        · next heq =>
          subst heq
          rw [List.cons_prefix_cons, ih]
          exact and_and_left
        · next hne =>
          rw [List.prefix_nil]
          refine iff_of_false (List.cons_ne_nil e p) ?_
          rintro ⟨⟨rfl, -⟩, rfl, -⟩
          exact hne rfl

/-- What a text has in common with others. -/
def commonWith (a : List Char) (others : List String) : List Char :=
  others.foldl (fun common other => agreeing common other.toList) a

lemma commonStart_cons (name : String) (rest : List String) :
    commonStart (name :: rest) = some (String.ofList (commonWith name.toList rest)) :=
  rfl

lemma prefix_commonWith_iff {p a : List Char} {others : List String} :
    p <+: commonWith a others ↔ p <+: a ∧ ∀ other ∈ others, p <+: other.toList := by
  induction others generalizing a with
  | nil => simp [commonWith]
  | cons other rest ih =>
    have hcons : commonWith a (other :: rest) = commonWith (agreeing a other.toList) rest := rfl
    rw [hcons, ih, prefix_agreeing_iff, List.forall_mem_cons, and_assoc]

/-- The texts that common names all start with are the starts of what they have in common. -/
lemma prefix_commonStart_iff {names : List String} {c : String} (h : commonStart names = some c)
    (d : String) : d.toList <+: c.toList ↔ ∀ name ∈ names, d.toList <+: name.toList := by
  cases names with
  | nil => cases h
  | cons name rest =>
    rw [commonStart_cons, Option.some.injEq] at h
    rw [← h, String.toList_ofList, prefix_commonWith_iff, List.forall_mem_cons]

end common

/-! ## Cuts between characters -/

section cuts

/-- The number of bytes of characters. -/
def byteSize (cs : List Char) : Nat :=
  (String.ofList cs).utf8ByteSize

lemma byteSize_le {p a : List Char} (h : p <+: a) : byteSize p ≤ byteSize a := by
  obtain ⟨rest, rfl⟩ := h
  simp [byteSize, String.ofList_append]

/-- The byte at which the first name is cut: the first at which one of the others departs from it,
if that is before its end. -/
def cutAt (name : String) (others : List String) : Nat :=
  others.foldl (fun size other => min (byteSize (agreeing name.toList other.toList)) size)
    name.utf8ByteSize

lemma byteSize_agreeing {p a : List Char} (h : p <+: a) (b : List Char) :
    byteSize (agreeing p b) = min (byteSize (agreeing a b)) (byteSize p) := by
  obtain ⟨hp, hb⟩ := prefix_agreeing_iff.1 (List.prefix_refl (agreeing p b))
  obtain ⟨ha, hb'⟩ := prefix_agreeing_iff.1 (List.prefix_refl (agreeing a b))
  -- both `p` and what `a` shares with `b` start `a`, so one of the two starts the other
  rcases List.prefix_or_prefix_of_prefix h ha with hshort | hlong
  · have heq : agreeing p b = p :=
      hp.eq_of_length_le (prefix_agreeing_iff.2 ⟨List.prefix_refl p, hshort.trans hb'⟩).length_le
    rw [heq, min_eq_right (byteSize_le hshort)]
  · have heq : agreeing p b = agreeing a b :=
      (prefix_agreeing_iff.2 ⟨hp.trans h, hb⟩).eq_of_length_le
        (prefix_agreeing_iff.2 ⟨hlong, hb'⟩).length_le
    rw [heq, min_eq_left (byteSize_le hlong)]

lemma byteSize_commonWith {p : List Char} {name : String} (h : p <+: name.toList)
    (others : List String) :
    byteSize (commonWith p others) = others.foldl
      (fun size other => min (byteSize (agreeing name.toList other.toList)) size) (byteSize p) := by
  induction others generalizing p with
  | nil => rfl
  | cons other rest ih =>
    have hagreeing := (prefix_agreeing_iff.1 (List.prefix_refl (agreeing p other.toList))).1
    have hcons : commonWith p (other :: rest) = commonWith (agreeing p other.toList) rest := rfl
    rw [hcons, ih (hagreeing.trans h), byteSize_agreeing h, List.foldl_cons]

/-- What names have in common is the first of them up to the byte at which it is cut. -/
lemma utf8ByteSize_commonStart {name c : String} {rest : List String}
    (h : commonStart (name :: rest) = some c) : c.utf8ByteSize = cutAt name rest := by
  rw [commonStart_cons, Option.some.injEq] at h
  have hsize := byteSize_commonWith (List.prefix_refl name.toList) rest
  rw [byteSize, h, byteSize, String.ofList_toList] at hsize
  exact hsize

/-- A text ends between two characters of each text that it starts. -/
lemma isValid_of_prefix {c name : String} (h : c.toList <+: name.toList) :
    c.rawEndPos.IsValid name := by
  obtain ⟨rest, hrest⟩ := h
  refine String.Pos.Raw.isValid_iff_exists_append.2 ⟨c, String.ofList rest, ?_, rfl⟩
  rw [← String.toList_inj, String.toList_append, String.toList_ofList, hrest]

end cuts

/-! ## Answers -/

lemma mem_coreNames {name : String} :
    name ∈ coreNames ↔ (∃ b : Builtin, b.name = name) ∨ ∃ form : SpecialForm, form.name = name := by
  have hbuiltins : ∀ b : Builtin, b ∈ Builtin.all := fun b => by cases b <;> decide
  have hforms : ∀ form : SpecialForm, form ∈ SpecialForm.all := fun form => by cases form <;> decide
  simp [coreNames, hbuiltins, hforms]

namespace Script

variable {argument : Sexp} {start : String}

lemma run_completions (host : Host) (h : EditorCall.Names argument start) (more : List Sexp)
    (s : Script) :
    s.run (evaluateRequest host
        (.list (.symbol "swank/simple-completions" :: argument :: more))).run =
      (.ok (EditorCall.completions s.bindings start
        (EditorCall.namespaceArgument (argument :: more) 1 s.ns)), s) := by
  have hname : EditorCall.fullName "simple-completions" = "swank/simple-completions" := by
    decide +kernel
  have htext : EditorCall.textArgument "simple-completions" (argument :: more) 0 = .ok start := by
    unfold EditorCall.textArgument
    rcases h with h | h <;> simp [h]
  rw [← hname, evaluateRequest_fullName]
  unfold EditorCall.run
  simp only [htext]
  rfl

/-- The answer to a request for completions of a text in a namespace, or in the current one if none
is named, is a list of names and a text, and nothing else comes of the request. The names are in
order by code points, and are those that start with the text and are bound in the namespace or
belong to the core language. The other text has these names' common starts as its own starts, that
of the request among them, and is the latter if there are no names. It ends between two characters
of each name, and at the byte at which the first of the names is cut. -/
theorem completions_exact (host : Host) (s : Script) (more : List Sexp)
    (h : EditorCall.Names argument start) :
    let ns := EditorCall.namespaceArgument (argument :: more) 1 s.ns
    ∃ names common, s.run (evaluateRequest host
        (.list (.symbol "swank/simple-completions" :: argument :: more))).run =
          (.ok (.list [.list (names.map .str), .str common]), s) ∧
      names.Pairwise (fun a b => a.toList < b.toList) ∧
      (∀ name, name ∈ names ↔ start.toList <+: name.toList ∧
        ((s.bindings.find? ns name).isSome = true ∨ (∃ b : Builtin, b.name = name) ∨
          ∃ form : SpecialForm, form.name = name)) ∧
      start.toList <+: common.toList ∧
      (names = [] → common = start) ∧
      (names ≠ [] → ∀ d : String,
        d.toList <+: common.toList ↔ ∀ name ∈ names, d.toList <+: name.toList) ∧
      (∀ name ∈ names, common.rawEndPos.IsValid name) ∧
      ∀ first rest, names = first :: rest → common.utf8ByteSize = cutAt first rest := by
  intro ns
  have hmem : ∀ name, name ∈ s.bindings.completions start ns ↔ start.toList <+: name.toList ∧
      ((s.bindings.find? ns name).isSome = true ∨ (∃ b : Builtin, b.name = name) ∨
        ∃ form : SpecialForm, form.name = name) := by
    intro name
    rw [Bindings.mem_completions, Bindings.mem_names, mem_coreNames, String.startsWith_string_iff,
      and_comm]
  have hsorted : (s.bindings.completions start ns).Pairwise fun a b => a.toList < b.toList :=
    (sorted_sortedNames _).imp String.lt_iff_toList_lt.1
  refine ⟨s.bindings.completions start ns,
    (commonStart (s.bindings.completions start ns)).getD start, run_completions host h more s,
    hsorted, hmem, ?_⟩
  cases hnames : s.bindings.completions start ns with
  | nil => simp [commonStart]
  | cons first rest =>
    have hcommon : commonStart (first :: rest) =
        some (String.ofList (commonWith first.toList rest)) := commonStart_cons first rest
    have hstarts := prefix_commonStart_iff hcommon
    simp only [hcommon, Option.getD_some]
    refine ⟨(hstarts start).2 fun name hname => ?_, by simp, fun _ => hstarts, fun name hname => ?_,
      ?_⟩
    · exact ((hmem name).1 (hnames ▸ hname)).1
    · exact isValid_of_prefix ((hstarts _).1 (List.prefix_refl _) name hname)
    · rintro first' rest' heq
      obtain ⟨rfl, rfl⟩ := List.cons.inj heq
      exact utf8ByteSize_commonStart hcommon

/-- Two names that differ in the second of the two bytes of a character. -/
def accented : Script where
  bindings := (Bindings.define {} "user" "xé" ⟨.int 1, none, none⟩).define "user" "xè"
    ⟨.int 2, none, none⟩

theorem completions_exact_accented :
    EditorCall.Names (.str "x") "x" ∧
    accented.run (evaluateRequest (searchIn [])
      (.list [.symbol "swank/simple-completions", .str "x", .str "user"])).run =
        (.ok (.list [.list [.str "xè", .str "xé"], .str "x"]), accented) ∧
    (∀ d : String, d.toList <+: "x".toList ↔ d.toList <+: "xè".toList ∧ d.toList <+: "xé".toList) ∧
    "x".rawEndPos.IsValid "xè" ∧ "x".utf8ByteSize = cutAt "xè" ["xé"] := by
  have hargument : EditorCall.Names (.str "x") "x" := .inl rfl
  have hanswer : accented.run (evaluateRequest (searchIn [])
      (.list [.symbol "swank/simple-completions", .str "x", .str "user"])).run =
        (.ok (.list [.list [.str "xè", .str "xé"], .str "x"]), accented) := by
    cbv
  obtain ⟨names, common, hrun, -, -, -, -, hstarts, hvalid, hcut⟩ :=
    completions_exact (searchIn []) accented [.str "user"] hargument
  simp only [hanswer, Prod.mk.injEq, Except.ok.injEq, Sexp.list.injEq, List.cons.injEq,
    Sexp.str.injEq, and_true] at hrun
  obtain ⟨hnames, rfl⟩ := hrun
  obtain rfl : ["xè", "xé"] = names := List.map_injective_iff.2 (fun _ _ => Sexp.str.inj) hnames
  refine ⟨hargument, hanswer, fun d => ?_, hvalid "xè" List.mem_cons_self, hcut _ _ rfl⟩
  rw [hstarts (List.cons_ne_nil _ _) d, List.forall_mem_cons, List.forall_mem_singleton]

end Script

end EvalServer
