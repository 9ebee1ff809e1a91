import EvalServer.Proofs.Evaluation.Definitions
import EvalServer.Proofs.File.Paths
import EvalServer.Proofs.Sexp.Lines

/-!
# Loaded files

A file is loaded form by form, and each definition in it is recorded with the name under which the
file was loaded and the line of its form. The search for a definition looks for a file of that name
in directories, so it answers the right line, and the right file where no other file of the name
comes first.
-/

namespace EvalServer

open Sexp

namespace EditorCall

/-- An argument of an editor call that stands for a text. -/
def Names (argument : Sexp) (text : String) : Prop :=
  unquote argument = .str text ∨ unquote argument = .symbol text

/-- The answer that the definition of a name is on a line of a file. -/
def location (name path : String) (line : Nat) : Sexp :=
  .list [.list [.str name, .list [.keyword "location", .list [.keyword "file", .str path],
    .list [.keyword "line", .int (Int64.ofNat line)], .nil]]]

lemma Names.text {argument : Sexp} {text : String} (h : Names argument text) (operation : String) :
    textArgument operation [argument] 0 = .ok text := by
  unfold textArgument
  rcases h with h | h <;> simp [h]

end EditorCall

namespace Script

variable {s s' : Script} {host : Host} {v argument : Sexp} {name path : String}

/-! ## Requests -/

section requests

lemma evaluateRequest_load (h : EditorCall.Names argument path) :
    evaluateRequest host (.list [.symbol "swank/load-file", argument]) =
      Eval.currentNamespace >>= fun _ => Eval.ofExcept (.ok path) >>= fun path =>
        Eval.evaluate host.loadDepth (.list [.symbol SpecialForm.loadFile.name, .str path]) := by
  have hname : EditorCall.fullName "load-file" = "swank/load-file" := by decide +kernel
  rw [← hname, evaluateRequest_fullName, ← h.text "load-file"]
  rfl

lemma evaluateRequest_find (h : EditorCall.Names argument name) :
    evaluateRequest host (.list [.symbol "swank/find-definitions-for-emacs", argument]) =
      Eval.currentNamespace >>= fun ns => Eval.ofExcept (.ok name) >>= fun name =>
        EditorCall.definitions host name ns := by
  have hname : EditorCall.fullName "find-definitions-for-emacs" =
      "swank/find-definitions-for-emacs" := by decide +kernel
  rw [← hname, evaluateRequest_fullName, ← h.text "find-definitions-for-emacs"]
  rfl

end requests

/-! ## Loading -/

section loading

/-- The forms of a file, after a form with the value `last`. -/
abbrev fileForms (depth : Nat) (path : String) (last : Sexp) (forms : List (Nat × Sexp)) :
    Eval Sexp :=
  Eval.evaluateForms (Eval.loadFile depth) (fun line => some ⟨path, line⟩) last forms

lemma evaluates_loadFile {depth : Nat} : s.Evaluates (Eval.loadFile depth path) v s' ↔
    ∃ inner text forms, depth = inner + 1 ∧ s.files.readText path = .ok text ∧
      parseAll text = .ok forms ∧ s.Evaluates (fileForms inner path .nil forms) v s' := by
  constructor
  · intro h
    cases depth with
    | zero => exact absurd h not_evaluates_throw
    | succ inner =>
      obtain ⟨contents, s₁, hread, h⟩ := evaluates_bind.1 h
      obtain ⟨hcontents, rfl⟩ := (Prod.mk.injEq ..).to_iff.1 (evaluates_request.1 hread)
      cases (contents : Except FileError String) with
      | error e => exact absurd h not_evaluates_throw
      | ok text =>
        cases hparse : parseAll text with
        | error e =>
          simp only [hparse] at h
          exact absurd h not_evaluates_throw
        | ok forms =>
          simp only [hparse] at h
          exact ⟨inner, text, forms, rfl, hcontents, hparse, h⟩
  · rintro ⟨inner, text, forms, rfl, hread, hparse, h⟩
    have hasked : s.Evaluates (Eval.request (.readText path)) (.ok text) s :=
      evaluates_request.2 ((Prod.mk.injEq ..).to_iff.2 ⟨hread, rfl⟩)
    refine evaluates_bind.2 ⟨_, s, hasked, ?_⟩
    simp only [hparse]
    exact h

/-- A request to load a file passes two cancellation points and then loads it. -/
lemma evaluates_load (hargument : EditorCall.Names argument path) :
    s.Evaluates (evaluateRequest host (.list [.symbol "swank/load-file", argument])) v s' ↔
      ∃ s₁ s₂, s.check = (false, s₁) ∧ s₁.check = (false, s₂) ∧
        s₂.Evaluates (Eval.loadFile host.loadDepth path) v s' := by
  have hspecial : SpecialForm.ofName? SpecialForm.loadFile.name = some .loadFile := by decide
  rw [evaluateRequest_load hargument]
  constructor
  · intro h
    obtain ⟨_, _, hns, h⟩ := evaluates_bind.1 h
    obtain ⟨-, rfl⟩ := evaluates_currentNamespace.1 hns
    obtain ⟨_, _, hpath, h⟩ := evaluates_bind.1 h
    obtain ⟨hpath, rfl⟩ := evaluates_ofExcept.1 hpath
    cases hpath
    obtain ⟨s₁, hcheck, h⟩ := (evaluates_special hspecial).1 h
    unfold Eval.evaluateSpecial at h
    obtain ⟨_, s₂, hvalue, h⟩ := evaluates_bind.1 h
    obtain ⟨hcheck', rfl⟩ := (evaluates_self (by simp) (by simp)).1 hvalue
    exact ⟨s₁, s₂, hcheck, hcheck', h⟩
  · rintro ⟨s₁, s₂, hcheck, hcheck', h⟩
    refine evaluates_bind.2 ⟨_, s, evaluates_currentNamespace.2 ⟨rfl, rfl⟩, ?_⟩
    refine evaluates_bind.2 ⟨_, s, evaluates_ofExcept.2 ⟨rfl, rfl⟩, ?_⟩
    refine (evaluates_special hspecial).2 ⟨s₁, hcheck, ?_⟩
    unfold Eval.evaluateSpecial
    exact evaluates_bind.2 ⟨_, s₂, (evaluates_self (by simp) (by simp)).2 ⟨hcheck', rfl⟩, h⟩

lemma check_same {s₁ : Script} (h : s.check = (false, s₁)) :
    (s₁.bindings, s₁.ns, s₁.files) = (s.bindings, s.ns, s.files) := by
  have hplace := s.check_place
  have hfiles := s.check_files
  simp only [h] at hplace hfiles
  rw [hplace.1, hplace.2, hfiles]

variable {load : String → Eval Sexp} {sourceOf : Nat → Option Source} {last : Sexp}

lemma evaluates_forms_cons {line : Nat} {form : Sexp} {forms : List (Nat × Sexp)} :
    s.Evaluates (Eval.evaluateForms load sourceOf last ((line, form) :: forms)) v s' ↔
      ∃ value s₁, s.Evaluates (Eval.evaluateForm load (sourceOf line) form) value s₁ ∧
        s₁.Evaluates (Eval.evaluateForms load sourceOf value forms) v s' :=
  evaluates_bind

lemma evaluates_forms_append (front rest : List (Nat × Sexp)) :
    s.Evaluates (Eval.evaluateForms load sourceOf last (front ++ rest)) v s' ↔
      ∃ value s₁, s.Evaluates (Eval.evaluateForms load sourceOf last front) value s₁ ∧
        s₁.Evaluates (Eval.evaluateForms load sourceOf value rest) v s' := by
  induction front generalizing s last with
  | nil =>
    constructor
    · exact fun h => ⟨last, s, evaluates_pure.2 ⟨rfl, rfl⟩, h⟩
    · rintro ⟨value, s₁, hfront, h⟩
      obtain ⟨rfl, rfl⟩ := evaluates_pure.1 hfront
      exact h
  | cons form front ih =>
    rw [List.cons_append, evaluates_forms_cons]
    constructor
    · rintro ⟨value, s₁, hform, h⟩
      obtain ⟨value', s₂, hfront, hrest⟩ := ih.1 h
      exact ⟨value', s₂, evaluates_forms_cons.2 ⟨value, s₁, hform, hfront⟩, hrest⟩
    · rintro ⟨value', s₂, hfront, hrest⟩
      obtain ⟨value, s₁, hform, hfront⟩ := evaluates_forms_cons.1 hfront
      exact ⟨value, s₁, hform, ih.2 ⟨value', s₂, hfront, hrest⟩⟩

end loading

/-! ## Definitions of a loaded text -/

/-- A form at the top level of a loaded text that defines a name in a namespace, after which the
text does not define the name there again. -/
structure LastDefinition (s : Script) (depth : Nat) (path : String) (text : List Char)
    (items : List (List Char × Sexp)) (ns name : String) where
  earlier : List (List Char × Sexp)
  start : List Char
  arguments : List Sexp
  later : List (List Char × Sexp)
  items_eq : items =
    earlier ++ (start, .list (.symbol "def" :: .symbol name :: arguments)) :: later
  before : Script
  after : Script
  previous : Sexp
  value : Sexp
  reached : s.Evaluates (fileForms depth path .nil (located text earlier)) previous before
  defines : before.Evaluates (Eval.evaluateForm (Eval.loadFile depth)
    (some ⟨path, lineOf text start⟩) (.list (.symbol "def" :: .symbol name :: arguments)))
    value after
  namespace_eq : after.ns = ns
  last : (ns, name) ∉ after.defined (fileForms depth path value (located text later)).run

lemma LastDefinition.source {depth : Nat} {text : List Char} {items : List (List Char × Sexp)}
    {ns : String} (d : s.LastDefinition depth path text items ns name)
    (h : s.Evaluates (fileForms depth path .nil (located text items)) v s') :
    (s'.bindings.find? ns name).map (·.source) = some (some ⟨path, lineOf text d.start⟩) := by
  have hitems : located text items = located text d.earlier ++
      (lineOf text d.start, .list (.symbol "def" :: .symbol name :: d.arguments)) ::
        located text d.later :=
    (congrArg (located text) d.items_eq).trans (by simp [located])
  rw [hitems] at h
  -- what is evaluated before the definition, and the definition itself, end in one way only
  obtain ⟨_, _, hreached, h⟩ := (evaluates_forms_append _ _).1 h
  obtain ⟨rfl, rfl⟩ := hreached.unique d.reached
  obtain ⟨_, _, hdefines, h⟩ := evaluates_forms_cons.1 h
  obtain ⟨rfl, rfl⟩ := hdefines.unique d.defines
  obtain ⟨doc, form, value, s₁, s₂, -, -, -, -, hafter⟩ := evaluates_definition.1 d.defines
  have hns : s₂.ns = ns := (congrArg Script.ns hafter).symm.trans d.namespace_eq
  rw [h.find? d.last, congrArg Script.bindings hafter, Bindings.find?_define,
    if_pos ⟨hns.symm, rfl⟩]
  rfl

/-! ## The search for a definition -/

section search

lemma evaluates_firstFile (s : Script) (paths : List String) :
    s.Evaluates (EditorCall.firstFile paths) (paths.find? s.files.isFile) s := by
  induction paths with
  | nil => exact evaluates_pure.2 ⟨rfl, rfl⟩
  | cons path rest ih =>
    have hasked : s.Evaluates (Eval.request (.isFile path)) (s.files.isFile path) s :=
      evaluates_request.2 rfl
    refine evaluates_bind.2 ⟨_, s, hasked, ?_⟩
    cases hfile : s.files.isFile path with
    | true =>
      rw [List.find?_cons_of_pos hfile]
      exact evaluates_pure.2 ⟨rfl, rfl⟩
    | false =>
      rw [List.find?_cons_of_neg (by simp [hfile])]
      exact ih

lemma evaluates_definitions (source : Source)
    (hsource : (s.bindings.describe? name s.ns).bind NameInfo.source = some source)
    (hpath : File.findSource s.files source.file (host.sourcePaths ++ [host.workingDirectory]) =
      some path) :
    s.Evaluates (EditorCall.definitions host name s.ns)
      (EditorCall.location name path source.line) s := by
  have hlocate : s.Evaluates (EditorCall.locate host name s.ns) (some (path, source.line)) s := by
    refine evaluates_bind.2 ⟨_, s, evaluates_bindings.2 ⟨rfl, rfl⟩, ?_⟩
    rw [hsource]
    have hfirst := s.evaluates_firstFile
      (File.candidates source.file (host.sourcePaths ++ [host.workingDirectory]))
    rw [show List.find? _ _ = _ from hpath] at hfirst
    exact evaluates_bind.2 ⟨_, s, hfirst, evaluates_pure.2 ⟨rfl, rfl⟩⟩
  refine evaluates_bind.2 ⟨_, s, hlocate, ?_⟩
  exact evaluates_pure.2 ⟨rfl, rfl⟩

lemma evaluates_find (hargument : EditorCall.Names argument name) {w : Sexp}
    (h : s.Evaluates (EditorCall.definitions host name s.ns) w s) :
    s.Evaluates (evaluateRequest host
      (.list [.symbol "swank/find-definitions-for-emacs", argument])) w s := by
  rw [evaluateRequest_find hargument]
  refine evaluates_bind.2 ⟨_, s, evaluates_currentNamespace.2 ⟨rfl, rfl⟩, ?_⟩
  exact evaluates_bind.2 ⟨_, s, evaluates_ofExcept.2 ⟨rfl, rfl⟩, h⟩

end search

/-! ## Two files of one name -/

section twoFiles

/-- A text that defines a name twice. -/
def numbers : String := "; numbers\n(def n 1)\n(def n 2)"

/-- The text in the working directory, and another file of the same name in a directory below. -/
def twoFiles : File.Store :=
  { nodes := [(["w"], .directory), (["w", "lib"], .directory),
      (["w", "a.clj"], .file (Text.Utf8.encode numbers.toList)),
      (["w", "lib", "a.clj"], .file (Text.Utf8.encode "(def m 1)".toList))],
    workingDirectory := ["w"] }

def searchIn (sourcePaths : List String) : Host :=
  { processId := "4242", workingDirectory := "/w", sourcePaths, style := .spawn, coding := .utf8,
    loadDepth := 1 }

/-- What is there once the text has been loaded. -/
def numbersLoaded : Script :=
  { files := twoFiles,
    bindings := (Bindings.define {} "user" "n" ⟨.int 1, none, some ⟨"a.clj", 2⟩⟩).define "user" "n"
      ⟨.int 2, none, some ⟨"a.clj", 3⟩⟩ }

lemma readText_numbers : twoFiles.readText "a.clj" = .ok numbers := by
  decide +kernel

lemma parseAll_numbers : parseAll numbers = .ok
    [(2, .list [.symbol "def", .symbol "n", .int 1]),
      (3, .list [.symbol "def", .symbol "n", .int 2])] := by
  decide +kernel

lemma evaluates_numbers (sourcePaths : List String) :
    ({ files := twoFiles } : Script).Evaluates (evaluateRequest (searchIn sourcePaths)
      (.list [.symbol "swank/load-file", .str "a.clj"])) (.symbol "#'user/n") numbersLoaded := by
  refine (evaluates_load (.inl rfl)).2 ⟨_, _, rfl, rfl, ?_⟩
  refine evaluates_loadFile.2 ⟨0, numbers, _, rfl, readText_numbers, parseAll_numbers, ?_⟩
  refine evaluates_forms_cons.2 ⟨_, _, evaluates_definition_int rfl "n" 1, ?_⟩
  refine evaluates_forms_cons.2 ⟨_, _, evaluates_definition_int rfl "n" 2, ?_⟩
  exact evaluates_pure.2 ⟨rfl, rfl⟩

end twoFiles

/-- A file that has been loaded is a text with forms in it, which have been evaluated one after
another. Whatever is evaluated afterwards, as long as bindings and files are as the load has left
them: a plain name that a form at the top level of the text was the last to define in a namespace
is found there, on the line of this form, in what the search for the name of the file leads to; and
that is the file that was loaded, if the file is found again by its name. -/
theorem loaded_definition_found
    (hpath : EditorCall.Names argument path)
    (h : s.Evaluates (evaluateRequest host (.list [.symbol "swank/load-file", argument])) v s') :
    ∃ (text : String) (items : List (List Char × Sexp)) (inner : Nat) (s₀ : Script),
      s.files.readText path = .ok text ∧ Contents text.toList items ∧
      parseAll text = .ok (located text.toList items) ∧ host.loadDepth = inner + 1 ∧
      (s₀.bindings, s₀.ns, s₀.files) = (s.bindings, s.ns, s.files) ∧
      s₀.Evaluates (fileForms inner path .nil (located text.toList items)) v s' ∧
      ∀ ns name (d : s₀.LastDefinition inner path text.toList items ns name), IsPlain name →
        (∀ (found : String) (t : Script) (argument : Sexp),
          File.findSource s.files path (host.sourcePaths ++ [host.workingDirectory]) = some found →
          t.bindings = s'.bindings → t.files = s.files → t.ns = ns →
          EditorCall.Names argument name →
          t.Evaluates (evaluateRequest host
            (.list [.symbol "swank/find-definitions-for-emacs", argument]))
            (EditorCall.location name found (lineOf text.toList d.start)) t) ∧
        (∃ before, text.toList = before ++ d.start ∧
          lineOf text.toList d.start = 1 + before.count '\n') ∧
        (File.Found s.files host.sourcePaths host.workingDirectory path → ∃ found,
          File.findSource s.files path (host.sourcePaths ++ [host.workingDirectory]) =
            some found ∧ s.files.locate found = s.files.locate path) := by
  obtain ⟨s₁, s₀, hcheck, hcheck', h⟩ := (evaluates_load hpath).1 h
  have hsame := (check_same hcheck').trans (check_same hcheck)
  have hfiles : s₀.files = s.files := congrArg (·.2.2) hsame
  obtain ⟨inner, text, forms, hdepth, hread, hparse, hforms⟩ := evaluates_loadFile.1 h
  rw [hfiles] at hread
  obtain ⟨items, hitems, rfl⟩ := contents_of_parseAll hparse
  refine ⟨text, items, inner, s₀, hread, hitems, hparse, hdepth, hsame, hforms,
    fun ns name d hplain => ?_⟩
  refine ⟨fun found t argument hfound hbindings hfiles hns hname => ?_, ?_, fun hagain => ?_⟩
  · have hsource := d.source hforms
    obtain ⟨definition, hdefinition, hsource⟩ := Option.map_eq_some_iff.1 hsource
    subst hns
    refine evaluates_find hname (evaluates_definitions
      ⟨path, lineOf text.toList d.start⟩ ?_ ?_)
    · have hresolve : t.bindings.resolve? name t.ns = some definition := by
        rw [hbindings, Bindings.resolve?, Bindings.qualify_plain hplain, hdefinition]
      rw [Bindings.describe?, hresolve]
      exact hsource
    · rw [hfiles]
      exact hfound
  · have hmem : (d.start, .list (.symbol "def" :: .symbol name :: d.arguments)) ∈ items :=
      (congrArg (_ ∈ ·) d.items_eq).mpr (by simp)
    obtain ⟨before, hbefore⟩ := hitems.suffix _ hmem
    have hline := lineOf_append before d.start
    refine ⟨before, hbefore.symm, ?_⟩
    rwa [hbefore] at hline
  · exact File.findSource_of_found (File.Store.isFile_of_readText hread) hagain

/-- A file that defines a name twice: the last definition is found, in the file that was loaded,
where the directory that is searched first has no file of its name. -/
theorem loaded_definition_found_numbers :
    ({ files := twoFiles } : Script).Evaluates (evaluateRequest (searchIn ["/w/src"])
      (.list [.symbol "swank/load-file", .str "a.clj"])) (.symbol "#'user/n") numbersLoaded ∧
    numbersLoaded.Evaluates (evaluateRequest (searchIn ["/w/src"])
      (.list [.symbol "swank/find-definitions-for-emacs", .str "n"]))
      (EditorCall.location "n" "/w/a.clj" 3) numbersLoaded ∧
    twoFiles.locate "/w/a.clj" = twoFiles.locate "a.clj" := by
  have hload := evaluates_numbers ["/w/src"]
  refine ⟨hload, ?_, by decide +kernel⟩
  obtain ⟨text, items, inner, s₀, hread, -, hparse, -, -, hforms, hfound⟩ :=
    loaded_definition_found (.inl rfl) hload
  obtain rfl : numbers = text := Except.ok.inj (readText_numbers.symm.trans hread)
  have hitems := Except.ok.inj (hparse.symm.trans parseAll_numbers)
  obtain ⟨first, _, rfl, -, hitems⟩ := List.map_eq_cons_iff.1 hitems
  obtain ⟨⟨start, form⟩, _, rfl, hsecond, hitems⟩ := List.map_eq_cons_iff.1 hitems
  obtain rfl := List.map_eq_nil_iff.1 hitems
  obtain ⟨hline, rfl⟩ := Prod.mk.inj hsecond
  obtain ⟨_, before, hreached, hrest⟩ := (evaluates_forms_append [_] [_]).1 hforms
  obtain ⟨_, _, hdefines, hend⟩ := evaluates_forms_cons.1 hrest
  obtain ⟨rfl, rfl⟩ := evaluates_pure.1 hend
  obtain ⟨hanswer, -, -⟩ := hfound "user" "n" ⟨[first], start, [.int 2], [], rfl, before, _, _, _,
    hreached, hdefines, rfl, List.not_mem_nil⟩ (isPlain_of_not_mem (by decide))
  have hanswer := hanswer "/w/a.clj" numbersLoaded (.str "n") (by decide +kernel) rfl rfl rfl
    (.inl rfl)
  rwa [hline] at hanswer

/-- The same file is not found where the directory that is searched first has another one of its
name. The answer is a line of a file with fewer lines. -/
theorem loaded_definition_shadowed :
    ({ files := twoFiles } : Script).Evaluates (evaluateRequest (searchIn ["/w/lib"])
      (.list [.symbol "swank/load-file", .str "a.clj"])) (.symbol "#'user/n") numbersLoaded ∧
    numbersLoaded.Evaluates (evaluateRequest (searchIn ["/w/lib"])
      (.list [.symbol "swank/find-definitions-for-emacs", .str "n"]))
      (EditorCall.location "n" "/w/lib/a.clj" 3) numbersLoaded ∧
    twoFiles.locate "/w/lib/a.clj" ≠ twoFiles.locate "a.clj" := by
  refine ⟨evaluates_numbers _, ?_, by decide +kernel⟩
  exact evaluates_find (.inl rfl) (evaluates_definitions ⟨"a.clj", 3⟩ (by decide)
    (by decide +kernel))

end Script

end EvalServer
