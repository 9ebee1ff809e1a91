import EvalServer.Frame.Operator
import EvalServer.Proofs.Sexp.RoundTrip
import Mathlib.Data.List.TakeWhile

/-!
# Package separators in values

`Operator.expand` rewrites texts. On the text of a readable value it does what `shim` does to the
value: it changes the name of one symbol, the operator of an evaluation request.
-/

namespace EvalServer

namespace Frame

namespace Operator

/-- `package/name` for `package:name`, the package being a letter and at least one letter or
digit. -/
def qualify (name : List Char) : List Char :=
  let package := name.takeWhile (· ≠ ':')
  match name.dropWhile (· ≠ ':') with
  | [] => name
  | _ :: rest =>
    if isPackage package && package.all isAlphanumeric then package ++ '/' :: rest else name

/-- A form with another name for its operator. -/
def shimForm : List Sexp → List Sexp
  | .symbol name :: args => .symbol (String.ofList (qualify name.toList)) :: args
  | form => form

end Operator

open Operator

/-- An evaluation request with a slash after the package of its operator, and every other value
as it is. -/
def shim : Sexp → Sexp
  | .list (.keyword name :: .list form :: more) =>
    if name = "emacs-rex" then .list (.keyword name :: .list (shimForm form) :: more)
    else .list (.keyword name :: .list form :: more)
  | v => v

namespace Operator

open Sexp Token

/-! ## Names -/

section names

variable {c : Char} {name package rest : List Char}

lemma toNat_of_alpha (hc : c.isAlpha = true) : 65 ≤ c.toNat ∧ c.toNat < 123 := by
  have hval : c.val.toNat = c.toNat := rfl
  have hletters : 'A'.val.toNat = 65 ∧ 'Z'.val.toNat = 90 ∧ 'a'.val.toNat = 97 ∧
      'z'.val.toNat = 122 := by
    decide
  rcases Bool.or_eq_true_iff.1 hc with hupper | hlower
  · have hupper : 'A'.val ≤ c.val ∧ c.val ≤ 'Z'.val := of_decide_eq_true hupper
    simp only [UInt32.le_iff_toNat_le, hval] at hupper
    omega
  · have hlower : 'a'.val ≤ c.val ∧ c.val ≤ 'z'.val :=
      (Bool.and_eq_true_iff.1 hlower).imp of_decide_eq_true of_decide_eq_true
    simp only [UInt32.le_iff_toNat_le, hval] at hlower
    omega

lemma toNat_of_alphanumeric (hc : isAlphanumeric c = true) : c.toNat < 123 := by
  rcases Bool.or_eq_true_iff.1 hc with hletter | hdigit
  · exact (toNat_of_alpha hletter).2
  · have hval : c.val.toNat = c.toNat := rfl
    have hnine : '9'.val.toNat = 57 := by decide
    simp only [Char.isDigit, Bool.and_eq_true, decide_eq_true_eq, UInt32.le_iff_toNat_le,
      hval] at hdigit
    omega

lemma plain_alphanumeric (hc : isAlphanumeric c = true) :
    isDelimiter c = false ∧ c ≠ ':' ∧ c ≠ '\x27' := by
  have hsmall : ∀ n, n < 123 → isAlphanumeric (Char.ofNat n) = true →
      isDelimiter (Char.ofNat n) = false ∧ Char.ofNat n ≠ ':' ∧ Char.ofNat n ≠ '\x27' := by
    decide
  rw [← Char.ofNat_toNat c] at hc ⊢
  exact hsmall c.toNat (toNat_of_alphanumeric (by rwa [Char.ofNat_toNat] at hc)) hc

/-- No number starts with a letter. -/
lemma toInt64?_of_alpha (hc : c.isAlpha = true) (rest : List Char) :
    Text.Decimal.toInt64? (c :: rest) = none := by
  have hletter := (toNat_of_alpha hc).1
  have hdigit : Text.Decimal.digit? c = none := by
    rw [Text.Decimal.digit?, if_neg]
    simp only [Bool.and_eq_true, decide_eq_true_eq]
    omega
  have hsign : c ≠ '-' ∧ c ≠ '+' := by
    constructor <;> rintro rfl <;> revert hc <;> decide
  rw [Text.Decimal.toInt64?_eq, Text.Decimal.toInt?]
  · simp [Text.Decimal.toNat?, Text.Decimal.digitsFrom, hdigit]
  · rintro _ ⟨⟩
    exact hsign.1 rfl
  · rintro _ ⟨⟩
    exact hsign.2 rfl

lemma expandFront_split (hpackage : ∀ d ∈ package, isAlphanumeric d = true)
    (hc : isAlphanumeric c = false) : expandFront (package ++ c :: rest) =
      if c = ':' ∧ isPackage package = true then package ++ '/' :: rest
      else package ++ c :: rest := by
  have htake : (package ++ c :: rest).takeWhile isAlphanumeric = package := by
    rw [List.takeWhile_append_of_pos hpackage, List.takeWhile_cons_of_neg (by simp [hc]),
      List.append_nil]
  simp only [expandFront, htake, List.drop_left]
  by_cases hcolon : c = ':'
  · subst hcolon
    simp
  · rw [if_neg (fun h => hcolon h.1)]
    split
    · next heq => exact absurd (List.cons.inj heq).1 hcolon
    · rfl

lemma expandFront_of_all (hrest : ∀ d ∈ rest, isAlphanumeric d = true) :
    expandFront rest = rest := by
  simp [expandFront, List.takeWhile_eq_self_iff.2 hrest]

lemma qualify_of_all (hname : ∀ d ∈ name, isAlphanumeric d = true) : qualify name = name := by
  have hdrop : name.dropWhile (· ≠ ':') = [] := by
    refine List.dropWhile_eq_nil_iff.2 fun d hd => ?_
    simpa using (plain_alphanumeric (hname d hd)).2.1
  rw [qualify, hdrop]

lemma qualify_split (hpackage : ∀ d ∈ package, isAlphanumeric d = true)
    (hc : isAlphanumeric c = false) : qualify (package ++ c :: rest) =
      if c = ':' ∧ isPackage package = true then package ++ '/' :: rest
      else package ++ c :: rest := by
  have hfree : ∀ d ∈ package, (decide (d ≠ ':')) = true := fun d hd => by
    simpa using (plain_alphanumeric (hpackage d hd)).2.1
  by_cases hcolon : c = ':'
  · subst hcolon
    have htake : (package ++ ':' :: rest).takeWhile (· ≠ ':') = package := by
      rw [List.takeWhile_append_of_pos hfree, List.takeWhile_cons_of_neg (by simp),
        List.append_nil]
    have hdrop : (package ++ ':' :: rest).dropWhile (· ≠ ':') = ':' :: rest := by
      rw [List.dropWhile_append_of_pos hfree, List.dropWhile_cons_of_neg (by simp)]
    have hall : package.all isAlphanumeric = true := List.all_eq_true.2 hpackage
    simp only [qualify, htake, hdrop, hall, Bool.and_true, true_and]
  · -- the first colon, if there is one, stands after a character no package name has
    have htake : (package ++ c :: rest).takeWhile (· ≠ ':') =
        package ++ c :: rest.takeWhile (· ≠ ':') := by
      rw [List.takeWhile_append_of_pos hfree, List.takeWhile_cons_of_pos (by simpa using hcolon)]
    have hall : (package ++ c :: rest.takeWhile (· ≠ ':')).all isAlphanumeric = false := by
      simp [hc]
    rw [if_neg (fun h => hcolon h.1)]
    simp only [qualify, htake, hall, Bool.and_false]
    split <;> rfl

/-- A name is a run of letters and digits, or one with another character after it. -/
lemma exists_split (name : List Char) : (∀ d ∈ name, isAlphanumeric d = true) ∨
    ∃ package c rest, name = package ++ c :: rest ∧ (∀ d ∈ package, isAlphanumeric d = true) ∧
      isAlphanumeric c = false := by
  induction name with
  | nil => exact .inl (by simp)
  | cons d name ih =>
    by_cases hd : isAlphanumeric d = true
    · rcases ih with hall | ⟨package, c, rest, rfl, hpackage, hc⟩
      · exact .inl (List.forall_mem_cons.2 ⟨hd, hall⟩)
      · exact .inr ⟨d :: package, c, rest, rfl, List.forall_mem_cons.2 ⟨hd, hpackage⟩, hc⟩
    · exact .inr ⟨[], d, name, rfl, by simp, by simpa using hd⟩

/-- The text of a form changes where its first name ends. -/
lemma expandFront_name {d : Char} (hd : isDelimiter d = true) (name tail : List Char) :
    expandFront (name ++ d :: tail) = qualify name ++ d :: tail := by
  have hdelimiter : isAlphanumeric d = false := by
    by_contra h
    rw [(plain_alphanumeric (by simpa using h)).1] at hd
    cases hd
  have hcolon : d ≠ ':' := by
    rintro rfl
    revert hd
    decide
  rcases exists_split name with hall | ⟨package, c, rest, rfl, hpackage, hc⟩
  · rw [expandFront_split hall hdelimiter, qualify_of_all hall, if_neg (fun h => hcolon h.1)]
  · rw [qualify_split hpackage hc, List.append_assoc, List.cons_append,
      expandFront_split hpackage hc]
    split <;> simp

/-- A name with a package is a symbol, whichever way the package is set off. -/
lemma isSymbol_packaged {separator : Char} (hseparator : separator = ':' ∨ separator = '/')
    (hpackage : ∀ d ∈ package, isAlphanumeric d = true) (hpkg : isPackage package = true)
    (hrest : ∀ d ∈ rest, isDelimiter d = false) : IsSymbol (package ++ separator :: rest) := by
  match package, hpkg with
  | a :: b :: package, (ha : a.isAlpha = true) =>
    have hplain := plain_alphanumeric (hpackage a List.mem_cons_self)
    have hmem : separator ∈ a :: b :: package ++ separator :: rest := by simp
    refine ⟨⟨by simp, ?_, ?_⟩, ?_, ?_, ?_, ?_⟩
    · intro d hd
      rcases List.mem_append.1 hd with hd | hd
      · exact (plain_alphanumeric (hpackage d hd)).1
      · rcases List.mem_cons.1 hd with rfl | hd
        · rcases hseparator with rfl | rfl <;> decide
        · exact hrest d hd
    · rintro _ ⟨⟩
      exact hplain.2.2 rfl
    · intro h
      rw [h] at hmem
      rcases hseparator with rfl | rfl <;> revert hmem <;> decide
    · intro h
      rw [h] at hmem
      rcases hseparator with rfl | rfl <;> revert hmem <;> decide
    · rintro _ _ ⟨⟩
      exact hplain.2.1 rfl
    · exact toInt64?_of_alpha ha _

lemma isSymbol_qualify (hname : IsSymbol name) : IsSymbol (qualify name) := by
  rcases exists_split name with hall | ⟨package, c, rest, rfl, hpackage, hc⟩
  · rwa [qualify_of_all hall]
  · rw [qualify_split hpackage hc]
    split
    · next h =>
      refine isSymbol_packaged (.inr rfl) hpackage h.2 fun d hd => ?_
      exact hname.plain d (List.mem_append_right _ (List.mem_cons_of_mem _ hd))
    · exact hname

end names

/-! ## Texts of requests -/

/-- The characters after the first of some items and the end of their list. -/
def following (items : List Sexp) (tail : List Char) : List Char :=
  match items with
  | [] => ')' :: tail
  | _ => ' ' :: (charsAll items ++ ')' :: tail)

lemma charsAll_cons (v : Sexp) (items : List Sexp) (tail : List Char) :
    charsAll (v :: items) ++ ')' :: tail = v.chars ++ following items tail := by
  cases items with
  | nil => rfl
  | cons w items =>
    rw [charsAll, List.append_assoc]
    · rfl
    · exact List.cons_ne_nil _ _

lemma exists_following (items : List Sexp) (tail : List Char) :
    ∃ d rest, isDelimiter d = true ∧ following items tail = d :: rest := by
  cases items with
  | nil => exact ⟨')', tail, by decide, rfl⟩
  | cons v items => exact ⟨' ', _, by decide, rfl⟩

/-- The text of a request from its operator on. -/
def request (form more : List Sexp) : List Char :=
  charsAll form ++ ')' :: following more []

lemma opening_eq : opening = '(' :: ((Sexp.keyword "emacs-rex").chars ++ [' ', '(']) := by
  decide

lemma chars_request (form more : List Sexp) :
    (Sexp.list (.keyword "emacs-rex" :: .list form :: more)).chars =
      opening ++ request form more := by
  have hname := charsAll_cons (.keyword "emacs-rex") (.list form :: more) []
  have hform : charsAll (.list form :: more) ++ [')'] = '(' :: request form more := by
    rw [charsAll_cons, chars, List.cons_append, List.append_assoc]
    rfl
  rw [following, hform] at hname
  · rw [chars, hname, opening_eq, List.cons_append, List.append_assoc]
    rfl
  · simp

lemma after?_append (start rest : List Char) : after? start (start ++ rest) = some rest := by
  induction start with
  | nil => rfl
  | cons c start ih => rw [List.cons_append, after?, if_pos rfl, ih]

lemma eq_of_after? {start text rest : List Char} (h : after? start text = some rest) :
    text = start ++ rest := by
  induction start generalizing text with
  | nil => exact Option.some.inj h
  | cons c start ih =>
    cases text with
    | nil => cases h
    | cons d text =>
      rw [after?] at h
      split at h
      · next hc => rw [hc, ih h, List.cons_append]
      · cases h

lemma expand_opening (rest : List Char) :
    expand (opening ++ rest) = opening ++ expandFront rest := by
  rw [expand, after?_append]

/-- The name of an operator that is no symbol stays as it is. -/
lemma qualify_atom {name : List Char} (hname : ':' ∉ name ∨ ∃ rest, name = ':' :: rest) :
    qualify name = name := by
  rcases hname with hfree | ⟨rest, rfl⟩
  · have hdrop : name.dropWhile (· ≠ ':') = [] := by
      refine List.dropWhile_eq_nil_iff.2 fun d hd => ?_
      simpa using ne_of_mem_of_not_mem hd hfree
    rw [qualify, hdrop]
  · rfl

lemma expandFront_other {c : Char} (hc : isDelimiter c = true) (rest : List Char) :
    expandFront (c :: rest) = c :: rest := by
  exact expandFront_name hc [] rest

lemma expandFront_form (form more : List Sexp) :
    expandFront (request form more) = request (shimForm form) more := by
  cases form with
  | nil => exact expandFront_other (by decide) _
  | cons v args =>
    obtain ⟨d, tail, hd, hfollowing⟩ := exists_following args (following more [])
    have hatom : ':' ∉ v.chars ∨ (∃ rest, v.chars = ':' :: rest) →
        expandFront (request (v :: args) more) = request (v :: args) more := by
      intro hv
      rw [request, charsAll_cons, hfollowing, expandFront_name hd, qualify_atom hv]
    -- of the other heads a keyword starts with a colon, and strings and lists with a delimiter
    cases v with
    | symbol name =>
      rw [shimForm, request, request, charsAll_cons, charsAll_cons, hfollowing, chars, chars,
        String.toList_ofList]
      exact expandFront_name hd _ tail
    | nil => exact hatom (.inl (by decide))
    | t => exact hatom (.inl (by decide))
    | int n => exact hatom (.inl fun h => (plain_ofInt n.toInt ':' h).2.2.1 rfl)
    | keyword name => exact hatom (.inr ⟨_, rfl⟩)
    | str text =>
      rw [shimForm, request, charsAll_cons]
      · exact expandFront_other (by decide) _
      · simp
    | list items =>
      rw [shimForm, request, charsAll_cons]
      · exact expandFront_other (by decide) _
      · simp

/-! ## Values with the text of a request -/

section texts

variable {v : Sexp} {s : List Char}

lemma atom_or_nested (hv : v.Legible) : (IsName v.chars ∧ ofAtom v.chars = v) ∨
    (∃ text, v = .str text) ∨ ∃ items, v = .list items := by
  cases v with
  | nil => exact .inl ⟨⟨by decide, plain_of_all (by decide), by simp [chars]⟩, rfl⟩
  | t => exact .inl ⟨⟨by decide, plain_of_all (by decide), by simp [chars]⟩, rfl⟩
  | int n => exact .inl ⟨isName_ofInt n.toInt, ofAtom_ofInt n⟩
  | symbol name => exact .inl ⟨IsSymbol.toIsName hv, ofAtom_symbol hv⟩
  | keyword name =>
    refine .inl ⟨⟨List.cons_ne_nil _ _, ?_, by simp [chars]⟩, ofAtom_keyword hv.1⟩
    exact List.forall_mem_cons.2 ⟨by decide, hv.2⟩
  | str text => exact .inr (.inl ⟨text, rfl⟩)
  | list items => exact .inr (.inr ⟨items, rfl⟩)

lemma list_of_chars (hv : v.Legible) {rest : List Char} (h : v.chars ++ s = '(' :: rest) :
    ∃ items, v = .list items := by
  rcases atom_or_nested hv with ⟨hname, -⟩ | ⟨text, rfl⟩ | hlist
  · obtain ⟨c, name, hchars⟩ := List.exists_cons_of_ne_nil hname.ne_nil
    rw [hchars] at h
    have hc := hname.plain c (hchars ▸ List.mem_cons_self)
    rw [(List.cons.inj h).1] at hc
    exact absurd hc (by decide)
  · cases h
  · exact hlist

/-- A run of characters that no delimiter interrupts is cut off at the first one. -/
lemma append_inj_of_plain {name name' s t : List Char}
    (hname : ∀ c ∈ name, isDelimiter c = false) (hname' : ∀ c ∈ name', isDelimiter c = false)
    {c d : Char} (hc : isDelimiter c = true) (hd : isDelimiter d = true)
    (h : name ++ c :: s = name' ++ d :: t) : name = name' ∧ c :: s = d :: t := by
  induction name generalizing name' with
  | nil =>
    cases name' with
    | nil => exact ⟨rfl, h⟩
    | cons b name' =>
      rw [(List.cons.inj h).1, hname' b List.mem_cons_self] at hc
      cases hc
  | cons a name ih =>
    cases name' with
    | nil =>
      rw [← (List.cons.inj h).1, hname a List.mem_cons_self] at hd
      cases hd
    | cons b name' =>
      obtain ⟨rfl, hcut⟩ := List.cons.inj h
      obtain ⟨rfl, hrest⟩ := ih (List.forall_mem_cons.1 hname).2
        (List.forall_mem_cons.1 hname').2 hcut
      exact ⟨rfl, hrest⟩

lemma keyword_of_chars (hv : v.Legible) {c d : Char} {rest : List Char} {name : String}
    (hname : (Sexp.keyword name).Legible) (hc : isDelimiter c = true) (hd : isDelimiter d = true)
    (h : v.chars ++ c :: s = (Sexp.keyword name).chars ++ d :: rest) :
    v = .keyword name ∧ c :: s = d :: rest := by
  have hplain : ∀ c ∈ (Sexp.keyword name).chars, isDelimiter c = false :=
    List.forall_mem_cons.2 ⟨by decide, hname.2⟩
  rcases atom_or_nested hv with ⟨hchars, hatom⟩ | ⟨text, rfl⟩ | ⟨items, rfl⟩
  · obtain ⟨heq, hrest⟩ := append_inj_of_plain hchars.plain hplain hc hd h
    rw [← hatom, heq]
    exact ⟨ofAtom_keyword hname.1, hrest⟩
  · cases h
  · cases h

end texts

lemma request_of_chars {v : Sexp} (hv : v.Legible) {rest : List Char}
    (h : v.chars = opening ++ rest) :
    ∃ form more, v = .list (.keyword "emacs-rex" :: .list form :: more) := by
  have hname : (Sexp.keyword "emacs-rex").Legible := ⟨by decide, plain_of_all (by decide)⟩
  rw [opening_eq, List.cons_append, List.append_assoc] at h
  obtain ⟨items, rfl⟩ := list_of_chars (s := []) hv (by rw [List.append_nil]; exact h)
  rw [chars] at h
  replace h := (List.cons.inj h).2
  cases items with
  | nil => cases h
  | cons head items =>
    obtain ⟨d, tail, hd, hfollowing⟩ := exists_following items []
    rw [charsAll_cons, hfollowing] at h
    -- the first item ends where the keyword does, so it is the keyword
    obtain ⟨rfl, hrest⟩ := keyword_of_chars hv.1 hname hd (by decide) h
    rw [← hfollowing] at hrest
    cases items with
    | nil => cases hrest
    | cons w more =>
      rw [following, charsAll_cons] at hrest
      · obtain ⟨form, rfl⟩ := list_of_chars hv.2.1 (List.cons.inj hrest).2
        exact ⟨form, more, rfl⟩
      · exact List.cons_ne_nil _ _

/-- On the text of a legible value the rewriting is that of the value. -/
theorem expand_chars {v : Sexp} (hv : v.Legible) : expand v.chars = (shim v).chars := by
  by_cases hrequest : ∃ form more, v = .list (.keyword "emacs-rex" :: .list form :: more)
  · obtain ⟨form, more, rfl⟩ := hrequest
    rw [chars_request, expand_opening, expandFront_form, ← chars_request, shim, if_pos rfl]
  · have hother : shim v = v := by
      unfold shim
      split
      · next name form more =>
        refine if_neg ?_
        rintro rfl
        exact hrequest ⟨form, more, rfl⟩
      · rfl
    rw [hother, expand]
    split
    · next rest hafter => exact absurd (request_of_chars hv (eq_of_after? hafter)) hrequest
    · rfl

/-! ## Readable values -/

lemma legible_shimForm {form : List Sexp} (hform : LegibleAll form) :
    LegibleAll (shimForm form) := by
  unfold shimForm
  split
  · next name args =>
    refine ⟨?_, hform.2⟩
    change IsSymbol (String.ofList (qualify name.toList)).toList
    rw [String.toList_ofList]
    exact isSymbol_qualify hform.1
  · exact hform

lemma nesting_shimForm (form : List Sexp) : nestingAll (shimForm form) = nestingAll form := by
  unfold shimForm
  split <;> rfl

lemma readable_shim {v : Sexp} (hv : v.Readable) : (shim v).Readable := by
  obtain ⟨hdepth, hlegible⟩ := hv
  unfold shim
  split
  · next name form more =>
    split
    · refine ⟨?_, hlegible.1, legible_shimForm hlegible.2.1, hlegible.2.2⟩
      simpa only [nesting, nestingAll, nesting_shimForm] using hdepth
    · exact ⟨hdepth, hlegible⟩
  · exact ⟨hdepth, hlegible⟩

/-- The rewritten text of a readable value reads as the rewritten value. -/
theorem parse_expandText {v : Sexp} (hv : v.Readable) :
    Sexp.parse (expandText v.print) = .ok (shim v) := by
  have htext : expandText v.print = (shim v).print := by
    rw [expandText, print, String.toList_ofList, expand_chars hv.2]
    rfl
  rw [htext, parse_print (readable_shim hv)]

end Operator

end Frame

end EvalServer
