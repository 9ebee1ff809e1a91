import EvalServer.Evaluation.EditorCall
import EvalServer.Message.Client
import EvalServer.Proofs.Evaluation.Values
import EvalServer.Proofs.Frame.Coding
import EvalServer.Proofs.Frame.Operator
import EvalServer.Proofs.Sexp.Heads
import EvalServer.Proofs.Sexp.Recognition
import EvalServer.Text.Utf8

/-!
# Requests in two spellings

The rewriting of package separators puts a slash for one colon of a text. It finds the colon in the
bytes of the text, and what is read afterwards differs from what was to be read in one name: the
operator of a request. So a request means the same in both spellings.
-/

namespace EvalServer

namespace Frame.Operator

open Sexp Token Text

variable {package rest : List Char} {c : Char}

/-! ## Bytes -/

def isAlphanumericByte (b : UInt8) : Bool :=
  isAlphanumeric (Char.ofNat b.toNat)

def isAlphaByte (b : UInt8) : Bool :=
  (Char.ofNat b.toNat).isAlpha

/-- The place, in bytes, of the colon that a slash is put for. -/
def cut? (text : List Char) : Option Nat :=
  match after? opening text with
  | none => none
  | some rest =>
    let bytes := Utf8.encode rest
    let count := (bytes.takeWhile isAlphanumericByte).length
    if 2 ≤ count ∧ bytes.head?.any isAlphaByte ∧ bytes[count]? = some 0x3A then
      some ((Utf8.encode opening).length + count)
    else none

lemma encode_append (front rest : List Char) :
    Utf8.encode (front ++ rest) = Utf8.encode front ++ Utf8.encode rest :=
  List.flatMap_append

lemma byte_alphanumeric (hc : isAlphanumeric c = true) :
    Utf8.encodeChar c = [UInt8.ofNat c.toNat] ∧ Char.ofNat (UInt8.ofNat c.toNat).toNat = c := by
  have hsmall := toNat_of_alphanumeric hc
  have hbyte : (UInt8.ofNat c.toNat).toNat = c.toNat :=
    UInt8.toNat_ofNat_of_lt' (Nat.lt_trans hsmall (by decide))
  refine ⟨by simp [Utf8.encodeChar, Nat.lt_trans hsmall (by decide : 123 < 0x80)], ?_⟩
  rw [hbyte, Char.ofNat_toNat]

/-- The first byte of a character stands for an ASCII character only if the character is that. -/
lemma byte_other (hc : isAlphanumeric c = false) : ∃ b more, Utf8.encodeChar c = b :: more ∧
    isAlphanumericByte b = false ∧ (b = 0x3A ↔ c = ':') := by
  obtain ⟨b, more, hencode, hfront⟩ := Utf8.front_encodeChar c []
  have hascii : b < 0x80 → Char.ofNat b.toNat = c := by
    intro hb
    rw [Utf8.front, if_pos hb] at hfront
    exact (Utf8.Front.char.inj hfront).1
  refine ⟨b, more, hencode, ?_, ?_, ?_⟩
  · by_contra hb
    have hb : isAlphanumeric (Char.ofNat b.toNat) = true := by simpa [isAlphanumericByte] using hb
    have hsmall := toNat_of_alphanumeric hb
    rw [Utf8.toNat_ofNat (.inl (Nat.lt_trans b.toNat_lt (by decide)))] at hsmall
    rw [hascii (UInt8.lt_iff_toNat_lt.2 (Nat.lt_trans hsmall (by decide))), hc] at hb
    cases hb
  · rintro rfl
    exact (hascii (by decide)).symm
  · rintro rfl
    have hcolon : Utf8.encodeChar ':' = [0x3A] := by decide
    rw [hcolon] at hencode
    exact (List.cons.inj hencode).1.symm

lemma encode_package (hpackage : ∀ d ∈ package, isAlphanumeric d = true) :
    Utf8.encode package = package.map fun d => UInt8.ofNat d.toNat := by
  induction package with
  | nil => rfl
  | cons d package ih =>
    obtain ⟨hd, hpackage⟩ := List.forall_mem_cons.1 hpackage
    change Utf8.encodeChar d ++ Utf8.encode package = _
    rw [(byte_alphanumeric hd).1, ih hpackage]
    rfl

lemma takeWhile_package (hpackage : ∀ d ∈ package, isAlphanumeric d = true) (more : List UInt8)
    (hmore : more.takeWhile isAlphanumericByte = []) :
    (Utf8.encode package ++ more).takeWhile isAlphanumericByte = Utf8.encode package := by
  rw [List.takeWhile_append_of_pos, hmore, List.append_nil]
  intro d hd
  rw [encode_package hpackage] at hd
  obtain ⟨c, hc, rfl⟩ := List.mem_map.1 hd
  rw [isAlphanumericByte, (byte_alphanumeric (hpackage c hc)).2, hpackage c hc]

lemma isPackage_iff (hpackage : ∀ d ∈ package, isAlphanumeric d = true) (more : List UInt8) :
    isPackage package = true ↔ 2 ≤ package.length ∧
      (Utf8.encode package ++ more).head?.any isAlphaByte = true := by
  match package with
  | [] => simp [isPackage]
  | [a] => simp [isPackage]
  | a :: b :: package =>
    have ha : isAlphaByte (UInt8.ofNat a.toNat) = a.isAlpha := by
      rw [isAlphaByte, (byte_alphanumeric (hpackage a List.mem_cons_self)).2]
    rw [encode_package hpackage]
    simp [isPackage, ha]

lemma cut_split (hpackage : ∀ d ∈ package, isAlphanumeric d = true)
    (hc : isAlphanumeric c = false) (rest : List Char) :
    cut? (opening ++ (package ++ c :: rest)) =
      if c = ':' ∧ isPackage package = true then some (Utf8.encode (opening ++ package)).length
      else none := by
  obtain ⟨b, more, hencode, hb, hcolon⟩ := byte_other hc
  have hbytes : Utf8.encode (package ++ c :: rest) =
      Utf8.encode package ++ b :: (more ++ Utf8.encode rest) := by
    rw [encode_append]
    change _ ++ (Utf8.encodeChar c ++ Utf8.encode rest) = _
    rw [hencode]
    rfl
  have hlength : (Utf8.encode package).length = package.length := by
    rw [encode_package hpackage, List.length_map]
  have htake := takeWhile_package hpackage (b :: (more ++ Utf8.encode rest))
    (List.takeWhile_cons_of_neg (by simp [hb]))
  simp only [cut?, after?_append, hbytes, htake]
  rw [List.getElem?_append_right le_rfl, Nat.sub_self, List.getElem?_cons_zero, hlength,
    encode_append, List.length_append, hlength]
  congr 1
  rw [isPackage_iff hpackage (b :: (more ++ Utf8.encode rest)), ← hcolon]
  simp [and_left_comm, and_comm]

lemma cut_of_all (hpackage : ∀ d ∈ package, isAlphanumeric d = true) :
    cut? (opening ++ package) = none := by
  have htake := takeWhile_package hpackage [] rfl
  rw [List.append_nil] at htake
  simp only [cut?, after?_append, htake]
  simp

/-! ## Texts -/

/-- The text starts like a request, with an operator that is set off from its package by a colon. -/
structure Spelled (text : String) (package rest : List Char) : Prop where
  text_eq : text.toList = opening ++ (package ++ ':' :: rest)
  alphanumeric : ∀ d ∈ package, isAlphanumeric d = true
  isPackage : isPackage package = true

/-- A request to evaluate a form. -/
def evaluation (form : Sexp) (more : List Sexp) : Sexp :=
  .list (.keyword "emacs-rex" :: form :: more)

/-- Two readings fail alike, or give the same request but for the name of its operator. -/
def DifferInName (name name' : List Char) : Except ReadError Sexp → Except ReadError Sexp → Prop
  | .error e, .error e' => e = e'
  | .ok v, .ok v' => ∃ args more,
    v = evaluation (.list (.symbol (String.ofList name) :: args)) more ∧
    v' = evaluation (.list (.symbol (String.ofList name') :: args)) more
  | _, _ => False

/-- What the rewriting does to a text, and to what is read from it. -/
structure Rewritten (text : String) : Prop where
  /-- The place that is found in the bytes lies between characters, and the one behind it is the
  colon. -/
  cut : ∀ n, cut? text.toList = some n → ∃ before after, text.toList = before ++ ':' :: after ∧
    (Utf8.encode before).length = n ∧ (expandText text).toList = before ++ '/' :: after
  uncut : cut? text.toList = none → expandText text = text
  length_eq : (expandText text).length = text.length
  size_eq : (Utf8.encode (expandText text).toList).length = (Utf8.encode text.toList).length
  idempotent : expandText (expandText text) = expandText text
  /-- Of a text that is changed at all only the name of the operator is read in another way. -/
  spelled : ∀ package rest, Spelled text package rest → ∃ name after, rest = name ++ after ∧
    DifferInName (package ++ ':' :: name) (package ++ '/' :: name)
      (parse text) (parse (expandText text))
  other : (∀ package rest, ¬ Spelled text package rest) →
    expandText text = text ∧ parse (expandText text) = parse text

section texts

variable {text : String}

lemma Spelled.expandText_eq (h : Spelled text package rest) :
    (expandText text).toList = opening ++ (package ++ '/' :: rest) := by
  rw [expandText, String.toList_ofList, h.text_eq, expand_opening,
    expandFront_split h.alphanumeric (by decide), if_pos ⟨rfl, h.isPackage⟩]

lemma Spelled.cut_eq (h : Spelled text package rest) :
    cut? text.toList = some (Utf8.encode (opening ++ package)).length := by
  rw [h.text_eq, cut_split h.alphanumeric (by decide), if_pos ⟨rfl, h.isPackage⟩]

/-- A text is of the form that is rewritten, or it is not cut and stays as it is. -/
lemma spelled_or_same (text : String) : (∃ package rest, Spelled text package rest) ∨
    cut? text.toList = none ∧ expandText text = text := by
  have hsame : expand text.toList = text.toList → expandText text = text := by
    intro h
    rw [expandText, h, String.ofList_toList]
  cases hafter : after? opening text.toList with
  | none => exact .inr ⟨by rw [cut?, hafter], hsame (by rw [expand, hafter])⟩
  | some rest =>
    have htext := eq_of_after? hafter
    rcases exists_split rest with hall | ⟨package, c, rest, rfl, hpackage, hc⟩
    · refine .inr ⟨by rw [htext, cut_of_all hall], hsame ?_⟩
      rw [htext, expand_opening, expandFront_of_all hall]
    · by_cases hspelled : c = ':' ∧ isPackage package = true
      · obtain ⟨rfl, hpkg⟩ := hspelled
        exact .inl ⟨package, rest, htext, hpackage, hpkg⟩
      · refine .inr ⟨by rw [htext, cut_split hpackage hc, if_neg hspelled], hsame ?_⟩
        rw [htext, expand_opening, expandFront_split hpackage hc, if_neg hspelled]

/-- What is read behind the name of an operator does not depend on the name. -/
lemma parse_named {tail : List Char} (htail : Ends tail) :
    (∃ e, ∀ (text : String) name, text.toList = opening ++ (name ++ tail) → IsSymbol name →
      parse text = .error e) ∨
    ∃ args more, ∀ (text : String) name, text.toList = opening ++ (name ++ tail) → IsSymbol name →
      parse text = .ok (evaluation (.list (.symbol (String.ofList name) :: args)) more) := by
  let R := fun x => ({ single := true } : Reader).withStack
    [.list [x], .list [.keyword "emacs-rex"]]
  have hR : Reader.Holds (.keyword "emacs-rex") R := .inside { single := true } [] [] rfl rfl
  have hparse : ∀ (text : String) name, text.toList = opening ++ (name ++ tail) → IsSymbol name →
      Reader.run true text.toList = ((R (.symbol (String.ofList name))).acceptAll
        (lex .between 1 tail)).bind Reader.settle := by
    intro text name htext hname
    have hkeyword : IsName (Sexp.keyword "emacs-rex").chars :=
      ⟨by decide, plain_of_all (by decide), by simp [chars]⟩
    have hspace : Ends (' ' :: '(' :: (name ++ tail)) := ends_cons (by decide) _
    have hatom : ofAtom name = .symbol (String.ofList name) := by
      have hsymbol : IsSymbol (String.ofList name).toList → _ := ofAtom_symbol
      rw [String.toList_ofList] at hsymbol
      exact hsymbol hname
    have hfront : ∀ rest, Reader.acceptAll { single := true } ((1, .opening) ::
        (1, .atom (Sexp.keyword "emacs-rex").chars) :: (1, .opening) :: (1, .atom name) :: rest) =
          (R (ofAtom name)).acceptAll rest := fun _ => rfl
    rw [Reader.run_eq, htext, opening_eq, List.cons_append, List.append_assoc, lex_opening]
    change ((Reader.acceptAll _ (_ :: lex .between 1 (_ ++ ' ' :: '(' :: (name ++ tail)))).bind _) =
      _
    rw [lex_name hkeyword hspace, lex_space, lex_opening, lex_name hname.toIsName htail, hfront,
      hatom]
  rcases hR.read (lex .between 1 tail) with ⟨e, he⟩ | ⟨line, args, more, hread⟩
  · refine .inl ⟨e, fun text name htext hname => ?_⟩
    rw [parse, hparse text name htext hname, he]
  · refine .inr ⟨args, more, fun text name htext hname => ?_⟩
    rw [parse, hparse text name htext hname, hread]
    rfl

lemma Spelled.reads (h : Spelled text package rest) : ∃ name after, rest = name ++ after ∧
    DifferInName (package ++ ':' :: name) (package ++ '/' :: name)
      (parse text) (parse (expandText text)) := by
  obtain ⟨name, after, rfl, hplain, hends⟩ := exists_plain rest
  have hcolon : IsSymbol (package ++ ':' :: name) :=
    isSymbol_packaged (.inl rfl) h.alphanumeric h.isPackage hplain
  have hslash : IsSymbol (package ++ '/' :: name) :=
    isSymbol_packaged (.inr rfl) h.alphanumeric h.isPackage hplain
  have htext : text.toList = opening ++ (package ++ ':' :: name ++ after) := by
    rw [h.text_eq, List.append_assoc, List.cons_append]
  have htext' : (expandText text).toList = opening ++ (package ++ '/' :: name ++ after) := by
    rw [h.expandText_eq, List.append_assoc, List.cons_append]
  refine ⟨name, after, rfl, ?_⟩
  rcases parse_named hends with ⟨e, he⟩ | ⟨args, more, hread⟩
  · rw [he _ _ htext hcolon, he _ _ htext' hslash]
    exact rfl
  · rw [hread _ _ htext hcolon, hread _ _ htext' hslash]
    exact ⟨args, more, rfl, rfl⟩

lemma Spelled.idempotent (h : Spelled text package rest) :
    expandText (expandText text) = expandText text := by
  have hagain : expand (expandText text).toList = (expandText text).toList := by
    rw [h.expandText_eq, expand_opening, expandFront_split h.alphanumeric (by decide),
      if_neg (by simp)]
  rw [expandText, hagain, String.ofList_toList]

lemma Spelled.rewritten (h : Spelled text package rest) : Rewritten text := by
  have hlength : (expandText text).toList.length = text.toList.length := by
    rw [h.expandText_eq, h.text_eq]
    simp
  have hsize : (Utf8.encode (expandText text).toList).length =
      (Utf8.encode text.toList).length := by
    rw [h.expandText_eq, h.text_eq]
    simp only [encode_append, List.length_append]
    rfl
  refine ⟨fun n hn => ?_, fun hnone => ?_, ?_, hsize, h.idempotent,
    fun _ _ hspelled => hspelled.reads, fun hnone => absurd h (hnone _ _)⟩
  · have hcut := h.cut_eq.symm.trans hn
    refine ⟨opening ++ package, rest, ?_, Option.some.inj hcut, ?_⟩
    · rw [h.text_eq, List.append_assoc]
    · rw [h.expandText_eq, List.append_assoc]
  · have hcut := h.cut_eq.symm.trans hnone
    cases hcut
  · rw [← String.length_toList, hlength, String.length_toList]

theorem rewritten (text : String) : Rewritten text := by
  rcases spelled_or_same text with ⟨package, rest, h⟩ | ⟨hcut, hsame⟩
  · exact h.rewritten
  · refine ⟨fun n hn => ?_, fun _ => hsame, by rw [hsame], by rw [hsame], by rw [hsame, hsame],
      fun _ _ hspelled => hspelled.reads, fun _ => ⟨hsame, by rw [hsame]⟩⟩
    rw [hcut] at hn
    cases hn

end texts

/-! ## Requests -/

/-- The call of an editor operation, set off from its package by a separator. -/
def call (separator op : String) (args : List Sexp) : Sexp :=
  .list (.symbol (EditorCall.package ++ separator ++ op) :: args)

/-- What a client's text is taken for. -/
def eventOf (text : String) : Except ReadError ClientEvent :=
  (parse (expandText text)).map ClientEvent.ofSexp

/-- A call of an editor operation means the same with a colon and with a slash. -/
structure Interchangeable (op : String) (args : List Sexp) (ns thread id : Sexp) : Prop where
  same_event : eventOf (evaluation (call ":" op args) [ns, thread, id]).print =
    eventOf (evaluation (call "/" op args) [ns, thread, id]).print
  /-- It is a request for the operation with these arguments, if they can be read where they
  stand. -/
  event : (∀ v ∈ args, v.nesting + 2 ≤ maxDepth) →
    (∀ v ∈ [ns, thread, id], v.nesting + 1 ≤ maxDepth) →
    parse (expandText (evaluation (call ":" op args) [ns, thread, id]).print) =
      .ok (evaluation (call "/" op args) [ns, thread, id]) ∧
    EditorCall.ofSexp? (call "/" op args) = some (op, args) ∧
    ∀ package spec n, ClientEvent.namespace? ns = some package →
      Thread.ofSexp? thread = some spec → id = .int n →
      eventOf (evaluation (call ":" op args) [ns, thread, id]).print =
        .ok (.evaluate (call "/" op args) package spec n)
  deep : ¬ ((∀ v ∈ args, v.nesting + 2 ≤ maxDepth) ∧
      ∀ v ∈ [ns, thread, id], v.nesting + 1 ≤ maxDepth) →
    ∃ line, eventOf (evaluation (call ":" op args) [ns, thread, id]).print =
      .error (.tooDeep line)

section requests

variable {op : String} {args more : List Sexp}

lemma operator_chars (op : String) :
    (EditorCall.package ++ ":" ++ op).toList = EditorCall.package.toList ++ ':' :: op.toList ∧
    (EditorCall.package ++ "/" ++ op).toList = EditorCall.package.toList ++ '/' :: op.toList := by
  simp

lemma alphanumeric_package : ∀ d ∈ EditorCall.package.toList, isAlphanumeric d = true :=
  List.all_eq_true.1 (by decide)

lemma isSymbol_operator (hop : ∀ c ∈ op.toList, isDelimiter c = false) :
    IsSymbol (EditorCall.package ++ ":" ++ op).toList ∧
    IsSymbol (EditorCall.package ++ "/" ++ op).toList := by
  rw [(operator_chars op).1, (operator_chars op).2]
  exact ⟨isSymbol_packaged (.inl rfl) alphanumeric_package (by decide) hop,
    isSymbol_packaged (.inr rfl) alphanumeric_package (by decide) hop⟩

lemma legible_evaluation {form : Sexp} (hform : form.Legible) (hmore : LegibleAll more) :
    (evaluation form more).Legible :=
  ⟨legible_keyword (by decide), hform, hmore⟩

lemma shim_evaluation (op : String) (args more : List Sexp) :
    shim (evaluation (call ":" op args) more) = evaluation (call "/" op args) more := by
  have hqualify : qualify (EditorCall.package.toList ++ ':' :: op.toList) =
      EditorCall.package.toList ++ '/' :: op.toList := by
    rw [qualify_split alphanumeric_package (by decide), if_pos ⟨rfl, by decide⟩]
  rw [evaluation, call, shim, if_pos rfl, shimForm, (operator_chars op).1, hqualify,
    ← (operator_chars op).2, String.ofList_toList]
  rfl

lemma nesting_evaluation : (evaluation (call "/" op args) more).nesting ≤ maxDepth ↔
    (∀ v ∈ args, v.nesting + 2 ≤ maxDepth) ∧ ∀ v ∈ more, v.nesting + 1 ≤ maxDepth := by
  have hitems : (call "/" op args).nesting ≤ 254 + 1 ↔ ∀ v ∈ args, v.nesting ≤ 254 := by
    rw [call, nesting_list_le_iff, List.forall_mem_cons, nesting]
    exact and_iff_right (Nat.zero_le _)
  have hdepth : (evaluation (call "/" op args) more).nesting ≤ 255 + 1 ↔
      (call "/" op args).nesting ≤ 254 + 1 ∧ ∀ v ∈ more, v.nesting ≤ 255 := by
    rw [evaluation, nesting_list_le_iff, List.forall_mem_cons, List.forall_mem_cons, nesting]
    exact and_iff_right (Nat.zero_le _)
  have hargs : ∀ v : Sexp, v.nesting ≤ 254 ↔ v.nesting + 2 ≤ maxDepth := fun _ =>
    (Nat.succ_le_succ_iff.trans Nat.succ_le_succ_iff).symm
  have hmore : ∀ v : Sexp, v.nesting ≤ 255 ↔ v.nesting + 1 ≤ maxDepth := fun _ =>
    Nat.succ_le_succ_iff.symm
  rw [hitems] at hdepth
  simp only [hargs, hmore] at hdepth
  exact hdepth

/-- A request for an editor operation means the same in both spellings. -/
lemma interchangeable {ns thread id : Sexp} (hop : ∀ c ∈ op.toList, isDelimiter c = false)
    (hargs : ∀ v ∈ args, v.Legible) (hns : ns.Legible) (hthread : thread.Legible)
    (hid : id.Legible) : Interchangeable op args ns thread id := by
  have hcolon : (evaluation (call ":" op args) [ns, thread, id]).Legible :=
    legible_evaluation ⟨(isSymbol_operator hop).1, legibleAll_iff.2 hargs⟩
      ⟨hns, hthread, hid, trivial⟩
  have hslash : (evaluation (call "/" op args) [ns, thread, id]).Legible :=
    legible_evaluation ⟨(isSymbol_operator hop).2, legibleAll_iff.2 hargs⟩
      ⟨hns, hthread, hid, trivial⟩
  have htext : expandText (evaluation (call ":" op args) [ns, thread, id]).print =
      (evaluation (call "/" op args) [ns, thread, id]).print := by
    rw [expandText, print, String.toList_ofList, expand_chars hcolon, shim_evaluation]
    rfl
  have hsame : expandText (evaluation (call "/" op args) [ns, thread, id]).print =
      (evaluation (call "/" op args) [ns, thread, id]).print := by
    rw [← htext, (rewritten _).idempotent]
  refine ⟨by rw [eventOf, eventOf, htext, hsame], fun hshallow hmore => ?_, fun hdeep => ?_⟩
  · have hparse := parse_print ⟨nesting_evaluation.2 ⟨hshallow, hmore⟩, hslash⟩
    refine ⟨by rw [htext, hparse], EditorCall.ofSexp?_fullName op args, ?_⟩
    rintro package spec n hpackage hspec rfl
    have hevent : ClientEvent.ofSexp (evaluation (call "/" op args) [ns, thread, .int n]) =
        .evaluate (call "/" op args) package spec n := by
      simp [evaluation, ClientEvent.ofSexp, items?, keyword?, ClientEvent.ofParts?, hpackage, hspec,
        int?]
    rw [eventOf, htext, hparse, ← hevent]
    rfl
  · obtain ⟨line, hline⟩ := parse_print_deep hslash
      (Nat.lt_of_not_le (mt nesting_evaluation.1 hdeep))
    exact ⟨line, by rw [eventOf, htext, hline]; rfl⟩

end requests

/-- The rewriting puts a slash for one colon of a text, at a place between characters, and what is
read from the text changes in the name of one operator. An operation whose name has no delimiter in
it is requested with a colon or with a slash: both texts stand for the same event. If arguments,
namespace, thread and number can be read where they stand, this event is a request for the operation
with these arguments; if they cannot, both texts are nested too deep. -/
theorem requests_interchangeable :
    (∀ text, Rewritten text) ∧
    ∀ op args ns thread id, (∀ c ∈ op.toList, isDelimiter c = false) →
      (∀ v ∈ args, v.Readable) → ns.Readable → thread.Readable → id.Readable →
      Interchangeable op args ns thread id :=
  ⟨rewritten, fun _ _ _ _ _ hop hargs hns hthread hid =>
    interchangeable hop (fun v hv => (hargs v hv).2) hns.2 hthread.2 hid.2⟩

theorem requests_interchangeable_eval :
    eventOf "(:emacs-rex (swank:eval \"a:b\") \"user\" t 2)" =
      .ok (.evaluate (call "/" "eval" [.str "a:b"]) "user" .any 2) ∧
    EditorCall.ofSexp? (call "/" "eval" [.str "a:b"]) = some ("eval", [.str "a:b"]) := by
  have hcalls := requests_interchangeable.2 "eval" [.str "a:b"] (.str "user") .t (.int 2)
    (plain_of_all (by decide)) (by simp [Readable, nesting, Legible])
    ⟨by decide, trivial⟩ ⟨by decide, trivial⟩ ⟨by decide, trivial⟩
  obtain ⟨-, hcall, hevent⟩ :=
    hcalls.event (by simp [nesting, maxDepth]) (by simp [nesting, maxDepth])
  have hprint : "(:emacs-rex (swank:eval \"a:b\") \"user\" t 2)" =
      (evaluation (call ":" "eval" [.str "a:b"]) [.str "user", .t, .int 2]).print := by
    decide +kernel
  rw [hprint]
  exact ⟨hevent "user" .any 2 rfl rfl rfl, hcall⟩

/-- An argument that can be read by itself, in a request that cannot, in either spelling. -/
theorem request_too_deep :
    (∀ c ∈ "eval".toList, isDelimiter c = false) ∧ (nested 254).Readable ∧
    (Sexp.str "user").Readable ∧ Sexp.t.Readable ∧ (Sexp.int 2).Readable ∧
    ∀ separator, separator = ":" ∨ separator = "/" → ∀ event, eventOf (evaluation
      (call separator "eval" [nested 254]) [.str "user", .t, .int 2]).print ≠ .ok event := by
  have hdepth : (nested 254).nesting = 255 := nesting_nested 254
  have hcalls : Interchangeable "eval" [nested 254] (.str "user") .t (.int 2) :=
    interchangeable (plain_of_all (by decide)) (by simpa using legible_nested 254)
      trivial trivial trivial
  obtain ⟨line, hline⟩ := hcalls.deep fun h => by
    have hshallow := h.1 (nested 254) (by simp)
    rw [hdepth] at hshallow
    exact absurd hshallow (by decide)
  refine ⟨plain_of_all (by decide), ⟨hdepth ▸ by decide, legible_nested 254⟩, ⟨by decide, trivial⟩,
    ⟨by decide, trivial⟩, ⟨by decide, trivial⟩, ?_⟩
  rintro separator (rfl | rfl) event
  · rw [hline]
    simp
  · rw [← hcalls.same_event, hline]
    simp

end Frame.Operator

end EvalServer
