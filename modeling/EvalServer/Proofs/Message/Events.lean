import EvalServer.Message.Server
import EvalServer.Proofs.Evaluation.Values

/-!
# Events on the wire

What the server prints for an event can be read back if the values inside it can be read where
they stand, and then it stands for that event and for no other one. Main definitions:
`ServerEvent.ofSexp?`, the event a client takes a message for, and `ServerEvent.Readable`.
-/

namespace EvalServer

open Sexp

namespace ServerEvent

/-- The event is one of the server's own, not a message that is passed on as it is. -/
def IsOwn : ServerEvent → Prop
  | .other _ => False
  | _ => True

/-- An event of the server's own whose values can be read back where they stand: the value of an
answer in two lists, the arguments of the debugger in one. -/
def Readable : ServerEvent → Prop
  | .return (.ok value) _ => value.Legible ∧ value.nesting + 2 ≤ maxDepth
  | .writeString _ (some channel) => (Sexp.keyword channel).Legible
  | .debug _ _ rest => ∀ v ∈ rest, v.Legible ∧ v.nesting + 1 ≤ maxDepth
  | .other _ => False
  | .return .abort _ | .writeString _ none | .newPackage _ _ | .readString _ _ | .readAborted _ _
  | .yesOrNo _ _ _ | .indentationUpdate _ | .openDedicatedOutput _ => True

/-! ## Reading events -/

def hint? : Sexp → Option Hint
  | .list [.str name, .int columns] => some (name, columns)
  | _ => none

def hints? : List Sexp → Option (List Hint)
  | [] => some []
  | entry :: rest => do return (← hint? entry) :: (← hints? rest)

/-- The event of a tag and what follows it. -/
def ofParts? (tag : String) (rest : List Sexp) : Option ServerEvent :=
  match tag, rest with
  | "return", [.list [.keyword "ok", value], .int id] => some (.return (.ok value) id)
  | "return", [.list [.keyword "abort"], .int id] => some (.return .abort id)
  | "write-string", [.str text] => some (.writeString text none)
  | "write-string", [.str text, .keyword channel] => some (.writeString text (some channel))
  | "new-package", [.str name, .str prompt] => some (.newPackage name prompt)
  | "read-string", [.int thread, .int tag] => some (.readString thread.toUInt64 tag.toUInt64)
  | "read-aborted", [.int thread, .int tag] => some (.readAborted thread.toUInt64 tag.toUInt64)
  | "y-or-n-p", [.int thread, .int tag, .str prompt] =>
    some (.yesOrNo thread.toUInt64 tag.toUInt64 prompt)
  | "indentation-update", [.list hints] => (hints? hints).map .indentationUpdate
  | "open-dedicated-output-stream", [.int port] =>
    some (.openDedicatedOutput (UInt16.ofNat port.toInt.toNat))
  | tag, .str thread :: rest => (DebugKind.ofTag? tag).map fun kind => .debug kind thread rest
  | _, _ => none

/-- The event that a message stands for. -/
def ofSexp? : Sexp → Option ServerEvent
  | .list (.keyword tag :: rest) => ofParts? tag rest
  | _ => none

lemma hints_map (hints : List Hint) : hints? (hints.map hintSexp) = some hints := by
  induction hints with
  | nil => rfl
  | cons hint rest ih =>
    rw [List.map_cons, hints?, ih]
    rfl

lemma port_toInt (port : UInt16) :
    UInt16.ofNat (Int64.ofNat port.toNat).toInt.toNat = port := by
  rw [Int64.toInt_ofNat_of_lt (Nat.lt_trans port.toNat_lt (by decide)), Int.toNat_natCast]
  exact UInt16.ofNat_toNat

/-- Every event of the server's own is what its message stands for. -/
theorem ofSexp_toSexp {e : ServerEvent} (he : e.IsOwn) : ofSexp? e.toSexp = some e := by
  cases e with
  | other message => exact absurd he id
  | «return» status id => cases status <;> rfl
  | writeString text channel => cases channel <;> rfl
  | indentationUpdate hints =>
    change (hints? (hints.map hintSexp)).map indentationUpdate = _
    rw [hints_map]
    rfl
  | openDedicatedOutput port =>
    change some (openDedicatedOutput (UInt16.ofNat (Int64.ofNat port.toNat).toInt.toNat)) = _
    rw [port_toInt]
  | debug kind thread rest => cases kind <;> rfl
  | _ => rfl

theorem eq_of_toSexp_eq {e e' : ServerEvent} (he : e.IsOwn) (he' : e'.IsOwn)
    (h : e.toSexp = e'.toSexp) : e = e' :=
  Option.some.inj ((ofSexp_toSexp he).symm.trans ((congrArg ofSexp? h).trans (ofSexp_toSexp he')))

/-! ## Printing events -/

lemma readable_tagged {tag : String} (htag : (Sexp.keyword tag).Legible) {rest : List Sexp} :
    (tagged tag rest).Readable ↔ ∀ v ∈ rest, v.Legible ∧ v.nesting + 1 ≤ maxDepth := by
  have hdepth : (tagged tag rest).nesting ≤ 255 + 1 ↔ ∀ v ∈ rest, v.nesting ≤ 255 := by
    rw [tagged, nesting_list_le_iff, List.forall_mem_cons, nesting]
    exact and_iff_right (Nat.zero_le _)
  have hlegible : (tagged tag rest).Legible ↔ ∀ v ∈ rest, v.Legible := by
    rw [← legibleAll_iff]
    exact and_iff_right htag
  have hstep : ∀ v : Sexp, v.nesting ≤ 255 ↔ v.nesting + 1 ≤ maxDepth := fun _ =>
    Nat.succ_le_succ_iff.symm
  rw [Sexp.Readable, maxDepth, hdepth, hlegible]
  simp only [hstep]
  constructor
  · exact fun h v hv => ⟨h.2 v hv, h.1 v hv⟩
  · exact fun h => ⟨fun v hv => (h v hv).2, fun v hv => (h v hv).1⟩

lemma legible_hintSexp (hint : Hint) : (hintSexp hint).Legible ∧ (hintSexp hint).nesting = 1 :=
  ⟨⟨trivial, trivial, trivial⟩, rfl⟩

lemma legible_tag (kind : DebugKind) : (Sexp.keyword kind.tag).Legible := by
  cases kind <;> exact legible_keyword (by decide)

/-- The message of an event can be read back exactly if the values inside it can. -/
theorem readable_toSexp_iff {e : ServerEvent} (he : e.IsOwn) : e.toSexp.Readable ↔ e.Readable := by
  have hword : ∀ n : Int64, (Sexp.int n).Legible ∧ (Sexp.int n).nesting + 1 ≤ maxDepth :=
    fun n => ⟨trivial, by rw [nesting]; decide⟩
  have htext : ∀ text, (Sexp.str text).Legible ∧ (Sexp.str text).nesting + 1 ≤ maxDepth :=
    fun text => ⟨trivial, by rw [nesting]; decide⟩
  have hnil : (∀ v ∈ ([] : List Sexp), v.Legible ∧ v.nesting + 1 ≤ maxDepth) ↔ True :=
    iff_true_intro (List.forall_mem_nil _)
  cases e with
  | other message => exact absurd he id
  | «return» status id =>
    rw [toSexp, readable_tagged (legible_keyword (by decide))]
    cases status with
    | ok value =>
      have hstatus : (Status.ok value).toSexp.Legible ↔ value.Legible :=
        ⟨fun h => h.2.1, fun h => ⟨legible_keyword (by decide), h, trivial⟩⟩
      have hnesting : (Status.ok value).toSexp.nesting = value.nesting + 1 := by
        simp [Status.toSexp, nesting, nestingAll]
      simp only [List.forall_mem_cons, hnil, hstatus, hnesting, hword, and_true,
        Readable]
    | abort =>
      have hstatus : Status.abort.toSexp.Legible := ⟨legible_keyword (by decide), trivial⟩
      have hnesting : Status.abort.toSexp.nesting + 1 ≤ maxDepth := by decide
      simp only [List.forall_mem_cons, hnil, hstatus, hnesting, hword, and_true,
        Readable]
  | writeString text channel =>
    rw [toSexp, readable_tagged (legible_keyword (by decide))]
    cases channel with
    | none =>
      simp only [Option.map_none, Option.toList_none, List.forall_mem_cons, hnil, htext, and_true,
        Readable]
    | some channel =>
      have hnesting : (Sexp.keyword channel).nesting + 1 ≤ maxDepth := by
        rw [nesting]
        decide
      simp only [Option.map_some, Option.toList_some, List.forall_mem_cons, hnil,
        htext, hnesting, and_true, true_and, Readable]
  | debug kind thread rest =>
    rw [toSexp, readable_tagged (legible_tag kind), List.forall_mem_cons]
    exact and_iff_right (htext thread)
  | indentationUpdate hints =>
    have hhints : (Sexp.list (hints.map hintSexp)).Legible :=
      legibleAll_iff.2 (List.forall_mem_map.2 fun hint _ => (legible_hintSexp hint).1)
    have hnesting : (Sexp.list (hints.map hintSexp)).nesting ≤ 2 :=
      nesting_list_le_iff.2
        (List.forall_mem_map.2 fun hint _ => Nat.le_of_eq (legible_hintSexp hint).2)
    have hdepth : (Sexp.list (hints.map hintSexp)).nesting + 1 ≤ maxDepth :=
      Nat.le_trans (Nat.succ_le_succ hnesting) (by decide)
    rw [toSexp, readable_tagged (legible_keyword (by decide))]
    simp only [List.forall_mem_cons, hnil, hhints, hdepth, and_true, Readable]
  | _ =>
    rw [toSexp, readable_tagged (legible_keyword (by decide))]
    simp only [List.forall_mem_cons, hnil, htext, hword, word, and_true, Readable]

theorem parse_print_iff {e : ServerEvent} (he : e.IsOwn) :
    parse e.toSexp.print = .ok e.toSexp ↔ e.Readable :=
  ⟨fun h => (readable_toSexp_iff he).1 (readable_of_parse h),
    fun h => parse_print ((readable_toSexp_iff he).2 h)⟩

lemma Readable.isOwn {e : ServerEvent} (h : e.Readable) : e.IsOwn := by
  cases e with
  | other message => exact h
  | _ => trivial

/-- The number that is printed for a word is the one with the same bits. -/
lemma toInt_word (n : UInt64) : n.toInt64.toInt =
    if 2 * n.toNat < UInt64.size then (n.toNat : Int) else n.toNat - UInt64.size :=
  BitVec.toInt_eq_toNat_cond n.toBitVec

/-- Two events of the server's own whose values can be read back where they stand. What is printed
for each of them is read as its message, which stands for this event; so the same text is printed
for both only if they are equal. Numbers of actors and tags of prompts in the lower half of 64-bit
words are printed as they are, and those in the upper half less the number of such words. -/
theorem eq_of_print_eq {e e' : ServerEvent} (he : e.Readable) (he' : e'.Readable) :
    (parse e.toSexp.print = .ok e.toSexp ∧ ofSexp? e.toSexp = some e) ∧
    (parse e'.toSexp.print = .ok e'.toSexp ∧ ofSexp? e'.toSexp = some e') ∧
    (e.toSexp.print = e'.toSexp.print → e = e') ∧
    ∀ n : UInt64, ∃ k : Int64, word n = .int k ∧
      k.toInt = if 2 * n.toNat < UInt64.size then (n.toNat : Int) else n.toNat - UInt64.size := by
  have hparse := (parse_print_iff he.isOwn).2 he
  have hparse' := (parse_print_iff he'.isOwn).2 he'
  refine ⟨⟨hparse, ofSexp_toSexp he.isOwn⟩, ⟨hparse', ofSexp_toSexp he'.isOwn⟩, fun h => ?_,
    fun n => ⟨n.toInt64, rfl, toInt_word n⟩⟩
  rw [h] at hparse
  exact eq_of_toSexp_eq he.isOwn he'.isOwn (Except.ok.inj (hparse.symm.trans hparse'))

/-- A text for a channel is not mistaken for an event of the debugger with the same parts. -/
theorem eq_of_print_eq_channel :
    (writeString "a" (some "k")).Readable ∧ (debug .debug "a" [.keyword "k"]).Readable ∧
    (writeString "a" (some "k")).toSexp.print ≠ (debug .debug "a" [.keyword "k"]).toSexp.print := by
  have hkeyword : (Sexp.keyword "k").Legible := legible_keyword (by decide)
  have hdebug : (debug .debug "a" [.keyword "k"]).Readable := by
    intro v hv
    obtain rfl := List.mem_singleton.1 hv
    exact ⟨hkeyword, by decide⟩
  refine ⟨hkeyword, hdebug, fun h => ?_⟩
  obtain ⟨-, -, heq, -⟩ := eq_of_print_eq (e := writeString "a" (some "k")) hkeyword hdebug
  cases heq h

example : (readAborted 18446744073709551615 7).toSexp.print = "(:read-aborted -1 7)" := by
  decide +kernel

end ServerEvent

end EvalServer
