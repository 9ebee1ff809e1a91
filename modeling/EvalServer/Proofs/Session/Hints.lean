import EvalServer.Session.Indentation
import Mathlib.Data.List.Forall2
import Mathlib.Data.List.Nodup
import Mathlib.Data.String.Basic
import Mathlib.Tactic.Lemma

/-!
# Hints on both sides of a connection

A table of hints is brought up to date by lists of hints, and each time the client is sent a delta.
As long as no list has two hints for one name, the client's table and the one of the session never
part: each holds the hint that a name was last given.
-/

namespace EvalServer

namespace HintTable

variable {t t' : HintTable} {hints hints' : List Hint} {name : String}

/-- A list of hints has one for a name at most. -/
def Distinct (hints : List Hint) : Prop :=
  (hints.map Prod.fst).Nodup

instance (hints : List Hint) : Decidable (Distinct hints) :=
  inferInstanceAs (Decidable (List.Nodup _))

lemma Distinct.of_sublist (h : Distinct hints) (hsub : hints'.Sublist hints) : Distinct hints' :=
  h.sublist (hsub.map _)

lemma Distinct.perm (h : Distinct hints) (hperm : hints'.Perm hints) : Distinct hints' :=
  ((hperm.map _).nodup_iff).2 h

lemma Distinct.lookup_eq_some_iff (h : Distinct hints) {indent : Int64} :
    hints.lookup name = some indent ↔ (name, indent) ∈ hints := by
  rw [List.lookup_eq_some_iff]
  constructor
  · rintro ⟨earlier, later, rfl, -⟩
    simp
  · intro hmem
    obtain ⟨earlier, later, rfl⟩ := List.append_of_mem hmem
    refine ⟨earlier, later, rfl, fun hint hint_mem => ?_⟩
    simp only [Distinct, List.map_append, List.map_cons, List.nodup_append] at h
    have hne := h.2.2 hint.1 (List.mem_map_of_mem hint_mem) name List.mem_cons_self
    simpa using hne.symm

/-- What a list says about a name does not depend on its order. -/
lemma Distinct.lookup_perm (h : Distinct hints) (hperm : hints'.Perm hints) (name : String) :
    hints'.lookup name = hints.lookup name := by
  ext indent
  rw [(h.perm hperm).lookup_eq_some_iff, h.lookup_eq_some_iff, hperm.mem_iff]

/-! ## Tables -/

/-- The tables have the same hints. -/
def Same (t t' : HintTable) : Prop :=
  ∀ name, t.find? name = t'.find? name

/-- The table with hints put in, the later ones in place of the earlier ones. -/
def overwrite (t : HintTable) (hints : List Hint) : HintTable :=
  hints.foldl insert t

lemma find?_overwrite (t : HintTable) (hints : List Hint) (name : String) :
    (t.overwrite hints).find? name = (hints.reverse.lookup name).or (t.find? name) := by
  induction hints generalizing t with
  | nil => simp [overwrite]
  | cons hint rest ih =>
    obtain ⟨other, indent⟩ := hint
    have hrest : t.overwrite ((other, indent) :: rest) =
        (t.insert (other, indent)).overwrite rest := rfl
    rw [hrest, ih, find?_insert, List.reverse_cons, List.lookup_append, Option.or_assoc]
    congr 1
    by_cases h : name = other
    · simp [h]
    · have : (name == other) = false := by simpa using h
      simp [h, List.lookup_cons, this]

lemma find?_overwrite_distinct (t : HintTable) (h : Distinct hints) (name : String) :
    (t.overwrite hints).find? name = (hints.lookup name).or (t.find? name) := by
  rw [find?_overwrite, h.lookup_perm hints.reverse_perm]

lemma Same.overwrite (hsame : t.Same t') (h : Distinct hints) (hperm : hints'.Perm hints) :
    (t'.overwrite hints').Same (t.overwrite hints) := by
  intro name
  rw [find?_overwrite_distinct _ (h.perm hperm), find?_overwrite_distinct _ h, h.lookup_perm hperm,
    hsame]

lemma find?_eq_lookup (t : HintTable) (name : String) : t.find? name = t.hints.lookup name := by
  unfold find?
  induction t.hints with
  | nil => rfl
  | cons hint rest ih =>
    rw [List.lookup_cons, List.find?_cons, BEq.comm]
    cases name == hint.1 with
    | true => rfl
    | false => exact ih

/-- No name is entered twice, so the entries are what is found. -/
def Compact (t : HintTable) : Prop :=
  Distinct t.hints

lemma compact_empty : Compact {} :=
  List.nodup_nil

lemma Compact.insert (h : t.Compact) (hint : Hint) : (t.insert hint).Compact := by
  refine List.nodup_cons.2 ⟨?_, h.of_sublist List.filter_sublist⟩
  simp

lemma Compact.overwrite (h : t.Compact) (hints : List Hint) : (t.overwrite hints).Compact := by
  induction hints generalizing t with
  | nil => exact h
  | cons hint rest ih => exact ih (h.insert hint)

lemma Same.perm (hsame : t.Same t') (h : t.Compact) (h' : t'.Compact) :
    t.hints.Perm t'.hints := by
  refine (List.perm_ext_iff_of_nodup h.of_map h'.of_map).2 fun hint => ?_
  rw [← h.lookup_eq_some_iff, ← h'.lookup_eq_some_iff, ← find?_eq_lookup, ← find?_eq_lookup, hsame]

/-! ## One update -/

/-- The hints that a table does not have. -/
def missing (t : HintTable) (hints : List Hint) : List Hint :=
  hints.filter fun hint => t.find? hint.1 ≠ some hint.2

lemma update_eq (t : HintTable) (hints : List Hint) :
    t.update hints = ((t.missing hints).mergeSort precedes, t.overwrite (t.missing hints)) :=
  rfl

lemma precedes_total (a b : Hint) : (precedes a b || precedes b a) = true := by
  rcases lt_trichotomy a.1 b.1 with h | h | h
  · simp [precedes, h]
  · simp [precedes, h, Int64.le_total]
  · simp [precedes, h]

lemma precedes_trans (a b c : Hint) (hab : precedes a b = true) (hbc : precedes b c = true) :
    precedes a c = true := by
  simp only [precedes, Bool.or_eq_true, decide_eq_true_eq, Bool.and_eq_true, beq_iff_eq] at *
  rcases hab with hab | ⟨hab, hle⟩
  · rcases hbc with hbc | ⟨hbc, -⟩
    · exact .inl (hab.trans hbc)
    · exact .inl (hbc ▸ hab)
  · rcases hbc with hbc | ⟨hbc, hle'⟩
    · exact .inl (hab ▸ hbc)
    · exact .inr ⟨hab.trans hbc, Int64.le_trans hle hle'⟩

lemma perm_delta (t : HintTable) (hints : List Hint) : (t.update hints).1.Perm (t.missing hints) :=
  List.mergeSort_perm _ _

lemma mem_delta (t : HintTable) (hints : List Hint) (hint : Hint) :
    hint ∈ (t.update hints).1 ↔ hint ∈ hints ∧ t.find? hint.1 ≠ some hint.2 := by
  rw [(t.perm_delta hints).mem_iff, missing, List.mem_filter, decide_eq_true_eq]

lemma Distinct.missing (h : Distinct hints) (t : HintTable) : Distinct (t.missing hints) :=
  h.of_sublist List.filter_sublist

lemma sorted_delta (h : Distinct hints) (t : HintTable) :
    (t.update hints).1.Pairwise fun a b => a.1 < b.1 := by
  have hsorted : (t.update hints).1.Pairwise fun a b => precedes a b = true :=
    List.pairwise_mergeSort precedes_trans precedes_total _
  have hdistinct : (t.update hints).1.Pairwise fun a b => a.1 ≠ b.1 :=
    List.pairwise_map.1 ((h.missing t).perm (t.perm_delta hints))
  refine (hsorted.and hdistinct).imp fun {a b} hab => ?_
  have hprecedes := hab.1
  simp only [precedes, Bool.or_eq_true, decide_eq_true_eq, Bool.and_eq_true, beq_iff_eq]
    at hprecedes
  exact hprecedes.resolve_right fun heq => hab.2 heq.1

/-- After an update the table has the hints it was given, and for other names what it had. -/
lemma find?_update (h : Distinct hints) (t : HintTable) (name : String) :
    (t.update hints).2.find? name = (hints.lookup name).or (t.find? name) := by
  rw [update_eq, find?_overwrite_distinct t (h.missing t)]
  cases hlookup : hints.lookup name with
  | none =>
    have hmissing : (t.missing hints).lookup name = none := by
      rw [List.lookup_eq_none_iff] at hlookup ⊢
      exact fun hint hmem => hlookup hint (List.mem_of_mem_filter hmem)
    rw [hmissing]
  | some indent =>
    have hmem := h.lookup_eq_some_iff.1 hlookup
    by_cases hhas : t.find? name = some indent
    · -- a hint that is found already is not put in, nor is another one for its name
      have hmissing : (t.missing hints).lookup name = none := by
        rw [Option.eq_none_iff_forall_ne_some]
        intro other hother
        have hother := List.mem_filter.1 ((h.missing t).lookup_eq_some_iff.1 hother)
        have heq := hlookup.symm.trans (h.lookup_eq_some_iff.2 hother.1)
        simp [hhas, heq] at hother
      rw [hmissing, Option.none_or, Option.some_or, hhas]
    · have hmissing : (t.missing hints).lookup name = some indent :=
        (h.missing t).lookup_eq_some_iff.2 (List.mem_filter.2 ⟨hmem, by simpa using hhas⟩)
      rw [hmissing, Option.some_or]

/-- Neither delta nor table depend on the order of the hints, nor on that of the entries. -/
lemma Same.update (hsame : t.Same t') (h : Distinct hints) (hperm : hints.Perm hints') :
    (t.update hints).1 = (t'.update hints').1 ∧ (t.update hints).2.Same (t'.update hints').2 := by
  have h' : Distinct hints' := h.perm hperm.symm
  have hmissing : (t.missing hints).Perm (t'.missing hints') := by
    unfold missing
    simp only [hsame _]
    exact hperm.filter _
  refine ⟨?_, fun name => ?_⟩
  · refine List.Perm.eq_of_pairwise (fun a b _ _ hab hba => absurd hab hba.not_gt)
      (sorted_delta h t) (sorted_delta h' t') ?_
    exact ((t.perm_delta hints).trans hmissing).trans (t'.perm_delta hints').symm
  · rw [find?_update h, find?_update h', h'.lookup_perm hperm, hsame]

/-- The hints of a list that has just been put in are there. -/
lemma update_again (h : Distinct hints) (hperm : hints.Perm hints') (t : HintTable) :
    (t.update hints).2.update hints' = ([], (t.update hints).2) := by
  have hnone : (t.update hints).2.missing hints' = [] := by
    refine List.filter_eq_nil_iff.2 fun hint hmem => ?_
    have hlookup := h.lookup_eq_some_iff.2 (hperm.mem_iff.2 hmem)
    simp [find?_update h, hlookup]
  rw [update_eq, hnone, List.mergeSort_nil]
  rfl

/-! ## Many updates -/

/-- The table after updates, one after another. -/
def updateAll (t : HintTable) (history : List (List Hint)) : HintTable :=
  history.foldl (fun t hints => (t.update hints).2) t

/-- The deltas of updates, one after another. -/
def deltas (t : HintTable) : List (List Hint) → List (List Hint)
  | [] => []
  | hints :: rest => (t.update hints).1 :: deltas (t.update hints).2 rest

/-- The table of a client that is sent every delta. -/
def replica (history : List (List Hint)) : HintTable :=
  (deltas {} history).foldl overwrite {}

variable {history history' : List (List Hint)}

lemma Compact.updateAll (h : t.Compact) (history : List (List Hint)) :
    (t.updateAll history).Compact := by
  induction history generalizing t with
  | nil => exact h
  | cons hints rest ih => exact ih (h.overwrite _)

lemma Compact.foldl_overwrite (h : t.Compact) (lists : List (List Hint)) :
    (lists.foldl HintTable.overwrite t).Compact := by
  induction lists generalizing t with
  | nil => exact h
  | cons hints rest ih => exact ih (h.overwrite hints)

/-- A client that has what the session has keeps up with it. -/
lemma Same.foldl_overwrite (hsame : t.Same t') (h : ∀ hints ∈ history, Distinct hints) :
    ((deltas t history).foldl HintTable.overwrite t').Same (t.updateAll history) := by
  induction history generalizing t t' with
  | nil => exact fun name => (hsame name).symm
  | cons hints rest ih =>
    obtain ⟨hhints, hrest⟩ := List.forall_mem_cons.1 h
    have hnext := hsame.overwrite (hhints.missing t) (t.perm_delta hints)
    exact ih (fun name => (hnext name).symm) hrest

lemma find?_updateAll (h : ∀ hints ∈ history, Distinct hints) (t : HintTable) (name : String) :
    (t.updateAll history).find? name = (history.flatten.reverse.lookup name).or (t.find? name) := by
  induction history generalizing t with
  | nil => simp [updateAll]
  | cons hints rest ih =>
    obtain ⟨hhints, hrest⟩ := List.forall_mem_cons.1 h
    have hnext : t.updateAll (hints :: rest) = (t.update hints).2.updateAll rest := rfl
    rw [hnext, ih hrest, find?_update hhints, List.flatten_cons, List.reverse_append,
      List.lookup_append, Option.or_assoc, hhints.lookup_perm hints.reverse_perm]

lemma Same.updates (hsame : t.Same t') (h : ∀ hints ∈ history, Distinct hints)
    (hperm : List.Forall₂ List.Perm history history') :
    deltas t history = deltas t' history' ∧
      (t.updateAll history).Same (t'.updateAll history') := by
  induction hperm generalizing t t' with
  | nil => exact ⟨rfl, hsame⟩
  | cons hhead _ ih =>
    obtain ⟨hhints, hrest⟩ := List.forall_mem_cons.1 h
    obtain ⟨hdelta, hnext⟩ := hsame.update hhints hhead
    obtain ⟨hdeltas, hlast⟩ := ih hnext hrest
    exact ⟨List.cons_eq_cons.2 ⟨hdelta, hdeltas⟩, hlast⟩

/-- Lists of hints that each have one for a name at most are put into a table, one after another.
Each delta is sorted by name and has just the hints that the table lacked before; entries that a
list does not mention stay, and to put it in again, in any order, changes nothing. A client that
overwrites its own table with every delta has the same entries as the table, one for a name, which
are the last that the lists have for each name. The order within the lists makes no difference to
any of this. -/
theorem replica_exact (h : ∀ hints ∈ history, Distinct hints) :
    (∀ earlier hints later, history = earlier ++ hints :: later →
      let t := updateAll {} earlier
      (t.update hints).1.Pairwise (fun a b => a.1 < b.1) ∧
      (∀ hint, hint ∈ (t.update hints).1 ↔ hint ∈ hints ∧ t.find? hint.1 ≠ some hint.2) ∧
      (∀ name, name ∉ hints.map Prod.fst → (t.update hints).2.find? name = t.find? name) ∧
      ∀ hints', hints.Perm hints' →
        (t.update hints).2.update hints' = ([], (t.update hints).2)) ∧
    (replica history).hints.Perm (updateAll {} history).hints ∧
    Distinct (updateAll {} history).hints ∧
    (∀ name, (updateAll {} history).find? name = history.flatten.reverse.lookup name) ∧
    ∀ history', List.Forall₂ List.Perm history history' →
      deltas {} history = deltas {} history' ∧
      (updateAll {} history).hints.Perm (updateAll {} history').hints := by
  have hempty : Same {} {} := fun _ => rfl
  have hcompact := compact_empty.updateAll
  refine ⟨?_, ?_, hcompact history, fun name => ?_, fun history' hperm => ?_⟩
  · rintro earlier hints later rfl
    have hhints : Distinct hints := h hints (by simp)
    refine ⟨sorted_delta hhints _, mem_delta _ hints, fun name hname => ?_,
      fun hints' hperm => update_again hhints hperm _⟩
    have hlookup : hints.lookup name = none := by
      refine List.lookup_eq_none_iff.2 fun hint hmem => bne_iff_ne.2 fun heq => hname ?_
      exact heq ▸ List.mem_map_of_mem hmem
    rw [find?_update hhints, hlookup, Option.none_or]
  · exact (hempty.foldl_overwrite h).perm (compact_empty.foldl_overwrite _) (hcompact history)
  · rw [find?_updateAll h]
    exact Option.or_none
  · obtain ⟨hdeltas, hsame⟩ := hempty.updates h hperm
    exact ⟨hdeltas, hsame.perm (hcompact history) (hcompact history')⟩

/-- Two lists of hints with one name in both, of which only that name changes its indent. -/
def changing : List (List Hint) :=
  [[("def", 1), ("do", 0)], [("do", 2), ("def", 1)]]

theorem replica_exact_changing :
    (∀ hints ∈ changing, Distinct hints) ∧
    (∀ hint, hint ∈ ((updateAll {} [[("def", 1), ("do", 0)]]).update [("do", 2), ("def", 1)]).1 ↔
      hint = ("do", 2)) ∧
    (replica changing).hints.Perm (updateAll {} changing).hints ∧
    (updateAll {} changing).find? "do" = some 2 ∧ (updateAll {} changing).find? "def" = some 1 := by
  have hdistinct : ∀ hints ∈ changing, Distinct hints := by decide
  obtain ⟨hupdate, hperm, -, hlast, -⟩ := replica_exact hdistinct
  obtain ⟨-, hdelta, -, -⟩ := hupdate [[("def", 1), ("do", 0)]] [("do", 2), ("def", 1)] [] rfl
  refine ⟨hdistinct, fun hint => ?_, hperm, hlast "do", hlast "def"⟩
  rw [hdelta, List.mem_pair]
  constructor
  · rintro ⟨rfl | rfl, hlacks⟩
    · rfl
    · exact absurd (by decide) hlacks
  · rintro rfl
    exact ⟨.inl rfl, by decide⟩

end HintTable

end EvalServer
