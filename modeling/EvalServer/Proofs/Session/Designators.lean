import EvalServer.Proofs.Session.Targets

/-!
# Whom a designator means

A designator means an evaluator by its number, by its name or as the REPL. Numbers are given out
once, workers are named after theirs, and at most one evaluator of the table is the REPL. So a
designator means at most one actor of the table, and looking for it finds that one in whatever order
the workers stand there. The reader and the control loop are not evaluators, so nothing means them.
-/

namespace EvalServer

/-- A designator means an evaluator, of which it gives the number, the name or the role. -/
def Thread.Means (thread : Thread) (e : Evaluator) : Prop :=
  match thread with
  | .any => False
  | .repl => e.worker = false
  | .id n => e.id = n
  | .name text => e.name = text

instance (thread : Thread) (e : Evaluator) : Decidable (thread.Means e) := by
  unfold Thread.Means
  split <;> infer_instance

lemma Text.Decimal.natText_injective {n m : Nat} (h : natText n = natText m) : n = m := by
  have hdigits : ofNat n = ofNat m := by simpa [natText] using congrArg String.toList h
  apply Option.some.inj
  rw [← toNat?_ofNat n, ← toNat?_ofNat m, hdigits]

lemma Session.workerName_injective {a b : ActorId} (h : workerName a = workerName b) : a = b := by
  apply Text.Decimal.natText_injective
  apply String.toList_inj.1
  have happend := congrArg String.toList h
  rw [workerName, workerName, String.toList_append, String.toList_append] at happend
  exact List.append_cancel_left happend

namespace World

open Traffic

variable {w : World} {a : ActorId} {e e' : Evaluator} {thread : Thread}

section lookup

variable (hsound : w.traffic.Sound) (hseated : w.session.Seated)

include hsound in
lemma mem_known : e ∈ w.session.known ↔
    e ∈ w.session.evaluators ∧ e.id ∈ w.session.table.evaluators := by
  rw [Session.known, List.mem_filterMap]
  constructor
  · rintro ⟨a, ha, hfind⟩
    obtain ⟨he, rfl⟩ := mem_of_evaluator? hfind
    exact ⟨he, ha⟩
  · rintro ⟨he, ha⟩
    exact ⟨e.id, ha, evaluator?_of_mem hsound he⟩

include hsound in
lemma lives_of_mem (he : e ∈ w.session.evaluators) : w.session.Lives e.id ↔
    e.id ∈ w.session.table.evaluators ∧ e.isAlive = true := by
  rw [Session.Lives, Session.isAlive, evaluator?_of_mem hsound he, Option.any_some]

include hseated in
/-- The search compares names; that of the REPL only a REPL has. -/
lemma designates_iff (he : e ∈ w.session.evaluators) :
    Session.designates thread e = true ↔ thread.Means e := by
  cases thread with
  | any => simp [Session.designates, Thread.Means]
  | id | name => simp [Session.designates, Thread.Means]
  | repl =>
    rw [Session.designates, beq_iff_eq, hseated.repl_iff he]
    rfl

include hsound hseated in
/-- Who is on the table and no worker stands in the REPL's place. -/
lemma repl_of_table (he : e ∈ w.session.evaluators) (ha : e.id ∈ w.session.table.evaluators)
    (hrepl : e.worker = false) : w.session.table.repl = some e.id := by
  rcases List.mem_append.1 ha with ha | ha
  · exact Option.mem_toList.1 ha
  · obtain ⟨e', he', hid, hworker⟩ := hseated.workers e.id ha
    have hsame : e' = e := hsound.eq_of_id he' he hid
    rw [hsame, hrepl] at hworker
    cases hworker

include hsound hseated in
/-- A designator means at most one evaluator of the table, whether it lives or not. -/
lemma means_unique (he : e ∈ w.session.known) (he' : e' ∈ w.session.known)
    (hmeans : thread.Means e) (hmeans' : thread.Means e') : e = e' := by
  obtain ⟨hmem, ha⟩ := (mem_known hsound).1 he
  obtain ⟨hmem', ha'⟩ := (mem_known hsound).1 he'
  have one_repl (hrepl : e.worker = false) (hrepl' : e'.worker = false) : e = e' := by
    apply hsound.eq_of_id hmem hmem'
    apply Option.some.inj
    rw [← repl_of_table hsound hseated hmem ha hrepl, repl_of_table hsound hseated hmem' ha' hrepl']
  cases thread with
  | any => exact absurd hmeans id
  | repl => exact one_repl hmeans hmeans'
  | id n => exact hsound.eq_of_id hmem hmem' (Eq.trans hmeans (Eq.symm hmeans'))
  | name text =>
    have hname : e.name = e'.name := Eq.trans hmeans (Eq.symm hmeans')
    by_cases hrepl : e.worker = false
    · have hrepl' : e'.worker = false := by
        rw [← hseated.repl_iff hmem', ← hname]
        exact (hseated.repl_iff hmem).2 hrepl
      exact one_repl hrepl hrepl'
    · have hrepl' : ¬ e'.worker = false := by
        rw [← hseated.repl_iff hmem', ← hname, hseated.repl_iff hmem]
        exact hrepl
      rw [hseated.name e hmem, hseated.name e' hmem', if_pos (by simpa using hrepl),
        if_pos (by simpa using hrepl')] at hname
      exact hsound.eq_of_id hmem hmem' (Session.workerName_injective hname)

include hsound hseated in
/-- The search takes the first that is meant and only then looks whether it lives. As no other is
meant, it finds whoever is meant and lives. -/
theorem findActor_eq_some_iff : w.session.findActor thread = some a ↔
    ∃ e ∈ w.session.evaluators, e.id = a ∧ w.session.Lives a ∧ thread.Means e := by
  rw [Session.findActor, Option.map_eq_some_iff]
  constructor
  · rintro ⟨e, hfound, rfl⟩
    obtain ⟨hfind, halive⟩ := Option.filter_eq_some_iff.1 hfound
    obtain ⟨hmem, ha⟩ := (mem_known hsound).1 (List.mem_of_find?_eq_some hfind)
    have hmeans := (designates_iff hseated hmem).1 (List.find?_some hfind)
    exact ⟨e, hmem, rfl, (lives_of_mem hsound hmem).2 ⟨ha, halive⟩, hmeans⟩
  · rintro ⟨e, hmem, rfl, hlives, hmeans⟩
    obtain ⟨ha, halive⟩ := (lives_of_mem hsound hmem).1 hlives
    have hknown : e ∈ w.session.known := (mem_known hsound).2 ⟨hmem, ha⟩
    have hdesignates := (designates_iff hseated hmem).2 hmeans
    obtain ⟨e', hfind⟩ : ∃ e', w.session.known.find? (Session.designates thread) = some e' := by
      rw [← Option.isSome_iff_exists, List.find?_isSome]
      exact ⟨e, hknown, hdesignates⟩
    have hknown' := List.mem_of_find?_eq_some hfind
    have hmeans' := (designates_iff hseated ((mem_known hsound).1 hknown').1).1
      (List.find?_some hfind)
    have hsame : e' = e := means_unique hsound hseated hknown' hknown hmeans' hmeans
    refine ⟨e, ?_, rfl⟩
    rw [hfind, hsame, Option.filter_eq_some_iff]
    exact ⟨rfl, halive⟩

lemma Staffed.seated_perm (hseated : w.session.Seated) {workers : List ActorId}
    (hperm : workers.Perm w.session.table.workers) :
    Session.Seated { w.session with table := { w.session.table with workers } } := by
  refine ⟨hseated.name, fun b hb => hseated.workers b (hperm.mem_iff.1 hb),
    fun hopen e he halive => ?_⟩
  have hseat := hseated.seat hopen e he halive
  unfold ActorTable.Seats at hseat ⊢
  split
  · next hworker =>
    rw [if_pos hworker] at hseat
    exact hperm.mem_iff.2 hseat
  · next hworker =>
    rw [if_neg hworker] at hseat
    exact hseat

include hsound hseated in
/-- The order in which the workers stand on the table makes no difference. -/
theorem findActor_perm {workers : List ActorId} (hperm : workers.Perm w.session.table.workers) :
    Session.findActor { w.session with table := { w.session.table with workers } } thread =
      w.session.findActor thread := by
  let sorted := w.change fun s => { s with table := { s.table with workers } }
  have hseated' : sorted.session.Seated := Staffed.seated_perm hseated hperm
  have htable : ∀ b, b ∈ sorted.session.table.evaluators ↔ b ∈ w.session.table.evaluators := by
    intro b
    rw [ActorTable.evaluators, ActorTable.evaluators, List.mem_append, List.mem_append]
    exact or_congr_right hperm.mem_iff
  apply Option.ext
  intro b
  have hsorted :
      sorted.session.findActor thread = some b ↔ w.session.findActor thread = some b := by
    rw [findActor_eq_some_iff hsound hseated, findActor_eq_some_iff (w := sorted) hsound hseated']
    have hlives : sorted.session.Lives b ↔ w.session.Lives b := and_congr_left fun _ => htable b
    rw [hlives]
    rfl
  exact hsorted

end lookup

/-! ## Evaluators off the table -/

section account

variable {w' : World}

/-- Whatever turn is taken, each evaluator has stopped or is still to be killed by a close. -/
lemma accounted_turn (hstaffed : w.Staffed)
    (h : ∀ b, w.session.Accounted w.session.closes (.evaluator b)) {turn : Turn}
    (hturn : w.turn? turn = some w') (b : ActorId) :
    w'.session.Accounted w'.session.closes (.evaluator b) := by
  cases turn with
  | step action =>
    exact (carries_step hstaffed.sound hstaffed.staged hturn).handles _ (h b)
  | kill handle =>
    cases hturn
    rcases h b with hstopped | hdue
    · exact .inl (kill_stops w.session handle _ (.inr hstopped))
    · refine .inr ?_
      cases handle <;> exact hdue

lemma opened_accounted {image : Image} {id : Nat} {host : Host} {wantsOutput : Bool}
    {outputPort : Option UInt16} {connection : Connection} {turns : List Turn} {h : History}
    {last : World} (hfresh : image.mailboxes.Fresh)
    (hrun : (opened image id host wantsOutput outputPort connection).play? turns = some (h, last))
    (b : ActorId) : last.session.Accounted last.session.closes (.evaluator b) := by
  let w₀ := opened image id host wantsOutput outputPort connection
  have hnone : w₀.play? [] = some ([], w₀) := rfl
  have hboth : last.Staffed ∧ ∀ b, last.session.Accounted last.session.closes (.evaluator b) := by
    refine play_induction (P := fun _ w => w.Staffed ∧
      ∀ b, w.session.Accounted w.session.closes (.evaluator b)) ⟨?_, fun b => ?_⟩ ?_ hrun
    · exact opened_staffed hfresh hnone
    · exact .inl fun e he => (List.not_mem_nil he).elim
    · rintro _ w₁ turn w₂ ⟨hstaffed, haccounted⟩ hturn
      exact ⟨hstaffed.turn hturn, accounted_turn hstaffed haccounted hturn⟩
  exact hboth.2 b

end account

/-- Whatever turns are taken, kills and closes among them: looking for a designator finds an
evaluator exactly if it lives, on the table of the session, and has the number, the name or the role
that the designator gives. There is at most one such evaluator, so the order of the workers on the
table makes no difference; the reader and the control loop are never found. An evaluator that lives
off the table has been killed by a close of the session, or is about to be. -/
theorem findActor_exact {image : Image} {id : Nat} {host : Host} {wantsOutput : Bool}
    {outputPort : Option UInt16} {connection : Connection} {turns : List Turn} {h : History}
    {last : World} (hfresh : image.mailboxes.Fresh)
    (hrun : (opened image id host wantsOutput outputPort connection).play? turns = some (h, last)) :
    (∀ thread a, last.session.findActor thread = some a ↔
      ∃ e ∈ last.session.evaluators, e.id = a ∧ last.session.Lives a ∧ thread.Means e) ∧
    (∀ (thread : Thread), ∀ e ∈ last.session.evaluators, ∀ e' ∈ last.session.evaluators,
      last.session.Lives e.id → last.session.Lives e'.id →
      thread.Means e → thread.Means e' → e = e') ∧
    (∀ thread workers, workers.Perm last.session.table.workers →
      Session.findActor { last.session with table := { last.session.table with workers } } thread =
        last.session.findActor thread) ∧
    (∀ thread, last.session.findActor thread ≠ some last.session.readerId ∧
      last.session.findActor thread ≠ some last.session.controlId) ∧
    (∀ e ∈ last.session.evaluators, e.isAlive = true → last.session.Lives e.id ∨
      last.session.closed = true ∧ (e.killed = true ∨
        ∃ rest, .killing rest ∈ last.session.closes ∧ .evaluator e.id ∈ rest)) := by
  have hstaffed := opened_staffed hfresh hrun
  have hsound := hstaffed.sound
  have hseated := hstaffed.seated
  refine ⟨fun thread a => findActor_eq_some_iff hsound hseated,
    fun thread e he e' he' hlives hlives' => ?_,
    fun thread workers hperm => findActor_perm hsound hseated hperm, fun thread => ?_,
    fun e he halive => ?_⟩
  · exact means_unique hsound hseated ((mem_known hsound).2 ⟨he, hlives.1⟩)
      ((mem_known hsound).2 ⟨he', hlives'.1⟩)
  · have hlt : ∀ a, last.session.findActor thread = some a → last.session.controlId < a :=
      fun a hfound => hsound.control_lt a (mem_ids_of_findActor hfound)
    have hreader : last.session.readerId < last.session.controlId := hsound.reader_lt
    constructor
    · intro hfound
      exact Nat.lt_asymm hreader (hlt _ hfound)
    · intro hfound
      exact Nat.lt_irrefl _ (hlt _ hfound)
  · by_cases htable : e.id ∈ last.session.table.evaluators
    · exact .inl ((lives_of_mem hsound he).2 ⟨htable, halive⟩)
    · have hclosed : last.session.closed = true := by
        by_contra hopen
        have hseat := hseated.seat (by simpa using hopen) e he halive
        apply htable
        unfold ActorTable.Seats at hseat
        split at hseat
        · exact List.mem_append_right _ hseat
        · exact List.mem_append_left _ (Option.mem_toList.2 hseat)
      refine .inr ⟨hclosed, ?_⟩
      rcases opened_accounted hfresh hrun e.id with hstopped | ⟨hmem, -⟩ | hkilling
      · refine .inl ((hstopped e he rfl).resolve_right ?_)
        simpa [Evaluator.isAlive] using halive
      · simp [Session.mem_handles, htable] at hmem
      · exact .inr hkilling

/-- A worker is about to be handed a request. -/
def workerStarted : List Turn :=
  sampleStart ++ sampleMessage "(:emacs-rex (swank/x) nil t 1)" ++ [.step .control]

theorem findActor_exact_started : ∃ h last, sample.play? workerStarted = some (h, last) ∧
    last.session.table.evaluators = [3, 4] ∧
    last.session.findActor (.name "worker-4") = some 4 ∧
    last.session.findActor (.id 4) = some 4 ∧ last.session.findActor .repl = some 3 ∧
    last.session.controlId = 2 ∧ last.session.findActor (.id 2) = none := by
  have hall : (sample.play? workerStarted).any (fun p =>
      p.2.session.table.evaluators = [3, 4] ∧ p.2.session.controlId = 2 ∧
      p.2.session.Lives 3 ∧ p.2.session.Lives 4 ∧
      p.2.session.evaluators.map (fun e => (e.id, e.name, e.worker)) =
        [(3, "repl-thread", false), (4, "worker-4", true)]) = true := by
    decide +kernel
  obtain ⟨⟨h, last⟩, hrun, hshows⟩ := (Option.any_eq_true _ _).1 hall
  obtain ⟨htable, hcontrol, hrepl, hworker, hevaluators⟩ := of_decide_eq_true hshows
  have hfresh : Mailboxes.Fresh {} := fun _ _ => rfl
  obtain ⟨hfound, -⟩ := findActor_exact hfresh hrun
  have there : ∀ x ∈ [(3, "repl-thread", false), (4, "worker-4", true)],
      ∃ e ∈ last.session.evaluators, (e.id, e.name, e.worker) = x := by
    intro x hx
    rw [← hevaluators] at hx
    exact List.mem_map.1 hx
  obtain ⟨repl, hmem₃, heq₃⟩ := there (3, "repl-thread", false) (by decide)
  obtain ⟨worker, hmem₄, heq₄⟩ := there (4, "worker-4", true) (by decide)
  simp only [Prod.mk.injEq] at heq₃ heq₄
  refine ⟨h, last, hrun, htable, ?_, ?_, ?_, hcontrol, ?_⟩
  · exact (hfound _ 4).2 ⟨worker, hmem₄, heq₄.1, hworker, heq₄.2.1⟩
  · exact (hfound _ 4).2 ⟨worker, hmem₄, heq₄.1, hworker, heq₄.1⟩
  · exact (hfound _ 3).2 ⟨repl, hmem₃, heq₃.1, hrepl, heq₃.2.2⟩
  · apply Option.eq_none_iff_forall_ne_some.2
    intro a ha
    obtain ⟨e, -, rfl, hlives, hid⟩ := (hfound _ a).1 ha
    have htwo : e.id ∈ [3, 4] := htable ▸ hlives.1
    rw [show e.id = 2 from hid] at htwo
    revert htwo
    decide

end World

end EvalServer
