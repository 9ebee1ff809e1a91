import EvalServer.Proofs.Session.ActiveActors
import EvalServer.Proofs.Session.Staff
import Mathlib.Data.List.Infix

/-!
# Whom an interrupt means

An interrupt for no evaluator in particular goes to the one with the least number among those that
live and are active. Workers are handed their requests in the order of their numbers, so that of
workers it is the one that has been at work longest. The REPL keeps its number over all its
requests; whether it comes first says nothing about when its request was handed to it.
-/

namespace EvalServer

namespace History

/-- The request that an evaluator is to answer next was handed to it before that of another. -/
def precedes (h : History) (a b : ActorId) : Prop :=
  ∃ before : History, before <+: h ∧ (h.resultsOf a).length < (before.handedTo a).length ∧
    (before.handedTo b).length ≤ (h.resultsOf b).length

variable {h before after : History} {a b : ActorId}

instance (h : History) (a b : ActorId) : Decidable (h.precedes a b) :=
  decidable_of_iff (∃ before ∈ h.inits, (h.resultsOf a).length < (handedTo before a).length ∧
    (handedTo before b).length ≤ (h.resultsOf b).length) (by simp [precedes, List.mem_inits])

lemma handedTo_length_le (h₁ : before <+: after) (a : ActorId) :
    (before.handedTo a).length ≤ (after.handedTo a).length := by
  obtain ⟨more, rfl⟩ := h₁
  simp

lemma precedes_asymm (hab : h.precedes a b) : ¬ h.precedes b a := by
  rintro ⟨q, hq, hqb, hqa⟩
  obtain ⟨p, hp, hpa, hpb⟩ := hab
  rcases List.prefix_or_prefix_of_prefix hp hq with hpq | hqp
  · exact absurd (handedTo_length_le hpq a) (by omega)
  · exact absurd (handedTo_length_le hqp b) (by omega)

/-- Where those with lesser numbers come first, the first is the one with the least number. -/
lemma first_iff_least {p : ActorId → Prop}
    (hearlier : ∀ {a b}, p a → p b → a < b → h.precedes a b) (ha : p a) :
    (∀ b, p b → b ≠ a → h.precedes a b) ↔ ∀ b, p b → a ≤ b := by
  constructor
  · intro hfirst b hb
    refine Nat.le_of_not_lt fun hba => ?_
    exact precedes_asymm (hearlier hb ha hba) (hfirst b hb (Nat.ne_of_lt hba))
  · intro hle b hb hne
    exact hearlier ha hb (Nat.lt_of_le_of_ne (hle b hb) hne.symm)

lemma outstanding_ne_nil :
    h.outstanding a ≠ [] ↔ (h.resultsOf a).length < (h.handedTo a).length := by
  rw [outstanding, Ne, List.drop_eq_nil_iff, Nat.not_le]

lemma handedTo_ne_nil : h.handedTo a ≠ [] ↔ a ∈ h.handed.map Prod.fst := by
  rw [handedTo, Ne, List.filterMap_eq_nil_iff, List.mem_map]
  constructor
  · intro hne
    by_contra hno
    exact hne fun p hp => if_neg fun heq => hno ⟨p, hp, heq⟩
  · rintro ⟨p, hp, heq⟩ hnone
    have := hnone p hp
    rw [if_pos heq] at this
    cases this

/-- Who has been handed requests and has answered none was last handed one. -/
lemma engaged_of_unanswered (hhanded : h.handedTo a ≠ []) (hresults : h.resultsOf a = []) :
    h.engaged a = true := by
  have hfalse : (h.dealings a).count false = 0 := by
    rw [count_false_dealings, hresults, List.length_nil]
  have hne : h.dealings a ≠ [] := by
    intro hnil
    have hcount := h.count_true_dealings a
    rw [hnil, List.count_nil, eq_comm, List.length_eq_zero_iff] at hcount
    exact hhanded hcount
  have hlast := List.getLast_mem hne
  rw [engaged, decide_eq_true_eq, List.getLast?_eq_some_getLast hne, Option.some.injEq]
  by_contra hlast'
  rw [Bool.not_eq_true] at hlast'
  rw [hlast'] at hlast
  exact absurd hlast (List.count_eq_zero.1 hfalse)

end History

namespace Traffic

variable {o o' : Traffic} {h h' : History} {a b : ActorId}

/-! ## Evaluators that live -/

/-- No evaluator of a number has ended. -/
def Living (o : Traffic) (a : ActorId) : Prop :=
  ∀ e ∈ o.evaluators, e.id = a → e.phase ≠ .ended

lemma Living.of_change {f : Evaluator → Evaluator} (hliving : (o.change b f).Living a)
    (hid : ∀ e, (f e).id = e.id)
    (hf : ∀ e ∈ o.evaluators, e.id = b → (f e).phase ≠ .ended → e.phase ≠ .ended) :
    o.Living a := by
  intro e he ha
  have hphase := hliving _ (List.mem_map_of_mem he)
  by_cases hb : e.id = b
  · rw [if_pos hb] at hphase
    exact hf e he hb (hphase ((hid e).trans ha))
  · rw [if_neg hb] at hphase
    exact hphase ha

/-- Who lives after a move has lived before. -/
lemma Move.living (hsound : o.Sound) (hmove : Move o h' o') (hliving : o'.Living a) :
    o.Living a := by
  cases hmove with
  | still | start | clear | readerMail | tell | pass | aim | conclude | pick | enter | hand
    | turnBack | write | stop | compute => exact hliving
  | flag id f hf =>
    refine hliving.of_change (fun e => (hf e).1) fun e _ _ hphase => ?_
    rwa [← (hf e).2.2.1]
  | raise => exact hliving.of_change (fun _ => rfl) fun _ _ _ => id
  | host b hhost =>
    intro e he
    rcases hhost.evaluators_eq with heq | ⟨name, flag, heq⟩
    · exact hliving e (heq ▸ he)
    · exact hliving e (heq ▸ List.mem_append_left _ he)
  | accept _ _ _ hres =>
    intro e he
    rcases hres.evaluators_eq with heq | ⟨name, worker, flag, heq⟩
    · exact hliving e (heq ▸ he)
    · exact hliving e (heq ▸ List.mem_append_left _ he)
  | take he hphase | begin he hphase | judge he hphase | announce he hphase | hint _ he hphase
    | post he hphase | finish he hphase | leave he hphase =>
    refine Living.of_change hliving (fun _ => rfl) fun e' he' hid _ => ?_
    rw [hsound.eq_of_id he' he hid, hphase]
    simp
  | die he hphase =>
    refine Living.of_change hliving (fun _ => rfl) fun e' he' hid _ => ?_
    rw [hsound.eq_of_id he' he hid]
    rcases hphase with hphase | ⟨work, index, hphase⟩ <;> simp [hphase]

/-- Kills or no kills, who lives is active exactly if it is attended to. -/
theorem AttendedTo.run {o₀ : Traffic} (hblank : o₀.Blank) (hrun : Run o₀ h o)
    (hliving : o.Living a) : o.AttendedTo h a := by
  induction hrun with
  | start => exact .start hblank a
  | @next h h' o₁ o₂ hrun hmove ih =>
    have hsound := hblank.toSound.run hrun
    have hliving₁ := hmove.living hsound hliving
    refine (ih hliving₁).step (.run hblank hrun) (.run hblank hrun) hsound (fun hrepl => ?_) hmove
    obtain ⟨e, he, heq⟩ := List.mem_map.1 ((Allotted.run hblank hrun).home a hrepl)
    obtain ⟨hid, -⟩ := Prod.mk.inj heq
    exact ⟨e, he, hid, hliving₁ e he hid⟩

/-! ## The order in which requests are handed out -/

lemma Move.handing_of_handedTo (hmove : Move o h' o') (hhanded : h'.handedTo b ≠ []) :
    ∃ work, o.control = .handing b work := by
  cases hmove with
  | @hand target work hc =>
    obtain ⟨p, hp, rfl⟩ := List.mem_map.1 (History.handedTo_ne_nil.1 hhanded)
    obtain rfl : p = (target, work) := List.mem_singleton.1 hp
    exact ⟨work, hc⟩
  | announce | compute => simp [History.handedTo] at hhanded
  | _ => exact absurd rfl hhanded

/-- Workers start with the next number. -/
lemma Move.worker_roles (hmove : Move o h' o') (ha : (a, true) ∈ o'.roles) :
    (a, true) ∈ o.roles ∨ a = o.lastActor + 1 := by
  have hshift := hmove.shift
  generalize h'.accepted = accepted at hshift
  cases hshift with
  | same hroles | known _ _ _ hroles => exact .inl (hroles ▸ ha)
  | repl hroles | first _ _ hroles | worker _ hroles =>
    rw [hroles, List.mem_append, List.mem_singleton] at ha
    exact ha.imp_right fun heq => (Prod.mk.inj heq).1

/-- A worker is handed a request before any evaluator that has started after it. -/
def Ordered (o : Traffic) (h : History) : Prop :=
  ∀ a b, (a, true) ∈ o.roles → a < b → h.handedTo b ≠ [] →
    ∃ before : History, before <+: h ∧ before.handedTo a ≠ [] ∧ before.handedTo b = []

/-- A worker has been handed a request, or control is about to hand it one. -/
lemma handed_or_underway (hbooks : o.Books h) (hallot : o.Allotted h) (ha : (a, true) ∈ o.roles) :
    h.handedTo a ≠ [] ∨ a ∈ o.underway.map Prod.fst := by
  obtain ⟨rest, hthreads, -⟩ := hallot.workers a ha
  have hmem : Thread.any ∈ h.threadsTo a := by
    rw [hthreads]
    exact List.mem_cons_self
  obtain ⟨r, hr, heq⟩ := List.mem_filterMap.1 hmem
  obtain rfl : r.2.1 = a := by
    by_contra hne
    rw [if_neg hne] at heq
    cases heq
  rw [History.handedTo_ne_nil, ← List.mem_append, ← List.map_append, ← hbooks.handed, List.map_map]
  exact List.mem_map_of_mem hr

lemma Ordered.step (hordered : o.Ordered h) (hbooks : o.Books h) (hledger : o.Ledger h)
    (hallot : o.Allotted h) (hsound : o.Sound) (hmove : Move o h' o') : o'.Ordered (h ++ h') := by
  intro a b ha hab hhanded
  have hknown : b ∈ o.ids → (a, true) ∈ o.roles := by
    intro hb
    refine (hmove.worker_roles ha).resolve_right fun heq => ?_
    rw [heq] at hab
    exact absurd (hsound.le_last b hb) (Nat.not_le_of_lt (Nat.lt_of_succ_lt hab))
  by_cases hb : h.handedTo b = []
  · -- control hands it its first request now
    rw [History.handedTo_append, hb, List.nil_append] at hhanded
    obtain ⟨work, hc⟩ := hmove.handing_of_handedTo hhanded
    have hrole := hknown (hsound.target b work (.inr hc))
    refine ⟨h, List.prefix_append _ _, ?_, hb⟩
    refine (handed_or_underway hbooks hallot hrole).resolve_right ?_
    simp only [underway, hc, List.map_cons, List.map_nil, List.mem_singleton]
    exact Nat.ne_of_lt hab
  · have hmem : b ∈ o.ids := by
      by_contra hstranger
      exact hb (hledger.strangers b hstranger).1.handedTo
    obtain ⟨before, hbefore, hbeforea, hbeforeb⟩ := hordered a b (hknown hmem) hab hb
    exact ⟨before, hbefore.trans (List.prefix_append _ _), hbeforea, hbeforeb⟩

theorem Ordered.run {o₀ : Traffic} (hblank : o₀.Blank) (hrun : Run o₀ h o) : o.Ordered h := by
  induction hrun with
  | start => exact fun a b ha => by simp [roles, hblank.evaluators_eq] at ha
  | next hrun hmove ih =>
    exact ih.step (.run hblank hrun) (.run hblank hrun) (.run hblank hrun) (hblank.toSound.run hrun)
      hmove

end Traffic

namespace Session

variable {s : Session} {a : ActorId}

/-- An evaluator is on the table and has not ended. -/
def Lives (s : Session) (a : ActorId) : Prop :=
  a ∈ s.table.evaluators ∧ s.isAlive a = true

/-- An evaluator lives and has requests to answer. -/
def Owes (s : Session) (h : History) (a : ActorId) : Prop :=
  s.Lives a ∧ h.outstanding a ≠ []

instance (s : Session) (a : ActorId) : Decidable (s.Lives a) :=
  inferInstanceAs (Decidable (_ ∧ _))

instance (s : Session) (h : History) (a : ActorId) : Decidable (s.Owes h a) :=
  inferInstanceAs (Decidable (_ ∧ _))

lemma lives_iff : s.Lives a ↔ s.known.any (fun e => e.id == a && e.isAlive) = true := by
  have hid : ∀ {b : ActorId} {e : Evaluator}, s.evaluator? b = some e → e.id = b := fun hfind => by
    simpa using List.find?_some hfind
  simp only [Lives, isAlive, known, List.any_eq_true, List.mem_filterMap, Bool.and_eq_true,
    beq_iff_eq, Option.any_eq_true]
  constructor
  · rintro ⟨ha, e, hfind, halive⟩
    exact ⟨e, ⟨a, ha, hfind⟩, hid hfind, halive⟩
  · rintro ⟨e, ⟨b, hb, hfind⟩, rfl, halive⟩
    obtain rfl := hid hfind
    exact ⟨hb, e, hfind, halive⟩

lemma firstRunning_eq_some_iff : s.firstRunning = some a ↔
    (a ∈ s.active.members ∧ s.Lives a) ∧ ∀ b ∈ s.active.members, s.Lives b → a ≤ b := by
  simp only [firstRunning, ActiveSet.firstWhere_eq_some_iff, lives_iff]

lemma firstRunning_eq_none_iff :
    s.firstRunning = none ↔ ∀ b ∈ s.active.members, ¬ s.Lives b := by
  simp only [firstRunning, ActiveSet.firstWhere, List.find?_eq_none, lives_iff]

lemma interruptTarget_any : s.interruptTarget .any = some a ↔
    ((a ∈ s.active.members ∧ s.Lives a) ∧ ∀ b ∈ s.active.members, s.Lives b → a ≤ b) ∨
    (∀ b ∈ s.active.members, ¬ s.Lives b) ∧ s.replId = some a := by
  rw [interruptTarget, Option.or_eq_some_iff, firstRunning_eq_some_iff, firstRunning_eq_none_iff]

/-- Who lives is the REPL or a worker. -/
lemma Lives.cases (h : s.Lives a) : s.replId = some a ∨ a ∈ s.table.workers := by
  rcases List.mem_append.1 h.1 with hrepl | hworker
  · exact .inl (World.replId_eq_some_iff.2 ⟨Option.mem_toList.1 hrepl, h.2⟩)
  · exact .inr hworker

end Session

namespace World

open Traffic

variable {w w' : World} {a : ActorId}

/-! ## The steps of an interrupt -/

/-- The flag of an evaluator is raised; otherwise only the control loop goes on. -/
def RaisesFlag (w : World) (a : ActorId) (w' : World) : Prop :=
  w'.image = w.image ∧ w'.session =
    { w.session with
      control := .aborting a
      evaluators := w.session.evaluators.map fun e =>
        if e.id = a then { e with raised := true } else e }

/-- The prompts of an actor are aborted; otherwise only the control loop goes on. -/
def AbortsPrompts (w : World) (a : ActorId) (w' : World) : Prop :=
  w'.image = w.image ∧
    w'.session = { w.session with control := .receiving, prompts := w'.session.prompts } ∧
    ∀ tag, w'.session.prompts.prompt? tag = (w.session.prompts.prompt? tag).map fun x =>
      if x.actor = a then { x with state := x.state.abort } else x

section steps

/-- The world in which this is all that waits for control. -/
def leave (w : World) (rest : List Message) : World :=
  { w with image := { w.image with
      mailboxes := w.image.mailboxes.setQueue w.session.controlId rest } }

@[simp] lemma session_leave (w : World) (rest : List Message) :
    (w.leave rest).session = w.session :=
  rfl

@[simp] lemma controlQueue_leave (w : World) (rest : List Message) :
    (w.leave rest).controlQueue = rest := by
  rw [controlQueue, session_leave, leave, Mailboxes.queue_setQueue, if_pos rfl]

lemma control_receives (hcontrol : w.session.control = .receiving) {message : Message}
    {rest : List Message} (hqueue : w.controlQueue = message :: rest) :
    w.controlStep? = some ((w.leave rest).handle message) := by
  have hmail : w.image.mailboxes.receive? w.session.controlId =
      some (message, w.image.mailboxes.setQueue w.session.controlId rest) :=
    Mailboxes.receive?_eq_some_iff.2 ⟨rest, hqueue, rfl⟩
  have hreceive : w.receive? w.session.controlId = some (message, w.leave rest) := by
    rw [receive?, hmail]
    rfl
  simp only [controlStep?, hcontrol, hreceive, Option.bind_eq_bind, Option.bind_some,
    Option.pure_def]

lemma control_interrupt (hcontrol : w.session.control = .receiving) {thread : Thread}
    {rest : List Message} (hqueue : w.controlQueue = .client (.interrupt thread) :: rest) :
    ∃ w', w.controlStep? = some w' ∧ w'.controlQueue = rest ∧ w'.session =
      { w.session with
        control := ((w.session.interruptTarget thread).map .raising).getD .receiving } := by
  simp only [control_receives hcontrol hqueue, handle, handleClient, session_leave,
    Option.some.injEq, exists_eq_left']
  cases w.session.interruptTarget thread with
  | none => exact ⟨controlQueue_leave w rest, by simp [← hcontrol]⟩
  | some target => exact ⟨controlQueue_leave w rest, rfl⟩

lemma control_raising (hcontrol : w.session.control = .raising a) :
    (a ∈ w.session.table.evaluators → ∃ w', w.controlStep? = some w' ∧ w.RaisesFlag a w') ∧
    (a ∉ w.session.table.evaluators → w.controlStep? = some (w.goControl .receiving)) := by
  constructor
  · intro hknown
    have hraise : w.session.raise a =
        (true, w.session.changeEvaluator a fun e => { e with raised := true }) :=
      if_pos (by simpa using hknown)
    simp only [controlStep?, hcontrol, hraise, Option.some.injEq, exists_eq_left']
    exact ⟨rfl, rfl⟩
  · intro hunknown
    have hraise : w.session.raise a = (false, w.session) := if_neg (by simpa using hunknown)
    simp only [controlStep?, hcontrol, hraise]

lemma control_aborting (hcontrol : w.session.control = .aborting a) :
    ∃ w', w.controlStep? = some w' ∧ w.AbortsPrompts a w' := by
  simp only [controlStep?, hcontrol, Option.some.injEq, exists_eq_left']
  exact ⟨rfl, rfl, fun tag => w.session.prompts.prompt?_abort a tag⟩

end steps

/-! ## Whom it means -/

section targets

variable {h : History} {o₀ : Traffic}

lemma living_of_lives (hsound : w.traffic.Sound) (hlives : w.session.Lives a) :
    w.traffic.Living a := by
  intro e he hid hended
  obtain ⟨e', hfind, halive⟩ := (Option.any_eq_true _ _).1 hlives.2
  obtain ⟨he', hid'⟩ := mem_of_evaluator? hfind
  obtain rfl : e' = e := hsound.eq_of_id he' he (hid'.trans hid.symm)
  simp [Evaluator.isAlive, hended] at halive

/-- Between two messages those that live are active if control last dealt with them by handing them
a request. -/
lemma active_of_lives (hblank : o₀.Blank) (hrun : Run o₀ h w.traffic)
    (hcontrol : w.session.control = .receiving) (hlives : w.session.Lives a) :
    (a ∈ w.session.active.members ↔ h.engaged a) ∧
      (h.engaged a → h.outstanding a ≠ []) := by
  have hatt := AttendedTo.run hblank hrun (living_of_lives (hblank.toSound.run hrun) hlives)
  have hnot : ¬ w.traffic.Handing a := not_handing hcontrol (by simp)
  exact ⟨hatt.active.trans (or_iff_right hnot), fun hengaged =>
    History.outstanding_ne_nil.2 (hatt.owed hengaged)⟩

/-- Of those that have requests to answer the one with the lesser number has been handed its own
before, if the REPL has not been overtaken. -/
lemma precedes_of_lt (hstaffed : w.Staffed) (hordered : w.traffic.Ordered h)
    (hworkers : ∀ a ∈ w.session.table.workers, w.session.Owes h a → h.resultsOf a = [])
    (hrepl : ∀ r, w.session.replId = some r → w.session.Owes h r →
      ∀ b, w.session.Owes h b → r < b → h.precedes r b)
    {b : ActorId} (ha : w.session.Owes h a) (hb : w.session.Owes h b) (hab : a < b) :
    h.precedes a b := by
  rcases ha.1.cases with hr | hworker
  · exact hrepl a hr ha b hb hab
  · obtain ⟨e, he, rfl, hrole⟩ := hstaffed.seated.workers a hworker
    have hhanded : h.handedTo b ≠ [] := by
      intro hnil
      exact hb.2 (by rw [History.outstanding, hnil, List.drop_nil])
    obtain ⟨before, hbefore, hbeforea, hbeforeb⟩ := hordered e.id b
      (List.mem_map.2 ⟨e, he, by rw [hrole]⟩) hab hhanded
    refine ⟨before, hbefore, ?_, ?_⟩
    · rw [hworkers e.id hworker ha]
      exact List.length_pos_iff.2 hbeforea
    · rw [hbeforeb]
      exact Nat.zero_le _

end targets

/-- Whatever turns are taken, kills among them: an interrupt for nobody in particular is meant for
the evaluator with the least number among the active that live, which are those that control last
dealt with by handing them a request, or for a live REPL if there are none. It raises the flag of
that one and aborts its prompts, if it is still on the table, and changes nothing else. If no live
worker was handed another request after its result, and no request to the REPL is behind an earlier
one or came after that of a live worker that started later, then it is meant for the evaluator whose
request has been under way longest. -/
theorem interrupt_first_running {image : Image} {id : Nat} {host : Host} {wantsOutput : Bool}
    {outputPort : Option UInt16} {connection : Connection} {turns : List Turn} {h : History}
    {last : World} (hfresh : image.mailboxes.Fresh)
    (hrun : (opened image id host wantsOutput outputPort connection).play? turns = some (h, last))
    (hcontrol : last.session.control = .receiving) :
    (∀ a, last.session.interruptTarget .any = some a ↔
      ((last.session.Lives a ∧ h.engaged a) ∧
        ∀ b, last.session.Lives b → h.engaged b → a ≤ b) ∨
      (∀ b, last.session.Lives b → ¬ h.engaged b) ∧ last.session.replId = some a) ∧
    (∀ b, last.session.Lives b → (b ∈ last.session.active.members ↔ h.engaged b)) ∧
    (∀ rest, last.controlQueue = .client (.interrupt .any) :: rest →
      ∃ w, last.controlStep? = some w ∧ w.controlQueue = rest ∧ w.session =
        { last.session with
          control := ((last.session.interruptTarget .any).map .raising).getD .receiving }) ∧
    (∀ (w : World) a, w.session.control = .raising a →
      (a ∈ w.session.table.evaluators → ∃ w', w.controlStep? = some w' ∧ w.RaisesFlag a w') ∧
      (a ∉ w.session.table.evaluators → w.controlStep? = some (w.goControl .receiving))) ∧
    (∀ (w : World) a, w.session.control = .aborting a →
      ∃ w', w.controlStep? = some w' ∧ w.AbortsPrompts a w') ∧
    ((∀ a ∈ last.session.table.workers, last.session.Owes h a → h.resultsOf a = []) →
      (∀ r, last.session.replId = some r → last.session.Owes h r → h.engaged r ∧
        ∀ b, last.session.Owes h b → r < b → h.precedes r b) →
      ∀ a, last.session.interruptTarget .any = some a ↔
        (last.session.Owes h a ∧ ∀ b, last.session.Owes h b → b ≠ a → h.precedes a b) ∨
        (∀ b, ¬ last.session.Owes h b) ∧ last.session.replId = some a) := by
  obtain ⟨hblank, hmoves⟩ := opened_run hfresh hrun
  have hstaffed := opened_staffed hfresh hrun
  have hactive : ∀ b, last.session.Lives b →
      (b ∈ last.session.active.members ↔ h.engaged b) ∧ (h.engaged b → h.outstanding b ≠ []) :=
    fun b => active_of_lives hblank hmoves hcontrol
  have hswap : ∀ {P : ActorId → Prop},
      (∀ b ∈ last.session.active.members, last.session.Lives b → P b) ↔
        ∀ b, last.session.Lives b → h.engaged b → P b :=
    ⟨fun hall b hlives hengaged => hall b ((hactive b hlives).1.2 hengaged) hlives,
      fun hall b hb hlives => hall b hlives ((hactive b hlives).1.1 hb)⟩
  have htarget : ∀ a, last.session.interruptTarget .any = some a ↔
      ((last.session.Lives a ∧ h.engaged a) ∧
        ∀ b, last.session.Lives b → h.engaged b → a ≤ b) ∨
      (∀ b, last.session.Lives b → ¬ h.engaged b) ∧ last.session.replId = some a := by
    intro a
    rw [Session.interruptTarget_any, and_comm (b := last.session.Lives a),
      and_congr_right fun hlives => (hactive a hlives).1]
    exact or_congr (and_congr_right fun _ => hswap) (and_congr_left fun _ => hswap)
  refine ⟨htarget, fun b hlives => (hactive b hlives).1, fun rest => control_interrupt hcontrol,
    fun w a => control_raising, fun w a => control_aborting, fun hworkers hrepl a => ?_⟩
  have howes : ∀ b, last.session.Owes h b ↔ last.session.Lives b ∧ h.engaged b := by
    refine fun b => ⟨fun hb => ⟨hb.1, ?_⟩, fun hb => ⟨hb.1, (hactive b hb.1).2 hb.2⟩⟩
    rcases hb.1.cases with hr | hworker
    · exact (hrepl b hr hb).1
    · have hresults := hworkers b hworker hb
      refine History.engaged_of_unanswered (fun hnil => hb.2 ?_) hresults
      rw [History.outstanding, hnil, List.drop_nil]
  have hearlier : ∀ {a b}, last.session.Owes h a → last.session.Owes h b → a < b →
      h.precedes a b :=
    precedes_of_lt hstaffed (.run hblank hmoves) hworkers fun r hr hrowes => (hrepl r hr hrowes).2
  rw [htarget a]
  refine or_congr ?_ (and_congr_left fun _ => forall_congr' fun b => ?_)
  · rw [← howes a]
    refine and_congr_right fun ha => ?_
    rw [History.first_iff_least hearlier ha]
    exact forall_congr' fun b => by rw [howes b, and_imp]
  · rw [howes b, not_and]

/-- Two requests are handed out, and an interrupt for nobody in particular comes. -/
def twoAtWork (first second : String) : List Turn :=
  sampleStart ++ sampleMessage first ++ sampleMessage second ++
    List.replicate 6 (.step .control) ++ sampleMessage "(:emacs-interrupt t)"

/-- The REPL gets its request before a worker starts. -/
def replFirst : List Turn :=
  twoAtWork "(:emacs-rex (swank/x) nil :repl-thread 1)" "(:emacs-rex (swank/x) nil t 2)"

/-- The REPL gets its request when a worker is at work. -/
def replSecond : List Turn :=
  twoAtWork "(:emacs-rex (swank/x) nil t 1)" "(:emacs-rex (swank/x) nil :repl-thread 2)"

theorem interrupt_first_running_repl : ∃ h last, sample.play? replFirst = some (h, last) ∧
    last.session.Owes h 3 ∧ last.session.Owes h 4 ∧
    last.session.interruptTarget .any = some 3 ∧
    ∀ b, last.session.Owes h b → b ≠ 3 → h.precedes 3 b := by
  have hall : (sample.play? replFirst).any (fun p =>
      p.2.session.control = .receiving ∧ p.2.session.table.evaluators = [3, 4] ∧
      p.2.session.table.workers = [4] ∧ p.2.session.replId = some 3 ∧
      p.2.session.Owes p.1 3 ∧ p.2.session.Owes p.1 4 ∧ p.1.resultsOf 4 = [] ∧
      p.1.engaged 3 ∧ p.1.precedes 3 4) = true := by
    decide +kernel
  obtain ⟨⟨h, last⟩, hrun, hshows⟩ := (Option.any_eq_true _ _).1 hall
  obtain ⟨hcontrol, hevaluators, hworkers, hrepl, h3, h4, hresults, hengaged, hprecedes⟩ :=
    of_decide_eq_true hshows
  have hothers : ∀ b, last.session.Owes h b → b ≠ 3 → h.precedes 3 b := by
    intro b hb hne
    have hmem := hb.1.1
    rw [hevaluators, List.mem_cons, List.mem_singleton] at hmem
    exact hmem.resolve_left hne ▸ hprecedes
  have hfresh : Mailboxes.Fresh {} := fun _ _ => rfl
  obtain ⟨-, -, -, -, -, htarget⟩ := interrupt_first_running hfresh hrun hcontrol
  refine ⟨h, last, hrun, h3, h4, (htarget ?_ ?_ 3).2 (.inl ⟨h3, hothers⟩), hothers⟩
  · intro a ha _
    rw [hworkers, List.mem_singleton] at ha
    exact ha ▸ hresults
  · intro r hr _
    obtain rfl : 3 = r := Option.some.inj (hrepl.symm.trans hr)
    exact ⟨hengaged, fun b hb hlt => hothers b hb (Nat.ne_of_gt hlt)⟩

/-- A worker whose request has been under way longer is passed over for the REPL. -/
theorem interrupt_passes_worker : ∃ h last, sample.play? replSecond = some (h, last) ∧
    last.session.control = .receiving ∧ last.session.Owes h 3 ∧ last.session.Owes h 4 ∧
    h.precedes 4 3 ∧ (∀ b, last.session.Owes h b → b ≠ 4 → h.precedes 4 b) ∧
    last.session.interruptTarget .any = some 3 := by
  have hall : (sample.play? replSecond).any (fun p =>
      p.2.session.control = .receiving ∧ p.2.session.table.evaluators = [3, 4] ∧
      p.2.session.Owes p.1 3 ∧ p.2.session.Owes p.1 4 ∧ p.1.precedes 4 3 ∧
      p.2.session.interruptTarget .any = some 3) = true := by
    decide +kernel
  obtain ⟨⟨h, last⟩, hrun, hshows⟩ := (Option.any_eq_true _ _).1 hall
  obtain ⟨hcontrol, hevaluators, h3, h4, hprecedes, htarget⟩ := of_decide_eq_true hshows
  refine ⟨h, last, hrun, hcontrol, h3, h4, hprecedes, fun b hb hne => ?_, htarget⟩
  have hmem := hb.1.1
  rw [hevaluators, List.mem_cons, List.mem_singleton] at hmem
  exact hmem.resolve_right hne ▸ hprecedes

end World

end EvalServer
