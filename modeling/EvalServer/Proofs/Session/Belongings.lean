import EvalServer.Proofs.Session.Frames

/-!
# What belongs to a session

A session names no evaluators but its own, and what its steps do to mailboxes they do to those of
its own actors: the actor whose step it is takes a message from its mailbox, or puts one into
another's.
-/

namespace EvalServer

open Traffic

/-- Who puts messages into mailboxes. -/
inductive Poster where
  /-- The task that starts the actors of a session and serves its connection. -/
  | startUp
  | actor (id : ActorId)
  deriving DecidableEq

namespace Session

/-- The numbers of the actors of a session, in the order in which it has been given them. -/
def numbers (s : Session) : List ActorId :=
  s.readerId :: s.controlId :: s.evaluators.map Evaluator.id

/-- The actors on a session's table, and those that evaluate, ask or compute for it. -/
def named (s : Session) : List ActorId :=
  s.table.evaluators ++ s.active.members ++ s.prompts.prompts.map Prompt.actor ++
    s.jobs.map Job.actor

end Session

/-- Of each mailbox a message is taken, or one is put into it if that may be, or it stays as it is;
and only those of some actors change. -/
def Mailboxes.Changes (own : List ActorId) (mayPut : Prop) (m m' : Mailboxes) : Prop :=
  ∀ a, m'.queue a = m.queue a ∨ a ∈ own ∧
    ((∃ message, m.queue a = message :: m'.queue a) ∨
      mayPut ∧ ∃ message, m'.queue a = m.queue a ++ [message])

namespace Mailboxes.Changes

variable {own : List ActorId} {mayPut : Prop} {m m' m'' : Mailboxes} {a : ActorId}

lemma of_eq (h : m'.queue = m.queue) : Changes own mayPut m m' :=
  fun b => .inl (congrFun h b)

lemma send (ha : a ∈ own) (hput : mayPut) (message : Message) :
    Changes own mayPut m (m.send a message) := by
  intro b
  rw [queue_send]
  by_cases hb : b = a
  · subst hb
    exact .inr ⟨ha, .inr ⟨hput, message, by rw [if_pos rfl]⟩⟩
  · exact .inl (if_neg hb)

lemma receive {message : Message} (ha : a ∈ own) (h : m.receive? a = some (message, m')) :
    Changes own mayPut m m' := by
  obtain ⟨rest, hqueue, rfl⟩ := receive?_eq_some_iff.1 h
  intro b
  rw [queue_setQueue]
  by_cases hb : b = a
  · subst hb
    rw [if_pos rfl]
    exact .inr ⟨ha, .inl ⟨message, hqueue⟩⟩
  · exact .inl (if_neg hb)

lemma mono {own' : List ActorId} {mayPut' : Prop} (h : Changes own mayPut m m')
    (hown : own ⊆ own') (hput : mayPut → mayPut') : Changes own' mayPut' m m' :=
  fun b => (h b).imp_right fun ⟨hb, hchange⟩ => ⟨hown hb, hchange.imp_right (And.imp_left hput)⟩

/-- New numbers leave the mailboxes as they are. -/
lemma trans_eq (h : Changes own mayPut m m') (heq : m''.queue = m'.queue) :
    Changes own mayPut m m'' := by
  intro b
  rw [heq]
  exact h b

end Mailboxes.Changes

/-- Of what sessions share only mailboxes change, and only those of some actors. -/
structure Image.Mails (own : List ActorId) (image image' : Image) : Prop where
  mailboxes : Mailboxes.Changes own True image.mailboxes image'.mailboxes
  rest : image' = { image with mailboxes := image'.mailboxes }

namespace Image.Mails

variable {own own' : List ActorId} {image image' image'' : Image}

lemma refl (own : List ActorId) (image : Image) : image.Mails own image :=
  ⟨.of_eq rfl, rfl⟩

lemma send {a : ActorId} (ha : a ∈ own) (message : Message) :
    image.Mails own { image with mailboxes := image.mailboxes.send a message } :=
  ⟨.send ha trivial message, rfl⟩

lemma mono (h : image.Mails own image') (hown : own ⊆ own') : image.Mails own' image' :=
  ⟨h.mailboxes.mono hown id, h.rest⟩

lemma queue_eq (h : image.Mails [] image') : image'.mailboxes.queue = image.mailboxes.queue := by
  funext a
  exact (h.mailboxes a).resolve_right fun hmem => by cases hmem.1

lemma quit_eq (h : image.Mails own image') : image'.quit = image.quit := by
  rw [h.rest]

lemma trans_nil (h : image.Mails own image') (h' : image'.Mails [] image'') :
    image.Mails own image'' := by
  refine ⟨h.mailboxes.trans_eq h'.queue_eq, ?_⟩
  rw [h'.rest, h.rest]

end Image.Mails

namespace World

variable {w w' : World}

/-- Who puts what a step puts into mailboxes. -/
def poster? (w : World) : Action → Option Poster
  | .serve => some .startUp
  | .reader => some (.actor w.session.readerId)
  | .control => some (.actor w.session.controlId)
  | .evaluator id => some (.actor id)
  | .job index => (w.session.jobs[index]?).map fun job => .actor job.actor
  | _ => none

section mail

variable {mayPut : Prop} {own : List ActorId}

/-- Mailboxes of the session's own actors change, if any. -/
def MailOf (mayPut : Prop) (w w' : World) : Prop :=
  Mailboxes.Changes w.session.numbers mayPut w.image.mailboxes w'.image.mailboxes

/-- Mailboxes of the session's own actors but for its reader change, if any. -/
def StaffMail (mayPut : Prop) (w w' : World) : Prop :=
  Mailboxes.Changes w.session.numbers.tail mayPut w.image.mailboxes w'.image.mailboxes

lemma StaffMail.mailOf (h : StaffMail mayPut w w') : MailOf mayPut w w' :=
  h.mono (List.tail_sublist _).subset id

lemma mail_same (h : w'.image.mailboxes.queue = w.image.mailboxes.queue) :
    Mailboxes.Changes own mayPut w.image.mailboxes w'.image.mailboxes :=
  .of_eq h

lemma mail_tell_control (hput : mayPut) (m : Message) : StaffMail mayPut w (w.tell m) :=
  .send (by simp [Session.numbers]) hput m

lemma mails_tell (hown : w.session.controlId ∈ own) (m : Message) :
    w.image.Mails own (w.tell m).image :=
  .send hown m

lemma mails_receive {a : ActorId} {m : Message} (ha : a ∈ own)
    (h : w.receive? a = some (m, w')) : w.image.Mails own w'.image := by
  simp only [receive?, Option.map_eq_some_iff, Prod.exists, Prod.mk.injEq] at h
  obtain ⟨_, mailboxes, hreceive, rfl, rfl⟩ := h
  exact ⟨.receive ha hreceive, rfl⟩

lemma mails_ensureRepl (w : World) : w.image.Mails [] w.ensureRepl.2.image := by
  unfold ensureRepl
  split
  · exact ⟨.of_eq rfl, rfl⟩
  · split
    · exact .refl _ _
    · exact ⟨.of_eq rfl, rfl⟩

lemma mails_resolve (w : World) (thread : Thread) :
    w.image.Mails [] (w.resolve thread).2.image := by
  cases thread with
  | repl => exact w.mails_ensureRepl
  | any => exact ⟨.of_eq rfl, rfl⟩
  | id | name => exact .refl _ _

lemma closeStep_image {phase phase' : ClosePhase} (h : w.closeStep? phase = some (w', phase')) :
    w'.image = w.image :=
  (closeStep_frame h).1

lemma mails_serve (h : w.serveStep? = some w') :
    w.image.Mails w.session.numbers w'.image := by
  unfold serveStep? at h
  cases hservice : w.session.service with
  | absent | ended => simp [hservice] at h
  | startingRepl =>
    simp only [hservice, Option.some.injEq] at h
    subst h
    exact w.mails_ensureRepl.mono (List.nil_subset _)
  | startingControl | startingReader | recording | recordingOutput port =>
    simp only [hservice, Option.some.injEq] at h
    subst h
    exact .refl _ _
  | announcingOutput port =>
    simp only [hservice, Option.some.injEq] at h
    subst h
    exact mails_tell (by simp [Session.numbers]) _
  | starting =>
    simp only [hservice, Option.some.injEq] at h
    subst h
    exact .send (by simp [Session.numbers]) .start
  | opening | serving =>
    simp only [hservice] at h
    split at h <;> cases h <;> exact .refl _ _
  | closing phase =>
    simp only [hservice] at h
    split at h
    · next w₁ phase' hclose =>
      cases h
      exact closeStep_image hclose ▸ .refl _ _
    · cases h
      exact .refl _ _

lemma mails_reader (h : w.readerStep? = some w') :
    w.image.Mails w.session.numbers w'.image := by
  unfold readerStep? at h
  cases hreader : w.session.reader with
  | absent | ended => simp [hreader] at h
  | waiting =>
    simp only [hreader, Option.bind_eq_bind, Option.bind_eq_some_iff, Option.pure_def,
      Option.some.injEq, Prod.exists] at h
    obtain ⟨m, w₁, hreceive, rfl⟩ := h
    have hmail : w.image.Mails w.session.numbers w₁.image :=
      mails_receive (by simp [Session.numbers]) hreceive
    split
    · exact hmail
    · exact hmail
  | reading =>
    simp only [hreader, readFrame?] at h
    split at h
    · cases h
      exact mails_tell (by simp [Session.numbers]) _
    · split at h
      · cases h
      · cases h
        exact .refl _ _

lemma mails_handle (w : World) (m : Message) : w.image.Mails [] (w.handle m).image := by
  cases m with
  | start | evaluate | emit | debug | result => exact .refl _ _
  | client event =>
    cases event with
    | evaluate form package thread id =>
      have hmails := w.mails_resolve thread
      simp only [handle, handleClient]
      cases hresolve : w.resolve thread with
      | mk found w₂ =>
        rw [hresolve] at hmails
        cases found <;> exact hmails
    | interrupt thread =>
      simp only [handle, handleClient]
      split <;> exact .refl _ _
    | returnString | returnValue | unknown => exact .refl _ _

lemma mails_control (hsound : w.traffic.Sound) (h : w.controlStep? = some w') :
    w.image.Mails w.session.numbers.tail w'.image := by
  unfold controlStep? at h
  cases hc : w.session.control with
  | absent | ended => simp [hc] at h
  | receiving =>
    simp only [hc, Option.bind_eq_bind, Option.bind_eq_some_iff, Option.pure_def,
      Option.some.injEq, Prod.exists] at h
    obtain ⟨m, w₁, hreceive, rfl⟩ := h
    have hmail : w.image.Mails w.session.numbers.tail w₁.image :=
      mails_receive (by simp [Session.numbers]) hreceive
    exact hmail.trans_nil (w₁.mails_handle m)
  | handing target work =>
    simp only [hc, Option.some.injEq] at h
    subst h
    have htarget : target ∈ w.traffic.ids := hsound.target target work (.inr hc)
    exact .send (List.mem_cons_of_mem _ htarget) _
  | raising target =>
    simp only [hc] at h
    split at h <;> cases h <;> exact .refl _ _
  | entering | aborting =>
    simp only [hc, Option.some.injEq] at h
    subst h
    exact .refl _ _
  | writing event =>
    simp only [hc, Option.some.injEq] at h
    subst h
    simp only [write]
    split <;> exact .refl _ _

lemma mails_evaluator {id : ActorId} (h : w.evaluatorStep? id = some w') :
    w.image.Mails w.session.numbers.tail w'.image := by
  simp only [evaluatorStep?, Option.bind_eq_bind, Option.bind_eq_some_iff] at h
  obtain ⟨e, hfind, h⟩ := h
  obtain ⟨he, rfl⟩ := mem_of_evaluator? hfind
  have hown : e.id ∈ w.session.numbers.tail := List.mem_cons_of_mem _ (List.mem_map_of_mem he)
  cases hphase : e.phase with
  | receiving =>
    simp only [hphase, evaluatorPhase?, Option.bind_eq_bind, Option.bind_eq_some_iff,
      Option.pure_def, Option.some.injEq, Prod.exists] at h
    obtain ⟨m, w₁, hreceive, rfl⟩ := h
    have hmail : w.image.Mails w.session.numbers.tail w₁.image := mails_receive hown hreceive
    exact hmail
  | evaluating work index =>
    simp only [hphase, evaluatorPhase?, Option.bind_eq_bind, Option.bind_eq_some_iff,
      Option.pure_def] at h
    obtain ⟨job, -, h⟩ := h
    split at h
    · cases h
      exact .refl _ _
    · cases h
  | announcing work value ns =>
    simp only [hphase, evaluatorPhase?, Option.some.injEq] at h
    subst h
    split
    · exact .refl _ _
    · exact mails_tell (by simp [Session.numbers]) _
  | posting messages =>
    cases messages with
    | nil =>
      simp only [hphase, evaluatorPhase?, Option.some.injEq] at h
      subst h
      exact .refl _ _
    | cons m rest =>
      simp only [hphase, evaluatorPhase?, Option.some.injEq] at h
      subst h
      exact mails_tell (by simp [Session.numbers]) m
  | taken | hinting | leaving =>
    simp only [hphase, evaluatorPhase?, Option.some.injEq] at h
    subst h
    exact .refl _ _
  | ended => simp [hphase, evaluatorPhase?] at h

lemma mail_job {index : Nat} (h : w.jobStep? index = some w') : StaffMail True w w' := by
  simp only [jobStep?, Option.bind_eq_bind, Option.bind_eq_some_iff, Option.pure_def] at h
  obtain ⟨⟨actor, flag, ns, phase⟩, -, h⟩ := h
  cases phase with
  | computing c =>
    cases c with
    | done result =>
      cases h
      exact mail_same rfl
    | step r next =>
      cases h
      cases r with
      | writeResult | debug => exact mail_tell_control trivial _
      | writeOutput text =>
        simp only [serve]
        split <;> exact mail_same rfl
      | _ => exact mail_same rfl
  | printing text c =>
    cases h
    exact mail_tell_control trivial _
  | waking c =>
    cases h
    exact mail_same rfl
  | prompting phase tag question next =>
    cases phase with
    | showing | withdrawing =>
      cases h
      exact mail_tell_control trivial _
    | looking | aborting =>
      cases h
      exact mail_same rfl
    | waiting =>
      simp only [promptStep?, awaitAnswer?] at h
      split at h <;> cases h <;> exact mail_same rfl
  | resting | ended => cases h

/-- What nobody posts leaves alone what sessions share. -/
lemma image_of_still {action : Action} (hposter : w.poster? action = none)
    (h : w.step? action = some w') : w'.image = w.image := by
  cases action with
  | serve | reader | control | evaluator => cases hposter
  | job index =>
    simp only [step?, jobStep?, Option.bind_eq_bind, Option.bind_eq_some_iff] at h
    obtain ⟨job, hjob, -⟩ := h
    simp [poster?, hjob] at hposter
  | output =>
    obtain ⟨output, rfl⟩ := output_frame (.inl h)
    rfl
  | connectOutput =>
    obtain ⟨output, rfl⟩ := output_frame (.inr (.inl h))
    rfl
  | close index =>
    obtain ⟨phase, phase', w₁, -, hclose, rfl⟩ := closer_spec h
    have himage : w₁.image = w.image := closeStep_image hclose
    exact himage
  | finish handle =>
    cases handle with
    | reader => exact readerEnd_frame h ▸ rfl
    | control =>
      obtain ⟨-, -, rfl⟩ := controlEnd_spec h
      rfl
    | evaluator id => exact evaluatorEnd_frame h ▸ rfl
    | output =>
      obtain ⟨output, rfl⟩ := output_frame (.inr (.inr h))
      rfl
  | cut calls =>
    obtain ⟨_, _, -, -, -, rfl⟩ := cutShort_spec h
    rfl
  | wake index =>
    obtain ⟨jobs, rfl⟩ := wake_frame h
    rfl
  | deliver arrival =>
    simp only [step?] at h
    split at h <;> cases h
    rfl
  | endInput | hangUp | beginClose =>
    cases h
    rfl

/-- Nobody but the service and the reader itself has to do with the reader's mailbox. -/
lemma staff_mail (hsound : w.traffic.Sound) {action : Action} (hserve : action ≠ .serve)
    (hreader : action ≠ .reader) (h : w.step? action = some w') :
    StaffMail (w.poster? action).isSome w w' := by
  cases hposter : w.poster? action with
  | none => exact mail_same (congrArg (·.mailboxes.queue) (image_of_still hposter h))
  | some poster =>
    cases action with
    | serve => exact absurd rfl hserve
    | reader => exact absurd rfl hreader
    | control => exact (mails_control hsound h).mailboxes.mono (List.Subset.refl _) fun _ => rfl
    | evaluator id => exact (mails_evaluator h).mailboxes.mono (List.Subset.refl _) fun _ => rfl
    | job index => exact (mail_job h).mono (List.Subset.refl _) fun _ => rfl
    | _ => cases hposter

/-- Nobody but jobs changes anything else that sessions share. -/
lemma step_mails (hsound : w.traffic.Sound) {action : Action} (haction : ∀ i, action ≠ .job i)
    (h : w.step? action = some w') : w.image.Mails w.session.numbers w'.image := by
  have hstaff : w.session.numbers.tail ⊆ w.session.numbers := (List.tail_sublist _).subset
  cases hposter : w.poster? action with
  | none => exact image_of_still hposter h ▸ .refl _ _
  | some poster =>
    cases action with
    | serve => exact mails_serve h
    | reader => exact mails_reader h
    | control => exact (mails_control hsound h).mono hstaff
    | evaluator id => exact (mails_evaluator h).mono hstaff
    | job index => exact absurd rfl (haction index)
    | _ => cases hposter

theorem step_mail (hsound : w.traffic.Sound) {action : Action} (h : w.step? action = some w') :
    MailOf (w.poster? action).isSome w w' := by
  by_cases hserve : action = .serve
  · subst hserve
    exact (mails_serve h).mailboxes.mono (List.Subset.refl _) fun _ => rfl
  · by_cases hreader : action = .reader
    · subst hreader
      exact (mails_reader h).mailboxes.mono (List.Subset.refl _) fun _ => rfl
    · exact (staff_mail hsound hserve hreader h).mailOf

/-- What goes on elsewhere leaves a session sound if the mailboxes of its actors stay. -/
lemma sound_elsewhere (hsound : w.traffic.Sound) {image : Image}
    (hqueue : ∀ a ∈ w.session.numbers, image.mailboxes.queue a = w.image.mailboxes.queue a)
    (hlast : w.image.mailboxes.lastActor ≤ image.mailboxes.lastActor)
    (hfresh : image.mailboxes.Fresh) : (World.mk image w.session).traffic.Sound where
  reader_lt := hsound.reader_lt
  control_le := Nat.le_trans hsound.control_le hlast
  absent := hsound.absent
  wants := hsound.wants
  nodup := hsound.nodup
  control_lt := hsound.control_lt
  le_last := fun a ha => Nat.le_trans (hsound.le_last a ha) hlast
  unborn := hfresh
  mail := by
    intro a ha m hm
    have hown : a ∈ w.session.numbers := List.mem_cons_of_mem _ (List.mem_cons_of_mem _ ha)
    replace hm : m ∈ image.mailboxes.queue a := hm
    rw [hqueue a hown] at hm
    exact hsound.mail a ha m hm
  target := hsound.target

end mail

end World

/-! ## Numbers -/

namespace Traffic

variable {o o' : Traffic} {h : History}

/-- A session keeps its numbers, or is given the next one. -/
def Numbered (o o' : Traffic) : Prop :=
  o'.ids = o.ids ∧ o'.lastActor = o.lastActor ∨
    o'.ids = o.ids ++ [o.lastActor + 1] ∧ o'.lastActor = o.lastActor + 1

lemma Hosts.numbered {id : ActorId} (hhost : Hosts o id o') : o.Numbered o' := by
  cases hhost with
  | live => exact .inl ⟨rfl, rfl⟩
  | first name flag => exact .inr ⟨o.ids_spawn name false flag, rfl⟩
  | again name flag => exact .inr ⟨o.ids_spawn name false flag, rfl⟩

lemma Resolves.numbered {thread : Thread} {id : ActorId} (hres : Resolves o thread id o') :
    o.Numbered o' := by
  cases hres with
  | any name flag => exact .inr ⟨o.ids_spawn name true flag, rfl⟩
  | repl hhost => exact hhost.numbered
  | other => exact .inl ⟨rfl, rfl⟩

theorem Move.numbered (hmove : Move o h o') : o.Numbered o' ∧ o'.readerId = o.readerId := by
  cases hmove with
  | host b hhost =>
    refine ⟨hhost.numbered, ?_⟩
    cases hhost <;> rfl
  | accept work hc hqueue hres =>
    refine ⟨hres.numbered, ?_⟩
    cases hres with
    | repl hhost => cases hhost <;> rfl
    | _ => rfl
  | flag id f hf => exact ⟨.inl ⟨o.ids_change id fun e => (hf e).1, rfl⟩, rfl⟩
  | raise hc => exact ⟨.inl ⟨o.ids_change _ fun _ => rfl, rfl⟩, rfl⟩
  | take | begin | judge | announce | hint | post | finish | leave | die =>
    exact ⟨.inl ⟨ids_change _ _ fun _ => rfl, rfl⟩, rfl⟩
  | _ => exact ⟨.inl ⟨rfl, rfl⟩, rfl⟩

/-- The REPL, the active evaluations and the jobs are those of evaluators of the session. -/
structure Rooted (o : Traffic) : Prop where
  repl : ∀ a, o.repl = some a → a ∈ o.ids
  active : ∀ a ∈ o.active.members, a ∈ o.ids
  jobs : ∀ job ∈ o.jobs, job.actor ∈ o.ids

namespace Rooted

lemma of_ids (hrooted : o.Rooted) (hids : o.ids ⊆ o'.ids) (hrepl : o'.repl = o.repl)
    (hactive : o'.active.members ⊆ o.active.members)
    (hjobs : ∀ job ∈ o'.jobs, job.actor ∈ o.ids) : o'.Rooted where
  repl := fun a ha => hids (hrooted.repl a (hrepl ▸ ha))
  active := fun a ha => hids (hrooted.active a (hactive ha))
  jobs := fun job hjob => hids (hjobs job hjob)

lemma spawn (hrooted : o.Rooted) (name : String) (worker flag : Bool) :
    (o.spawn name worker flag).Rooted := by
  have hids : o.ids ⊆ (o.spawn name worker flag).ids := by
    rw [ids_spawn]
    exact List.subset_append_left _ _
  exact hrooted.of_ids hids rfl (List.Subset.refl _) hrooted.jobs

lemma hosts (hrooted : o.Rooted) {id : ActorId} (hhost : Hosts o id o') : o'.Rooted := by
  have hnew : ∀ name, ∀ flag, o.lastActor + 1 ∈ (o.spawn name false flag).ids := by
    intro name flag
    rw [ids_spawn]
    exact List.mem_append_right _ (List.mem_singleton_self _)
  cases hhost with
  | live => exact hrooted
  | first name flag =>
    refine { hrooted.spawn name false flag with repl := ?_ }
    rintro a ⟨⟩
    exact hnew name flag
  | again name flag hrepl hdead =>
    have hspawn := hrooted.spawn name false flag
    refine ⟨?_, fun a ha => hspawn.active a (List.mem_of_mem_filter ha), hspawn.jobs⟩
    rintro a ⟨⟩
    exact hnew name flag

lemma resolves (hrooted : o.Rooted) {thread : Thread} {id : ActorId}
    (hres : Resolves o thread id o') : o'.Rooted := by
  cases hres with
  | any name flag => exact hrooted.spawn name true flag
  | repl hhost => exact hrooted.hosts hhost
  | other => exact hrooted

/-- What changes one evaluator names no others. -/
lemma change (hrooted : o.Rooted) (id : ActorId) {f : Evaluator → Evaluator}
    (hf : ∀ e, (f e).id = e.id) : (o.change id f).Rooted :=
  hrooted.of_ids (fun _ ha => (o.ids_change id hf).symm ▸ ha) rfl (List.Subset.refl _)
    hrooted.jobs

theorem move (hrooted : o.Rooted) (hsound : o.Sound) (hmove : Move o h o') : o'.Rooted := by
  cases hmove with
  | clear => exact { hrooted with repl := by simp }
  | flag id f hf => exact hrooted.change id fun e => (hf e).1
  | host b hhost => exact { hrooted.hosts hhost with }
  | @accept work thread rest target o' hc hqueue hres =>
    have hread : (o.setQueue o.controlId rest).Rooted := { hrooted with }
    exact { hread.resolves hres with }
  | conclude =>
    exact { hrooted with active := fun a ha => hrooted.active a (List.mem_of_mem_filter ha) }
  | @enter target work hc =>
    refine { hrooted with active := fun a ha => ?_ }
    rcases ActiveSet.mem_add.1 ha with rfl | ha
    · exact hsound.target a work (.inl hc)
    · exact hrooted.active a ha
  | raise hc =>
    refine { Rooted.change hrooted _ ?_ with }
    exact fun _ => rfl
  | @begin e work he hphase =>
    refine Rooted.change ?_ _ fun _ => rfl
    refine { hrooted with jobs := fun job hjob => ?_ }
    rcases List.mem_append.1 hjob with hjob | hjob
    · exact hrooted.jobs job hjob
    · rw [List.mem_singleton.1 hjob]
      exact List.mem_map_of_mem he
  | take | judge | announce | hint | post | finish | leave | die =>
    refine Rooted.change ?_ _ fun _ => rfl
    exact { hrooted with }
  | @compute index job job' messages hjob hended hactor =>
    refine { hrooted with jobs := fun job'' hjob'' => ?_ }
    rcases List.mem_or_eq_of_mem_set hjob'' with hjob'' | rfl
    · exact hrooted.jobs job'' hjob''
    · rw [hactor]
      exact hrooted.jobs job (List.mem_of_getElem? hjob)
  | _ => exact { hrooted with }

end Rooted

end Traffic

namespace Prompts

variable (p : Prompts)

/-- The actors that have asked, prompt by prompt. -/
def actors : List ActorId :=
  p.prompts.map Prompt.actor

lemma actors_settles {p p' : Prompts} {given : List (Nat × ClientAnswer)}
    (h : p.Settles given p') : p'.actors = p.actors := by
  refine List.ext_getElem? fun i => ?_
  simp only [actors, List.getElem?_map]
  cases hget : p.prompts[i]? with
  | none =>
    rw [List.getElem?_eq_none_iff, ← h.length_eq, ← List.getElem?_eq_none_iff] at hget
    rw [hget]
  | some x =>
    obtain ⟨y, hy, hactor, -⟩ := h.each (i + 1) x (prompt?_eq_some_iff.2 ⟨by simp, hget⟩)
    have hget' : p'.prompts[i]? = some y := (prompt?_eq_some_iff.1 hy).2
    rw [hget']
    exact congrArg some hactor

lemma actors_forget (tag : Nat) : (p.forget tag).actors = p.actors := by
  unfold forget change actors
  split
  · rfl
  · refine List.ext_getElem? fun i => ?_
    simp only [List.getElem?_map, List.getElem?_modify]
    cases p.prompts[i]? with
    | none => rfl
    | some x =>
      simp only [Option.map_eq_map, Option.map_some]
      split <;> rfl

lemma actors_register (actor : ActorId) : (p.register actor).2.actors = p.actors ++ [actor] :=
  List.map_append

end Prompts

namespace World

variable {w w' : World}

/-- Workers are entered in the table when they start, and only jobs ask. -/
structure Enlists (w w' : World) : Prop where
  workers : ∀ a ∈ w'.session.table.workers,
    a ∈ w.session.table.workers ∨ a ∈ w'.traffic.ids
  prompts : ∀ a ∈ w'.session.prompts.actors,
    a ∈ w.session.prompts.actors ∨ ∃ job ∈ w.session.jobs, job.actor = a

lemma Enlists.of_same (hworkers : w'.session.table.workers ⊆ w.session.table.workers)
    (hprompts : w'.session.prompts.actors = w.session.prompts.actors) : w.Enlists w' :=
  ⟨fun _ ha => .inl (hworkers ha), fun _ ha => .inl (hprompts ▸ ha)⟩

lemma enlists_close {phase phase' : ClosePhase} (h : w.closeStep? phase = some (w', phase')) :
    w.Enlists w' := by
  have hprompts : w'.session.prompts.actors = w.session.prompts.actors := by
    obtain ⟨-, _, _, _, _, _, _, _, prompts, hsession, -, hsettles⟩ := closeStep_frame h
    rw [hsession]
    exact Prompts.actors_settles hsettles
  refine .of_same ?_ hprompts
  cases phase with
  | marking =>
    simp only [closeStep?] at h
    split at h <;> cases h <;> exact List.Subset.refl _
  | taking =>
    cases h
    exact List.nil_subset _
  | killing handles =>
    cases handles with
    | nil =>
      cases h
      exact List.Subset.refl _
    | cons handle rest =>
      cases h
      cases handle <;> exact List.Subset.refl _
  | aborting | silencing =>
    cases h
    exact List.Subset.refl _
  | ended => cases h

lemma enlists_serve (h : w.serveStep? = some w') : w.Enlists w' := by
  unfold serveStep? at h
  cases hservice : w.session.service with
  | absent | ended => simp [hservice] at h
  | startingRepl =>
    simp only [hservice, Option.some.injEq] at h
    subst h
    obtain ⟨-, evaluators, repl, active, prompts, hsession, -, hsettles⟩ := ensureRepl_frame w
    refine .of_same ?_ ?_
    · simp only [goServe, change, hsession]
      exact List.Subset.refl _
    · simp only [goServe, change, hsession]
      exact Prompts.actors_settles hsettles
  | opening | serving =>
    simp only [hservice] at h
    split at h <;> cases h <;> exact .of_same (List.Subset.refl _) rfl
  | closing phase =>
    simp only [hservice] at h
    split at h
    · next w₁ phase' hclose =>
      cases h
      have henlists := enlists_close hclose
      exact ⟨henlists.workers, henlists.prompts⟩
    · cases h
      exact .of_same (List.Subset.refl _) rfl
  | _ =>
    simp only [hservice, Option.some.injEq] at h
    subst h
    exact .of_same (List.Subset.refl _) rfl

lemma enlists_resolve (w : World) (thread : Thread) : w.Enlists (w.resolve thread).2 := by
  cases thread with
  | any =>
    refine ⟨fun a ha => ?_, fun a ha => .inl ha⟩
    rcases List.mem_append.1 ha with ha | ha
    · exact .inl ha
    · rw [List.mem_singleton.1 ha]
      refine .inr (List.mem_map.2 ⟨_, List.mem_append_right _ (List.mem_singleton_self _), rfl⟩)
  | repl =>
    obtain ⟨-, evaluators, repl, active, prompts, hsession, -, hsettles⟩ := ensureRepl_frame w
    refine .of_same ?_ ?_
    · simp only [resolve, hsession]
      exact List.Subset.refl _
    · simp only [resolve, hsession]
      exact Prompts.actors_settles hsettles
  | id | name => exact .of_same (List.Subset.refl _) rfl

lemma enlists_control (h : w.controlStep? = some w') : w.Enlists w' := by
  unfold controlStep? at h
  cases hc : w.session.control with
  | absent | ended => simp [hc] at h
  | receiving =>
    simp only [hc, Option.bind_eq_bind, Option.bind_eq_some_iff, Option.pure_def,
      Option.some.injEq, Prod.exists] at h
    obtain ⟨m, ⟨image, session⟩, hreceive, rfl⟩ := h
    obtain ⟨-, -, -, rfl⟩ := receive?_spec hreceive
    cases m with
    | start | evaluate | emit | debug | result => exact .of_same (List.Subset.refl _) rfl
    | client event =>
      cases event with
      | evaluate form package thread id =>
        have henlists := enlists_resolve { image, session := w.session } thread
        simp only [handle, handleClient]
        cases hresolve : ({ image, session := w.session } : World).resolve thread with
        | mk found w₂ =>
          rw [hresolve] at henlists
          cases found <;> exact ⟨henlists.workers, henlists.prompts⟩
      | interrupt thread =>
        simp only [handle, handleClient]
        split <;> exact .of_same (List.Subset.refl _) rfl
      | returnString thread tag text =>
        exact .of_same (List.Subset.refl _)
          (Prompts.actors_settles (w.session.prompts.settles_resolve tag _))
      | returnValue thread tag value =>
        exact .of_same (List.Subset.refl _)
          (Prompts.actors_settles (w.session.prompts.settles_resolve tag _))
      | unknown => exact .of_same (List.Subset.refl _) rfl
  | raising target =>
    simp only [hc, Session.raise] at h
    split at h
    · next session hraise =>
      cases h
      split at hraise
      · cases hraise
        exact .of_same (List.Subset.refl _) rfl
      · cases hraise
    · cases h
      exact .of_same (List.Subset.refl _) rfl
  | aborting target =>
    simp only [hc, Option.some.injEq] at h
    subst h
    exact .of_same (List.Subset.refl _)
      (Prompts.actors_settles (w.session.prompts.settles_abort target))
  | entering | handing =>
    simp only [hc, Option.some.injEq] at h
    subst h
    exact .of_same (List.Subset.refl _) rfl
  | writing event =>
    simp only [hc, Option.some.injEq] at h
    subst h
    simp only [write]
    split <;> exact .of_same (List.Subset.refl _) rfl

lemma enlists_evaluator {id : ActorId} (h : w.evaluatorStep? id = some w') : w.Enlists w' := by
  simp only [evaluatorStep?, Option.bind_eq_bind, Option.bind_eq_some_iff] at h
  obtain ⟨e, hfind, h⟩ := h
  cases hphase : e.phase with
  | receiving =>
    simp only [hphase, evaluatorPhase?, Option.bind_eq_bind, Option.bind_eq_some_iff,
      Option.pure_def, Option.some.injEq, Prod.exists] at h
    obtain ⟨m, ⟨image, session⟩, hreceive, rfl⟩ := h
    obtain ⟨-, -, -, rfl⟩ := receive?_spec hreceive
    exact .of_same (List.Subset.refl _) rfl
  | evaluating work index =>
    simp only [hphase, evaluatorPhase?, Option.bind_eq_bind, Option.bind_eq_some_iff,
      Option.pure_def] at h
    obtain ⟨job, -, h⟩ := h
    split at h
    · cases h
      exact .of_same (List.Subset.refl _) rfl
    · cases h
  | announcing work value ns =>
    simp only [hphase, evaluatorPhase?, Option.some.injEq] at h
    subst h
    split <;> exact .of_same (List.Subset.refl _) rfl
  | posting messages =>
    cases messages with
    | nil | cons =>
      simp only [hphase, evaluatorPhase?, Option.some.injEq] at h
      subst h
      exact .of_same (List.Subset.refl _) rfl
  | leaving =>
    simp only [hphase, evaluatorPhase?, Option.some.injEq] at h
    subst h
    exact .of_same (List.filter_subset_self _) rfl
  | taken | hinting =>
    simp only [hphase, evaluatorPhase?, Option.some.injEq] at h
    subst h
    exact .of_same (List.Subset.refl _) rfl
  | ended => simp [hphase, evaluatorPhase?] at h

lemma enlists_job {index : Nat} (h : w.jobStep? index = some w') : w.Enlists w' := by
  simp only [jobStep?, Option.bind_eq_bind, Option.bind_eq_some_iff, Option.pure_def] at h
  obtain ⟨⟨actor, flag, ns, phase⟩, hjob, h⟩ := h
  cases phase with
  | computing c =>
    cases c with
    | done result =>
      cases h
      exact .of_same (List.Subset.refl _) rfl
    | step r next =>
      cases h
      cases r with
      | ask question =>
        refine ⟨fun a ha => .inl ha, fun a ha => ?_⟩
        replace ha : a ∈ (w.session.prompts.register actor).2.actors := ha
        rw [Prompts.actors_register, List.mem_append, List.mem_singleton] at ha
        exact ha.imp_right fun heq => ⟨_, List.mem_of_getElem? hjob, heq.symm⟩
      | writeOutput text =>
        simp only [serve, Session.writeDedicated]
        by_cases hstream : (w.session.output.installed && w.session.output.phase ≠ .ended) = true
        · simp only [hstream, if_true]
          exact .of_same (List.Subset.refl _) rfl
        · simp only [hstream]
          exact .of_same (List.Subset.refl _) rfl
      | _ => exact .of_same (List.Subset.refl _) rfl
  | printing text c =>
    cases h
    exact .of_same (List.Subset.refl _) rfl
  | waking c =>
    cases h
    exact .of_same (List.Subset.refl _) rfl
  | prompting phase tag question next =>
    cases phase with
    | showing | looking | withdrawing =>
      cases h
      exact .of_same (List.Subset.refl _) rfl
    | aborting =>
      cases h
      exact .of_same (List.Subset.refl _)
        (Prompts.actors_settles (w.session.prompts.settles_abort actor))
    | waiting =>
      simp only [promptStep?, awaitAnswer?] at h
      split at h
      · cases h
      · cases h
        exact .of_same (List.Subset.refl _) (w.session.prompts.actors_forget tag)
      · cases h
        exact .of_same (List.Subset.refl _) (w.session.prompts.actors_forget tag)
  | resting | ended => cases h

lemma enlists_step (hsound : w.traffic.Sound) {action : Action} (h : w.step? action = some w') :
    w.Enlists w' := by
  cases action with
  | serve => exact enlists_serve h
  | control => exact enlists_control h
  | evaluator id => exact enlists_evaluator h
  | job index => exact enlists_job h
  | reader =>
    obtain ⟨-, inbound, reader, hsession⟩ := reader_frame (Nat.ne_of_lt hsound.reader_lt) h
    exact .of_same (by rw [hsession]; exact List.Subset.refl _) (by rw [hsession])
  | output =>
    obtain ⟨output, rfl⟩ := output_frame (.inl h)
    exact .of_same (List.Subset.refl _) rfl
  | connectOutput =>
    obtain ⟨output, rfl⟩ := output_frame (.inr (.inl h))
    exact .of_same (List.Subset.refl _) rfl
  | close index =>
    obtain ⟨phase, phase', w₁, -, hclose, rfl⟩ := closer_spec h
    have henlists := enlists_close hclose
    exact ⟨henlists.workers, henlists.prompts⟩
  | finish handle =>
    cases handle with
    | reader => exact readerEnd_frame h ▸ .of_same (List.Subset.refl _) rfl
    | control =>
      obtain ⟨-, -, rfl⟩ := controlEnd_spec h
      exact .of_same (List.Subset.refl _) rfl
    | evaluator id => exact evaluatorEnd_frame h ▸ .of_same (List.Subset.refl _) rfl
    | output =>
      obtain ⟨output, rfl⟩ := output_frame (.inr (.inr h))
      exact .of_same (List.Subset.refl _) rfl
  | cut calls =>
    obtain ⟨_, _, -, -, -, rfl⟩ := cutShort_spec h
    exact .of_same (List.Subset.refl _) rfl
  | wake index =>
    obtain ⟨jobs, rfl⟩ := wake_frame h
    exact .of_same (List.Subset.refl _) rfl
  | deliver arrival =>
    simp only [step?] at h
    split at h
    · cases h
    · cases h
      exact .of_same (List.Subset.refl _) rfl
  | endInput | hangUp | beginClose =>
    cases h
    exact .of_same (List.Subset.refl _) rfl

/-- Every actor that a session names is an evaluator of its own. -/
def Rooted (w : World) : Prop :=
  ∀ a ∈ w.session.named, a ∈ w.traffic.ids

lemma mem_named {s : Session} {a : ActorId} : a ∈ s.named ↔ s.table.repl = some a ∨
    a ∈ s.table.workers ∨ a ∈ s.active.members ∨ a ∈ s.prompts.actors ∨
      ∃ job ∈ s.jobs, job.actor = a := by
  simp only [Session.named, ActorTable.evaluators, Prompts.actors, List.mem_append, List.mem_map,
    Option.mem_toList, or_assoc]

lemma Rooted.traffic (hrooted : w.Rooted) : w.traffic.Rooted where
  repl := fun a ha => hrooted a (mem_named.2 (.inl ha))
  active := fun a ha => hrooted a (mem_named.2 (.inr (.inr (.inl ha))))
  jobs := fun job hjob => hrooted _ (mem_named.2 (.inr (.inr (.inr (.inr ⟨job, hjob, rfl⟩)))))

lemma rooted_of (hrooted : w.Rooted) (hids : w.traffic.ids ⊆ w'.traffic.ids)
    (htraffic : w'.traffic.Rooted) (henlists : w.Enlists w') : w'.Rooted := by
  intro a ha
  rcases mem_named.1 ha with hrepl | hworker | hactive | hasked | ⟨job, hjob, rfl⟩
  · exact htraffic.repl a hrepl
  · rcases henlists.workers a hworker with hworker | hborn
    · exact hids (hrooted a (mem_named.2 (.inr (.inl hworker))))
    · exact hborn
  · exact htraffic.active a hactive
  · rcases henlists.prompts a hasked with hasked | ⟨job, hjob, rfl⟩
    · exact hids (hrooted a (mem_named.2 (.inr (.inr (.inr (.inl hasked))))))
    · exact hids (hrooted.traffic.jobs job hjob)
  · exact htraffic.jobs job hjob

lemma ids_subset (hnumbered : w.traffic.Numbered w'.traffic) : w.traffic.ids ⊆ w'.traffic.ids := by
  rcases hnumbered with ⟨hids, -⟩ | ⟨hids, -⟩ <;> rw [hids]
  · exact List.Subset.refl _
  · exact List.subset_append_left _ _

theorem step_rooted (hsound : w.traffic.Sound) (hrooted : w.Rooted) {action : Action}
    (h : w.step? action = some w') : w'.Rooted := by
  have hturn : w.turn? (.step action) = some w' := h
  have hmove := turn_move hsound hturn
  exact rooted_of hrooted (ids_subset hmove.numbered.1) (hrooted.traffic.move hsound hmove)
    (enlists_step hsound h)

theorem close_rooted (hsound : w.traffic.Sound) (hrooted : w.Rooted) {phase phase' : ClosePhase}
    (h : w.closeStep? phase = some (w', phase')) : w'.Rooted := by
  have hmove := (closeStep?_spec (s := none) h).1
  exact rooted_of hrooted (ids_subset hmove.numbered.1) (hrooted.traffic.move hsound hmove)
    (enlists_close h)

/-- Nobody but the session's own actors puts anything into mailboxes in its steps. -/
lemma poster_own (hrooted : w.Rooted) {action : Action} (h : w.step? action = some w')
    {a : ActorId} (hposter : w.poster? action = some (.actor a)) :
    a ∈ w.session.numbers := by
  have hevaluator : ∀ b ∈ w.traffic.ids, b ∈ w.session.numbers := fun b hb =>
    List.mem_cons_of_mem _ (List.mem_cons_of_mem _ hb)
  cases action with
  | reader =>
    cases hposter
    exact List.mem_cons_self
  | control =>
    cases hposter
    exact List.mem_cons_of_mem _ List.mem_cons_self
  | evaluator id =>
    cases hposter
    simp only [step?, evaluatorStep?, Option.bind_eq_bind, Option.bind_eq_some_iff] at h
    obtain ⟨e, hfind, -⟩ := h
    obtain ⟨he, rfl⟩ := mem_of_evaluator? hfind
    exact hevaluator e.id (List.mem_map_of_mem he)
  | job index =>
    simp only [poster?, Option.map_eq_some_iff, Poster.actor.injEq] at hposter
    obtain ⟨job, hjob, rfl⟩ := hposter
    exact hevaluator _ (hrooted.traffic.jobs job (List.mem_of_getElem? hjob))
  | _ => cases hposter

end World

end EvalServer
