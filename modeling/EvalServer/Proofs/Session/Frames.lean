import EvalServer.Proofs.Session.Turns

/-!
# What a step leaves alone

For each function that takes a step of an actor, the parts of the session that it may change, and
that control's mailbox grows at most. Prompts that nobody registers or forgets are at most settled.
-/

namespace EvalServer

open Traffic

/-- An answer or an abort may come to a pending prompt. -/
inductive PromptState.Settles : PromptState → PromptState → Prop
  | same (state : PromptState) : Settles state state
  | answered (answer : ClientAnswer) : Settles (.pending true) (.answered answer)
  | closed : Settles (.pending true) .closed
  | dropped : Settles (.pending false) .forgotten

namespace PromptState

lemma settles_answer (state : PromptState) (answer : ClientAnswer) :
    state.Settles (state.answer answer) := by
  cases state with
  | pending heard =>
    cases heard with
    | true => exact .answered answer
    | false => exact .dropped
  | _ => exact .same _

lemma isPending_abort (state : PromptState) : state.abort.isPending = false := by
  cases state with
  | pending heard => cases heard <;> rfl
  | _ => rfl

lemma settles_abort (state : PromptState) : state.Settles state.abort := by
  cases state with
  | pending heard =>
    cases heard with
    | true => exact .closed
    | false => exact .dropped
  | _ => exact .same _

namespace Settles

variable {s s' s'' : PromptState}

lemma trans (h : s.Settles s') (h' : s'.Settles s'') : s.Settles s'' := by
  cases h with
  | same => exact h'
  | _ =>
    cases h'
    constructor

lemma isHeard_eq (h : s.Settles s') : s'.isHeard = s.isHeard := by
  cases h <;> rfl

lemma of_forgotten (h : PromptState.forgotten.Settles s') : s' = .forgotten := by
  cases h
  rfl

lemma isPending_of (h : s.Settles s') (hs : s'.isPending = true) : s.isPending = true := by
  cases h with
  | same => exact hs
  | _ => rfl

end Settles

end PromptState

/-- Every prompt stays with its actor and is settled at most, by no answers but those given. -/
structure Prompts.Settles (p : Prompts) (given : List (Nat × ClientAnswer)) (p' : Prompts) :
    Prop where
  length_eq : p'.prompts.length = p.prompts.length
  each : ∀ tag x, p.prompt? tag = some x → ∃ y, p'.prompt? tag = some y ∧ y.actor = x.actor ∧
    x.state.Settles y.state ∧ ∀ answer, y.state = .answered answer →
      x.state = .answered answer ∨ (tag, answer) ∈ given

namespace Prompts

lemma prompt?_eq_some_iff {p : Prompts} {tag : Nat} {x : Prompt} :
    p.prompt? tag = some x ↔ tag ≠ 0 ∧ p.prompts[tag - 1]? = some x := by
  unfold prompt?
  by_cases htag : tag = 0 <;> simp [htag]

lemma prompt?_isSome_iff {p : Prompts} {tag : Nat} :
    (p.prompt? tag).isSome ↔ tag ≠ 0 ∧ tag ≤ p.prompts.length := by
  unfold prompt?
  by_cases htag : tag = 0
  · simp [htag]
  · simp [htag]
    omega

lemma prompt?_change (p : Prompts) (tag other : Nat) (f : PromptState → PromptState) :
    (p.change other f).prompt? tag = (p.prompt? tag).map fun x =>
      if tag = other then { x with state := f x.state } else x := by
  unfold change prompt?
  by_cases htag : tag = 0
  · simp [htag]
  · by_cases hother : other = 0
    · simp [hother, htag]
    · have hsub : other - 1 = tag - 1 ↔ tag = other := by omega
      simp only [hother, htag, if_false, List.getElem?_modify, hsub]
      rfl

lemma prompt?_register {p : Prompts} {tag : Nat} {x : Prompt} (hx : p.prompt? tag = some x)
    (actor : ActorId) : (p.register actor).2.prompt? tag = some x := by
  obtain ⟨htag, hget⟩ := prompt?_eq_some_iff.1 hx
  refine prompt?_eq_some_iff.2 ⟨htag, ?_⟩
  rw [register, List.getElem?_append_left (List.getElem?_eq_some_iff.1 hget).1, hget]

@[simp] lemma length_change (p : Prompts) (tag : Nat) (f : PromptState → PromptState) :
    (p.change tag f).prompts.length = p.prompts.length := by
  unfold change
  split
  · rfl
  · exact List.length_modify ..

namespace Settles

variable {p p' p'' : Prompts} {given : List (Nat × ClientAnswer)}

lemma refl (p : Prompts) (given : List (Nat × ClientAnswer)) : p.Settles given p :=
  ⟨rfl, fun _ x hx => ⟨x, hx, rfl, .same _, fun _ => .inl⟩⟩

lemma mono {more : List (Nat × ClientAnswer)} (h : p.Settles given p') (hsub : given ⊆ more) :
    p.Settles more p' := by
  refine ⟨h.length_eq, fun tag x hx => ?_⟩
  obtain ⟨y, hy, hactor, hstate, hanswer⟩ := h.each tag x hx
  exact ⟨y, hy, hactor, hstate, fun answer heq => (hanswer answer heq).imp_right (hsub ·)⟩

lemma trans (h : p.Settles given p') (h' : p'.Settles given p'') : p.Settles given p'' := by
  refine ⟨h'.length_eq.trans h.length_eq, fun tag x hx => ?_⟩
  obtain ⟨y, hy, hactor, hstate, hanswer⟩ := h.each tag x hx
  obtain ⟨z, hz, hactor', hstate', hanswer'⟩ := h'.each tag y hy
  refine ⟨z, hz, hactor'.trans hactor, hstate.trans hstate', fun answer heq => ?_⟩
  exact (hanswer' answer heq).elim (hanswer answer) .inr

lemma state (h : p.Settles given p') (tag : Nat) : (p.state tag).Settles (p'.state tag) ∧
    ∀ answer, p'.state tag = .answered answer →
      p.state tag = .answered answer ∨ (tag, answer) ∈ given := by
  unfold Prompts.state
  cases hx : p.prompt? tag with
  | some x =>
    obtain ⟨y, hy, -, hstate, hanswer⟩ := h.each tag x hx
    rw [hy]
    exact ⟨hstate, hanswer⟩
  | none =>
    have hnone : p'.prompt? tag = none := by
      rw [← Option.not_isSome_iff_eq_none, prompt?_isSome_iff] at hx ⊢
      rwa [h.length_eq]
    rw [hnone]
    exact ⟨.same _, by simp⟩

end Settles

lemma settles_resolve (p : Prompts) (tag : Nat) (answer : ClientAnswer) :
    p.Settles [(tag, answer)] (p.resolve tag answer).2 := by
  refine ⟨length_change .., fun other x hx => ?_⟩
  simp only [resolve, prompt?_change, hx, Option.map_some]
  split
  · next heq =>
    refine ⟨_, rfl, rfl, x.state.settles_answer answer, fun given hgiven => ?_⟩
    cases hstate : x.state with
    | pending heard =>
      cases heard with
      | true =>
        simp only [hstate, PromptState.answer, PromptState.answered.injEq] at hgiven
        exact .inr (by simp [heq, hgiven])
      | false => simp [hstate, PromptState.answer] at hgiven
    | answered => exact .inl (by simpa [hstate, PromptState.answer] using hgiven)
    | closed | forgotten => simp [hstate, PromptState.answer] at hgiven
  · exact ⟨_, rfl, rfl, .same _, fun _ => .inl⟩

lemma answered_of_abort {state : PromptState} {answer : ClientAnswer}
    (h : state.abort = .answered answer) : state = .answered answer := by
  cases state with
  | pending heard => cases heard <;> cases h
  | _ => exact h

lemma settles_abort (p : Prompts) (actor : ActorId) : p.Settles [] (p.abort actor).2 := by
  refine ⟨by simp [abort], fun tag x hx => ?_⟩
  simp only [prompt?_abort, hx, Option.map_some]
  split
  · exact ⟨_, rfl, rfl, x.state.settles_abort, fun _ heq => .inl (answered_of_abort heq)⟩
  · exact ⟨_, rfl, rfl, .same _, fun _ => .inl⟩

lemma settles_abortAll (p : Prompts) : p.Settles [] p.abortAll := by
  refine ⟨by simp [abortAll], fun tag x hx => ?_⟩
  obtain ⟨htag, hget⟩ := prompt?_eq_some_iff.1 hx
  have hafter : p.abortAll.prompt? tag = some { x with state := x.state.abort } := by
    rw [prompt?_eq_some_iff]
    simp [abortAll, htag, hget]
  exact ⟨_, hafter, rfl, x.state.settles_abort, fun _ heq => .inl (answered_of_abort heq)⟩

end Prompts

namespace World

variable {w w' : World}

section mail

lemma grows_send (w : World) (a : ActorId) (m : Message) :
    w.controlQueue <+: (w.send a m).controlQueue := by
  change _ <+: (w.image.mailboxes.send a m).queue w.session.controlId
  rw [Mailboxes.queue_send]
  split
  · next h => exact h ▸ List.prefix_append _ _
  · exact List.prefix_refl _

lemma controlQueue_tell (w : World) (m : Message) :
    (w.tell m).controlQueue = w.controlQueue ++ [m] := by
  change (w.image.mailboxes.send w.session.controlId m).queue w.session.controlId = _
  rw [Mailboxes.queue_send, if_pos rfl]
  rfl

/-- Other mailboxes are not control's. -/
lemma receive_other {a : ActorId} {m : Message} (hne : a ≠ w.session.controlId)
    (h : w.receive? a = some (m, w')) :
    w'.controlQueue = w.controlQueue ∧ w'.session = w.session := by
  obtain ⟨rest, -, htraffic, hsession⟩ := receive?_spec h
  have hqueue := congrArg Traffic.controlQueue htraffic
  rw [controlQueue_setQueue_of_ne _ a rest hne] at hqueue
  exact ⟨hqueue, hsession⟩

end mail

section actors

lemma reader_frame (hne : w.session.readerId ≠ w.session.controlId) (h : w.readerStep? = some w') :
    w.controlQueue <+: w'.controlQueue ∧ ∃ inbound reader, w'.session =
      { w.session with connection := { w.session.connection with inbound }, reader } := by
  unfold readerStep? at h
  cases hreader : w.session.reader with
  | absent | ended => simp [hreader] at h
  | waiting =>
    simp only [hreader, Option.bind_eq_bind, Option.bind_eq_some_iff, Option.pure_def,
      Option.some.injEq, Prod.exists] at h
    obtain ⟨m, ⟨image, session⟩, hreceive, rfl⟩ := h
    obtain ⟨hqueue, rfl⟩ := receive_other hne hreceive
    split
    · exact ⟨hqueue ▸ List.prefix_refl _, _, .reading, rfl⟩
    · exact ⟨hqueue ▸ List.prefix_refl _, _, _, rfl⟩
  | reading =>
    simp only [hreader, readFrame?] at h
    split at h
    · cases h
      refine ⟨?_, _, _, rfl⟩
      rw [controlQueue_tell]
      exact List.prefix_append _ _
    · split at h
      · cases h
      · cases h
        exact ⟨List.prefix_refl _, _, .ended, rfl⟩

lemma readerEnd_frame (h : w.readerEnd? = some w') : w' = w.goReader .ended := by
  unfold readerEnd? at h
  repeat' split at h
  all_goals cases h
  all_goals rfl

lemma lowers_change (s : Session) {a : ActorId} {f : Evaluator → Evaluator}
    (hid : ∀ e, (f e).id = e.id) (hf : ∀ e, (f e).raised = true → e.raised = true) :
    ∀ e' ∈ (s.changeEvaluator a f).evaluators,
      ∃ e ∈ s.evaluators, e.id = e'.id ∧ (e'.raised = true → e.raised = true) := by
  intro e' he'
  obtain ⟨e, he, rfl⟩ := List.mem_map.1 he'
  refine ⟨e, he, ?_⟩
  split
  · exact ⟨(hid e).symm, hf e⟩
  · exact ⟨rfl, id⟩

/-- An evaluator raises no flag, may start a job, and takes at most itself off the table. -/
lemma evaluator_frame {id : ActorId}
    (hne : ∀ e ∈ w.session.evaluators, e.id ≠ w.session.controlId)
    (h : w.evaluatorStep? id = some w') :
    w.controlQueue <+: w'.controlQueue ∧ ∃ evaluators jobs hints workers, w'.session =
      { w.session with evaluators, jobs, hints, table := { w.session.table with workers } } ∧
      (jobs = w.session.jobs ∨
        ∃ work : Work, jobs = w.session.jobs ++ [work.job w.session.host id]) ∧
      ∀ e' ∈ evaluators,
        ∃ e ∈ w.session.evaluators, e.id = e'.id ∧ (e'.raised = true → e.raised = true) := by
  simp only [evaluatorStep?, Option.bind_eq_bind, Option.bind_eq_some_iff] at h
  obtain ⟨e, hfind, h⟩ := h
  obtain ⟨he, rfl⟩ := mem_of_evaluator? hfind
  have hphases : ∀ phase, ∀ e' ∈ (w.session.setPhase e.id phase).evaluators,
      ∃ e ∈ w.session.evaluators, e.id = e'.id ∧ (e'.raised = true → e.raised = true) :=
    fun _ => lowers_change w.session (fun _ => rfl) fun _ hraised => hraised
  cases hphase : e.phase with
  | receiving =>
    simp only [hphase, evaluatorPhase?, Option.bind_eq_bind, Option.bind_eq_some_iff,
      Option.pure_def, Option.some.injEq, Prod.exists] at h
    obtain ⟨m, ⟨image, session⟩, hreceive, rfl⟩ := h
    obtain ⟨hqueue, rfl⟩ := receive_other (hne e he) hreceive
    exact ⟨hqueue ▸ List.prefix_refl _, _, _, _, _, rfl, .inl rfl, hphases _⟩
  | evaluating work index =>
    simp only [hphase, evaluatorPhase?, Option.bind_eq_bind, Option.bind_eq_some_iff,
      Option.pure_def] at h
    obtain ⟨job, -, h⟩ := h
    split at h
    · cases h
      exact ⟨List.prefix_refl _, _, _, _, _, rfl, .inl rfl, hphases _⟩
    · cases h
  | announcing work value ns =>
    simp only [hphase, evaluatorPhase?, Option.some.injEq] at h
    subst h
    split
    · exact ⟨List.prefix_refl _, _, _, _, _, rfl, .inl rfl, hphases _⟩
    · exact ⟨grows_send _ _ _, _, _, _, _, rfl, .inl rfl, hphases _⟩
  | posting messages =>
    cases messages with
    | nil =>
      simp only [hphase, evaluatorPhase?, Option.some.injEq] at h
      subst h
      exact ⟨List.prefix_refl _, _, _, _, _, rfl, .inl rfl, hphases _⟩
    | cons m rest =>
      simp only [hphase, evaluatorPhase?, Option.some.injEq] at h
      subst h
      exact ⟨grows_send _ _ _, _, _, _, _, rfl, .inl rfl, hphases _⟩
  | taken work =>
    simp only [hphase, evaluatorPhase?, Option.some.injEq] at h
    subst h
    let begin (e : Evaluator) : Evaluator :=
      { e with raised := false, phase := .evaluating work w.session.jobs.length }
    have hlowers := lowers_change w.session (a := e.id) (f := begin) (fun _ => rfl) (by simp [begin])
    exact ⟨List.prefix_refl _, _, _, _, _, rfl, .inr ⟨work, rfl⟩, hlowers⟩
  | hinting | leaving =>
    simp only [hphase, evaluatorPhase?, Option.some.injEq] at h
    subst h
    exact ⟨List.prefix_refl _, _, _, _, _, rfl, .inl rfl, hphases _⟩
  | ended => simp [hphase, evaluatorPhase?] at h

lemma evaluatorEnd_frame {id : ActorId} (h : w.evaluatorEnd? id = some w') :
    w' = w.change (·.setPhase id .ended) := by
  simp only [evaluatorEnd?, Option.bind_eq_bind, Option.bind_eq_some_iff, Option.pure_def] at h
  obtain ⟨e, -, h⟩ := h
  repeat' split at h
  all_goals cases h
  all_goals rfl

lemma output_frame (h : w.outputStep? = some w' ∨ w.connectOutput? = some w' ∨
    w.outputEnd? = some w') : ∃ output, w' = w.change fun s => { s with output } := by
  unfold outputStep? connectOutput? outputEnd? at h
  rcases h with h | h | h
  all_goals
    repeat' split at h
    all_goals cases h
    all_goals exact ⟨_, rfl⟩

lemma request_frame (w : World) (index : Nat) (job : Job) (r : Request)
    (next : r.Reply → Course) : w.controlQueue <+: (w.serve index job r next).controlQueue ∧
      ∃ jobs prompts queue, (w.serve index job r next).session =
        { w.session with jobs, prompts, output := { w.session.output with queue } } := by
  cases r with
  | writeOutput text =>
    simp only [serve, Session.writeDedicated]
    by_cases hstream : (w.session.output.installed && w.session.output.phase ≠ .ended) = true
    · simp only [hstream, if_true]
      exact ⟨List.prefix_refl _, _, _, _, rfl⟩
    · simp only [hstream]
      exact ⟨List.prefix_refl _, _, _, _, rfl⟩
  | writeResult | debug => exact ⟨grows_send _ _ _, _, _, _, rfl⟩
  | _ => exact ⟨List.prefix_refl _, _, _, _, rfl⟩

lemma prompt_frame {index tag : Nat} {job : Job} {phase : PromptPhase} {question : Question}
    {next : Option question.Answer → Course}
    (h : w.promptStep? index job phase tag question next = some w') :
    w.controlQueue <+: w'.controlQueue ∧ ∃ jobs prompts queue, w'.session =
      { w.session with jobs, prompts, output := { w.session.output with queue } } := by
  cases phase with
  | showing | withdrawing =>
    cases h
    exact ⟨grows_send _ _ _, _, _, _, rfl⟩
  | looking | aborting =>
    cases h
    exact ⟨List.prefix_refl _, _, _, _, rfl⟩
  | waiting =>
    simp only [promptStep?, awaitAnswer?] at h
    split at h
    · cases h
    · cases h
      exact ⟨List.prefix_refl _, _, _, _, rfl⟩
    · cases h
      exact ⟨List.prefix_refl _, _, _, _, rfl⟩

lemma job_frame {index : Nat} (h : w.jobStep? index = some w') :
    w.controlQueue <+: w'.controlQueue ∧ ∃ jobs prompts queue, w'.session =
      { w.session with jobs, prompts, output := { w.session.output with queue } } := by
  simp only [jobStep?, Option.bind_eq_bind, Option.bind_eq_some_iff, Option.pure_def] at h
  obtain ⟨⟨actor, flag, ns, phase⟩, -, h⟩ := h
  cases phase with
  | computing c =>
    cases c with
    | done result =>
      cases h
      exact ⟨List.prefix_refl _, _, _, _, rfl⟩
    | step r next =>
      cases h
      exact request_frame w index _ r next
  | printing text c =>
    cases h
    exact ⟨grows_send _ _ _, _, _, _, rfl⟩
  | waking c =>
    cases h
    exact ⟨List.prefix_refl _, _, _, _, rfl⟩
  | prompting phase tag question next => exact prompt_frame h
  | resting | ended => cases h

lemma wake_frame {index : Nat} (h : w.wake? index = some w') :
    ∃ jobs, w' = w.change fun s => { s with jobs } := by
  simp only [wake?, Option.bind_eq_bind, Option.bind_eq_some_iff, Option.pure_def] at h
  obtain ⟨⟨actor, flag, ns, phase⟩, -, h⟩ := h
  cases phase with
  | resting ms c =>
    cases h
    exact ⟨_, rfl⟩
  | _ => cases h

end actors

section lifecycle

lemma kill_frame (s : Session) (handle : Handle) :
    ∃ readerKilled controlKilled evaluators killed, s.kill handle =
      { s with readerKilled, controlKilled, evaluators, output := { s.output with killed } } ∧
      (s.controlKilled = true → controlKilled = true) := by
  cases handle with
  | control => exact ⟨_, true, _, _, rfl, fun _ => rfl⟩
  | reader | evaluator | output => exact ⟨_, _, _, _, rfl, id⟩

/-- The prompts of a REPL that has ended are aborted when another takes its place. -/
lemma ensureRepl_frame (w : World) : w.ensureRepl.2.controlQueue = w.controlQueue ∧
    ∃ evaluators repl active prompts, w.ensureRepl.2.session =
      { w.session with
        evaluators, active, prompts, table := { w.session.table with repl } } ∧
      active.members ⊆ w.session.active.members ∧ w.session.prompts.Settles [] prompts := by
  unfold ensureRepl
  cases w.session.table.repl with
  | none => exact ⟨rfl, _, _, _, _, rfl, List.Subset.refl _, .refl _ _⟩
  | some repl =>
    by_cases halive : w.session.isAlive repl = true
    · simp only [halive, if_true]
      exact ⟨trivial, _, _, _, _, rfl, List.Subset.refl _, .refl _ _⟩
    · simp only [halive]
      exact ⟨rfl, _, _, _, _, rfl, List.filter_subset_self _,
        Prompts.settles_abort w.session.prompts repl⟩

lemma resolve_frame {thread : Thread} {found : Option ActorId}
    (h : w.resolve thread = (found, w')) : w'.controlQueue = w.controlQueue ∧
    ∃ evaluators table active prompts, w'.session =
      { w.session with evaluators, table, active, prompts } ∧
      active.members ⊆ w.session.active.members ∧ w.session.prompts.Settles [] prompts := by
  cases thread with
  | any =>
    cases h
    exact ⟨rfl, _, _, _, _, rfl, List.Subset.refl _, .refl _ _⟩
  | repl =>
    cases h
    obtain ⟨hqueue, evaluators, repl, active, prompts, hsession, hactive, hprompts⟩ :=
      ensureRepl_frame w
    exact ⟨hqueue, evaluators, _, active, prompts, hsession, hactive, hprompts⟩
  | id | name =>
    cases h
    exact ⟨rfl, _, _, _, _, rfl, List.Subset.refl _, .refl _ _⟩

lemma control_frame (h : w.controlStep? = some w') :
    ∃ connection active prompts evaluators table control, w'.session =
      { w.session with connection, active, prompts, evaluators, table, control } := by
  unfold controlStep? at h
  cases hc : w.session.control with
  | absent | ended => simp [hc] at h
  | receiving =>
    simp only [hc, Option.bind_eq_bind, Option.bind_eq_some_iff, Option.pure_def,
      Option.some.injEq, Prod.exists] at h
    obtain ⟨m, ⟨image, session⟩, hreceive, rfl⟩ := h
    obtain ⟨-, -, -, rfl⟩ := receive?_spec hreceive
    cases m with
    | start | evaluate | emit | debug | result => exact ⟨_, _, _, _, _, _, rfl⟩
    | client event =>
      cases event with
      | evaluate form package thread id =>
        simp only [handle, handleClient]
        cases hresolve : ({ image, session := w.session } : World).resolve thread with
        | mk found w₂ =>
          obtain ⟨-, evaluators, table, active, prompts, hsession, -⟩ := resolve_frame hresolve
          cases found with
          | none => exact ⟨_, _, _, _, _, _, hsession⟩
          | some target =>
            refine ⟨w.session.connection, active, prompts, evaluators, table,
              .entering target ⟨form, package, id⟩, ?_⟩
            simp only [goControl, change, hsession]
      | interrupt thread =>
        simp only [handle, handleClient]
        split
        · exact ⟨_, _, _, _, _, _, rfl⟩
        · exact ⟨_, _, _, _, _, _, rfl⟩
      | returnString | returnValue | unknown => exact ⟨_, _, _, _, _, _, rfl⟩
  | raising target =>
    simp only [hc, Session.raise] at h
    split at h
    · next session hraise =>
      cases h
      split at hraise
      · cases hraise
        exact ⟨_, _, _, _, _, _, rfl⟩
      · cases hraise
    · cases h
      exact ⟨_, _, _, _, _, _, rfl⟩
  | entering | handing | aborting =>
    simp only [hc, Option.some.injEq] at h
    subst h
    exact ⟨_, _, _, _, _, _, rfl⟩
  | writing event =>
    simp only [hc, Option.some.injEq] at h
    subst h
    simp only [write]
    split
    · exact ⟨_, _, _, _, _, _, rfl⟩
    · exact ⟨_, _, _, _, _, _, rfl⟩

lemma closeStep_frame {phase phase' : ClosePhase} (h : w.closeStep? phase = some (w', phase')) :
    w'.image = w.image ∧
    ∃ closed table readerKilled controlKilled evaluators killed installed prompts, w'.session =
      { w.session with
        closed, table, readerKilled, controlKilled, evaluators, prompts,
        output := { w.session.output with killed, installed } } ∧
      (w.session.controlKilled = true → controlKilled = true) ∧
      w.session.prompts.Settles [] prompts := by
  cases phase with
  | marking =>
    simp only [closeStep?] at h
    split at h
    · cases h
      exact ⟨rfl, _, _, _, _, _, _, _, _, rfl, id, .refl _ _⟩
    · cases h
      exact ⟨rfl, true, _, _, _, _, _, _, _, rfl, id, .refl _ _⟩
  | killing handles =>
    cases handles with
    | nil =>
      cases h
      exact ⟨rfl, _, _, _, _, _, _, _, _, rfl, id, .refl _ _⟩
    | cons handle rest =>
      cases h
      obtain ⟨readerKilled, controlKilled, evaluators, killed, hkill, hkilled⟩ :=
        kill_frame w.session handle
      exact ⟨rfl, _, _, _, _, _, _, _, _, hkill, hkilled, .refl _ _⟩
  | taking | silencing =>
    cases h
    exact ⟨rfl, _, _, _, _, _, _, _, _, rfl, id, .refl _ _⟩
  | aborting =>
    cases h
    exact ⟨rfl, _, _, _, _, _, _, _, _, rfl, id, w.session.prompts.settles_abortAll⟩
  | ended => cases h

lemma closeStep?_eq_none {p : ClosePhase} (h : w.closeStep? p = none) : p = .ended := by
  cases p with
  | ended => rfl
  | marking => simp [closeStep?, ite_eq_iff] at h
  | taking | aborting | silencing => simp [closeStep?] at h
  | killing handles => cases handles <;> simp [closeStep?] at h

end lifecycle

/-! ## Steps that start nothing -/

/-- What a step leaves that neither goes on with the service nor closes: it starts nobody but
evaluators. -/
structure Rests (w w' : World) : Prop where
  service : w'.session.service = w.session.service
  closed : w'.session.closed = w.session.closed
  closers : w'.session.closers = w.session.closers ∨
    w'.session.closers = w.session.closers ++ [.marking]
  reader : w'.session.reader = .absent ↔ w.session.reader = .absent
  control : w'.session.control = .absent ↔ w.session.control = .absent
  output : w'.session.output.phase = .absent ↔ w.session.output.phase = .absent
  table : (w'.session.table.reader, w'.session.table.control, w'.session.table.output) =
    (w.session.table.reader, w.session.table.control, w.session.table.output)

section resting

lemma resolve_flags {thread : Thread} {found : Option ActorId}
    (h : w.resolve thread = (found, w')) :
    (w'.session.table.reader, w'.session.table.control, w'.session.table.output) =
      (w.session.table.reader, w.session.table.control, w.session.table.output) := by
  cases thread with
  | any | id | name =>
    cases h
    rfl
  | repl =>
    obtain ⟨-, _, _, _, _, hsession, -⟩ := ensureRepl_frame w
    obtain rfl : w.ensureRepl.2 = w' := congrArg Prod.snd h
    rw [hsession]

/-- The control loop takes nothing from the connection, and enters evaluators in the table only. -/
lemma control_keeps (h : w.controlStep? = some w') :
    (w'.session.connection.inbound, w'.session.connection.ended, w'.session.reader,
      w'.session.host, w'.session.table.reader, w'.session.table.control,
      w'.session.table.output) =
    (w.session.connection.inbound, w.session.connection.ended, w.session.reader,
      w.session.host, w.session.table.reader, w.session.table.control,
      w.session.table.output) ∧ w'.session.control ≠ .absent := by
  unfold controlStep? at h
  cases hc : w.session.control with
  | absent | ended => simp [hc] at h
  | receiving =>
    simp only [hc, Option.bind_eq_bind, Option.bind_eq_some_iff, Option.pure_def,
      Option.some.injEq, Prod.exists] at h
    obtain ⟨m, ⟨image, session⟩, hreceive, rfl⟩ := h
    obtain ⟨-, -, -, rfl⟩ := receive?_spec hreceive
    cases m with
    | start | evaluate => exact ⟨rfl, by simp [handle, hc]⟩
    | emit | debug | result => exact ⟨rfl, by simp [handle, goControl, change]⟩
    | client event =>
      cases event with
      | evaluate form package thread id =>
        simp only [handle, handleClient]
        cases hresolve : ({ image, session := w.session } : World).resolve thread with
        | mk found w₂ =>
          have hflags := resolve_flags hresolve
          obtain ⟨-, _, _, _, _, hsession, -⟩ := resolve_frame hresolve
          rw [hsession] at hflags
          simp only [Prod.mk.injEq] at hflags
          cases found <;> simp [goControl, change, hsession, hflags, hc]
      | interrupt thread =>
        simp only [handle, handleClient]
        split
        · exact ⟨rfl, by simp [goControl, change]⟩
        · exact ⟨rfl, by simp [hc]⟩
      | returnString | returnValue =>
        exact ⟨rfl, by simp [handle, handleClient, answerPrompt, change, hc]⟩
      | unknown => exact ⟨rfl, by simp [handle, handleClient, hc]⟩
  | raising target =>
    simp only [hc, Session.raise] at h
    split at h
    · next session hraise =>
      cases h
      split at hraise <;> cases hraise
      exact ⟨rfl, by simp [goControl, change]⟩
    · cases h
      exact ⟨rfl, by simp [goControl, change]⟩
  | aborting | entering | handing =>
    simp only [hc, Option.some.injEq] at h
    subst h
    exact ⟨rfl, by simp [goControl, change]⟩
  | writing event =>
    simp only [hc, Option.some.injEq] at h
    subst h
    simp only [write]
    split <;> exact ⟨rfl, by simp [goControl, change]⟩

lemma reader_present (h : w.readerStep? = some w') :
    w.session.reader ≠ .absent ∧ w'.session.reader ≠ .absent := by
  unfold readerStep? at h
  cases hreader : w.session.reader with
  | absent | ended => simp [hreader] at h
  | waiting =>
    simp only [hreader, Option.bind_eq_bind, Option.bind_eq_some_iff, Option.pure_def,
      Option.some.injEq, Prod.exists] at h
    obtain ⟨m, ⟨image, session⟩, hreceive, rfl⟩ := h
    obtain ⟨-, -, -, rfl⟩ := receive?_spec hreceive
    split <;> simp [goReader, change, hreader]
  | reading =>
    simp only [hreader, readFrame?] at h
    split at h
    · cases h
      simp [tell, send, change, hreader]
    · split at h <;> cases h
      simp [goReader, change]

lemma rests_of_same (hsame : (w'.session.service, w'.session.closed, w'.session.closers,
      w'.session.reader, w'.session.control, w'.session.output.phase, w'.session.table.reader,
      w'.session.table.control, w'.session.table.output) =
    (w.session.service, w.session.closed, w.session.closers, w.session.reader,
      w.session.control, w.session.output.phase, w.session.table.reader,
      w.session.table.control, w.session.table.output)) : w.Rests w' := by
  simp only [Prod.mk.injEq] at hsame
  obtain ⟨hservice, hclosed, hclosers, hreader, hcontrol, houtput, hr, hc, ho⟩ := hsame
  exact ⟨hservice, hclosed, .inl hclosers, by rw [hreader], by rw [hcontrol], by rw [houtput],
    by rw [hr, hc, ho]⟩

lemma phase_write {o : Output} (coding : Coding) (text : String) (h : o.phase ≠ .absent) :
    (o.write coding text).phase ≠ .absent := by
  unfold Output.write
  split
  · exact h
  · simp only
    split
    · simp
    · exact h

lemma output_present (h : w.outputStep? = some w' ∨ w.connectOutput? = some w' ∨
    w.outputEnd? = some w') :
    w.session.output.phase ≠ .absent ∧ w'.session.output.phase ≠ .absent := by
  unfold outputStep? connectOutput? outputEnd? at h
  cases hphase : w.session.output.phase with
  | absent | ended => simp [hphase] at h
  | listening =>
    simp only [hphase] at h
    rcases h with h | h | h
    · cases h
    · cases h
      simp [changeOutput, change]
    · split at h <;> cases h
      simp [changeOutput, change]
  | connected | failing =>
    simp only [hphase, Option.some.injEq, reduceCtorEq, or_false] at h
    subst h
    simp [changeOutput, change]
  | serving =>
    simp only [hphase] at h
    rcases h with h | h | h
    · split at h
      · cases h
        exact ⟨by simp, phase_write _ _ (by simp [hphase])⟩
      · split at h <;> cases h
        simp [changeOutput, change]
    · cases h
    · split at h <;> cases h
      simp [changeOutput, change]

lemma rests_output (h : w.outputStep? = some w' ∨ w.connectOutput? = some w' ∨
    w.outputEnd? = some w') : w.Rests w' := by
  obtain ⟨hphase, hphase'⟩ := output_present h
  obtain ⟨output, rfl⟩ := output_frame h
  exact ⟨rfl, rfl, .inl rfl, .rfl, .rfl, iff_of_false hphase' hphase, rfl⟩

lemma rests_finish {handle : Handle} (h : w.finish? handle = some w') : w.Rests w' := by
  cases handle with
  | reader =>
    have hreader : w.session.reader ≠ .absent := by
      intro habsent
      simp [finish?, readerEnd?, habsent] at h
    rw [readerEnd_frame h]
    exact ⟨rfl, rfl, .inl rfl, iff_of_false (by simp [goReader, change]) hreader, .rfl, .rfl, rfl⟩
  | control =>
    obtain ⟨hc, -, rfl⟩ := controlEnd_spec h
    have hcontrol : w.session.control ≠ .absent := by
      rcases hc with hc | ⟨event, hc⟩ <;> simp [hc]
    exact ⟨rfl, rfl, .inl rfl, .rfl, iff_of_false (by simp [goControl, change]) hcontrol, .rfl,
      rfl⟩
  | evaluator a =>
    rw [evaluatorEnd_frame h]
    exact rests_of_same rfl
  | output => exact rests_output (.inr (.inr h))

theorem step_rests (hsound : w.traffic.Sound) {action : Action} (hserve : action ≠ .serve)
    (hclose : ∀ i, action ≠ .close i) (h : w.step? action = some w') : w.Rests w' := by
  cases action with
  | serve => exact absurd rfl hserve
  | close i => exact absurd rfl (hclose i)
  | reader =>
    obtain ⟨hreader, hreader'⟩ := reader_present h
    obtain ⟨-, _, _, hsession⟩ := reader_frame (Nat.ne_of_lt hsound.reader_lt) h
    exact ⟨by rw [hsession], by rw [hsession], .inl (by rw [hsession]),
      iff_of_false hreader' hreader, by rw [hsession], by rw [hsession], by rw [hsession]⟩
  | control =>
    have hcontrol : w.session.control ≠ .absent := by
      intro habsent
      simp [step?, controlStep?, habsent] at h
    obtain ⟨hkeeps, hcontrol'⟩ := control_keeps h
    simp only [Prod.mk.injEq] at hkeeps
    obtain ⟨-, -, hreader, -, hr, hc, ho⟩ := hkeeps
    obtain ⟨_, _, _, _, _, _, hsession⟩ := control_frame h
    exact ⟨by rw [hsession], by rw [hsession], .inl (by rw [hsession]), by rw [hreader],
      iff_of_false hcontrol' hcontrol, by rw [hsession], by rw [hr, hc, ho]⟩
  | evaluator a =>
    obtain ⟨-, _, _, _, _, hsession, -⟩ := evaluator_frame (fun e he => ne_controlId hsound he) h
    exact rests_of_same (by rw [hsession])
  | job index =>
    obtain ⟨-, _, _, _, hsession⟩ := job_frame h
    exact rests_of_same (by rw [hsession])
  | output => exact rests_output (.inl h)
  | connectOutput => exact rests_output (.inr (.inl h))
  | finish handle => exact rests_finish h
  | cut calls =>
    obtain ⟨event, outbound, hc, -, -, rfl⟩ := cutShort_spec h
    exact ⟨rfl, rfl, .inl rfl, .rfl,
      iff_of_false (by simp [goControl, change]) (by simp [hc]), .rfl, rfl⟩
  | wake index =>
    obtain ⟨jobs, rfl⟩ := wake_frame h
    exact rests_of_same rfl
  | deliver arrival =>
    simp only [step?] at h
    split at h <;> cases h
    exact rests_of_same rfl
  | endInput | hangUp =>
    cases h
    exact rests_of_same rfl
  | beginClose =>
    cases h
    exact ⟨rfl, rfl, .inr rfl, .rfl, .rfl, .rfl, rfl⟩

end resting

end World

end EvalServer
