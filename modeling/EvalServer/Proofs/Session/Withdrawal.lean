import EvalServer.Proofs.Session.QuestionAccounts

/-!
# Interrupts and questions

An interrupt that comes while an evaluation is on leaves no question of it waiting. Whoever
interrupts raises the flag before it aborts the prompts, and a job registers its question before it
looks at the flag: of the two, the one that comes second sees what the other has done.
-/

namespace EvalServer

open Traffic

/-- Whether a job has looked at its flag, and aborted its prompts if it was raised, since it
asked. -/
def PromptPhase.isChecked : PromptPhase → Bool
  | .waiting | .withdrawing => true
  | .showing | .looking | .aborting => false

namespace Traffic

variable {o : Traffic} {h : History}

/-- An actor has one job at a time. -/
lemma Ledger.running_unique (hledger : o.Ledger h) {i j : Nat} {job job' : Job}
    (hjob : o.jobs[i]? = some job) (hrunning : job.isEnded = false)
    (hjob' : o.jobs[j]? = some job') (hrunning' : job'.isEnded = false)
    (hactor : job'.actor = job.actor) : i = j := by
  obtain ⟨e, he, hid⟩ := List.mem_map.1 (hledger.mem_ids hjob)
  obtain ⟨p, hp⟩ := hledger.desks e he
  have hown : (o.desk h e).job i = some job := jobsOf_eq_some_iff.2 ⟨hjob, hid.symm⟩
  have hown' : (o.desk h e).job j = some job' :=
    jobsOf_eq_some_iff.2 ⟨hjob', hactor.trans hid.symm⟩
  have hrun : ¬ (o.desk h e).Idle := by
    intro hidle
    rw [hidle i job hown] at hrunning
    cases hrunning
  obtain ⟨finished, work, k, said, rfl, ⟨-, hothers⟩, -, -⟩ := hp.stage.busy hrun
  have only : ∀ {l : Nat} {other : Job}, (o.desk h e).job l = some other →
      other.isEnded = false → l = k := by
    intro l other hother hother'
    by_contra hne
    rw [hothers l other hne hother] at hother'
    cases hother'
  rw [only hown hrunning, only hown' hrunning']

end Traffic

namespace World

variable {w w' : World} {n : Notices} {a : ActorId}

lemma running_of_asks {job : Job} {r : PromptPhase × Nat} (h : job.asks? = some r) :
    job.isEnded = false := by
  unfold Job.asks? at h
  unfold Job.isEnded
  split at h
  · next heq => rw [heq]
  · cases h

/-- What a job shows is about itself. -/
lemma job_noticed {i : Nat} {x : Notice} (hx : x ∈ w.noticed (.turn (.step (.job i))) w') :
    x.isOutside = false := by
  simp only [noticed] at hx
  split at hx
  · next job _ =>
    simp only [questionNotices, List.mem_append, List.mem_map] at hx
    rcases hx with hx | ⟨m, -, rfl⟩
    · split at hx
      · rw [List.mem_singleton.1 hx]
        rfl
      · rw [List.mem_singleton.1 hx]
        rfl
      · cases hx
    · rfl
  · cases hx

lemma noticed_raised {act : Act} (hn : .raised a ∈ w.noticed act w') : act = .raise a ∨
    act = .turn (.step .control) ∧ w.session.control = .raising a ∧
      ∃ b, w'.session.control = .aborting b := by
  unfold noticed at hn
  split at hn
  · exact .inl (by rw [Notice.raised.inj (List.mem_singleton.1 hn)])
  · simp at hn
  · simp at hn
  · split at hn
    · next hc hc' =>
      obtain rfl := Notice.raised.inj (List.mem_singleton.1 hn)
      exact .inr ⟨rfl, hc, _, hc'⟩
    · simp at hn
    · simp at hn
    · cases hn
  · cases job_noticed hn
  · cases hn

lemma noticed_aborted {act : Act} (hn : .aborted a ∈ w.noticed act w') :
    .raised a ∉ w.noticed act w' ∧
      (act = .abort a ∨ act = .turn (.step .control) ∧ w.session.control = .aborting a) := by
  unfold noticed at hn ⊢
  split at hn
  · simp at hn
  · next b =>
    obtain rfl : a = b := Notice.aborted.inj (List.mem_singleton.1 hn)
    exact ⟨by simp, .inl rfl⟩
  · simp at hn
  · split at hn
    · simp at hn
    · next b hc =>
      obtain rfl : a = b := Notice.aborted.inj (List.mem_singleton.1 hn)
      exact ⟨by simp, .inr ⟨rfl, hc⟩⟩
    · simp at hn
    · cases hn
  · cases job_noticed hn
  · cases hn

/-- The first step of an interrupt raises the flag and touches no prompt. -/
lemma act_raised {act : Act} (h : w.act? act = some w') (hn : .raised a ∈ w.noticed act w') :
    w'.session.prompts = w.session.prompts ∧ w'.session.evaluators =
      (w.session.changeEvaluator a fun e => { e with raised := true }).evaluators := by
  rcases noticed_raised hn with rfl | ⟨rfl, hc, b, hc'⟩
  · simp only [act?] at h
    split at h
    · next session hraise =>
      cases h
      obtain ⟨-, rfl⟩ := raise_session hraise
      exact ⟨rfl, rfl⟩
    · cases h
  · simp only [act?, turn?, step?, controlStep?, hc] at h
    split at h
    · next session hraise =>
      cases h
      obtain ⟨-, rfl⟩ := raise_session hraise
      exact ⟨rfl, rfl⟩
    · cases h
      cases hc'

/-- The second step of an interrupt aborts the prompts of its actor. -/
lemma act_aborted {act : Act} (h : w.act? act = some w') (hn : .aborted a ∈ w.noticed act w') :
    w'.session.prompts = (w.session.prompts.abort a).2 := by
  rcases (noticed_aborted hn).2 with rfl | ⟨rfl, hc⟩
  · cases h
    rfl
  · simp only [act?, turn?, step?, controlStep?, hc, Option.some.injEq] at h
    subst h
    rfl

/-- No prompt of an actor is registered once they have been aborted. -/
lemma state_abort {p : Prompts} {tag : Nat} {x : Prompt} (hx : p.prompt? tag = some x) :
    ((p.abort x.actor).2.state tag).isPending = false := by
  rw [Prompts.state, Prompts.prompt?_abort, hx]
  simp only [Option.map_some, if_true]
  exact x.state.isPending_abort

/-- A question that is still registered is one that a running job of its actor has asked and has not
heard of. -/
lemma Accounts.pending (hacc : w.Accounts n) {tag : Nat} {x : Prompt}
    (hx : w.session.prompts.prompt? tag = some x) (hpending : x.state.isPending = true) :
    ∃ i job phase, w.session.jobs[i]? = some job ∧ job.actor = x.actor ∧
      job.asks? = some (phase, tag) ∧ phase ≠ .withdrawing ∧ tag ∈ n.askedBy i := by
  have hgiven : tag ∈ n.asked.map Prod.snd := by
    rw [hacc.tags, List.mem_range'_1]
    unfold Prompts.prompt? at hx
    split at hx
    · cases hx
    · have hlt := (List.getElem?_eq_some_iff.1 hx).1
      omega
  obtain ⟨⟨i, tag⟩, hasked, rfl⟩ := List.mem_map.1 hgiven
  obtain ⟨job, hjob, y, hy, hactor⟩ := hacc.known _ hasked
  obtain rfl : x = y := Option.some.inj (hx.symm.trans hy)
  have hmem := Notices.mem_askedBy.2 hasked
  rw [hacc.heard i, List.mem_append] at hmem
  rcases hmem with hheard | hunheard
  · obtain ⟨r, hr, rfl⟩ := List.mem_map.1 hheard
    have hforgotten := hacc.forgotten i r hr
    rw [Prompts.state, hx] at hforgotten
    simp only at hforgotten
    rw [hforgotten] at hpending
    cases hpending
  · rw [Option.mem_toList, unheard?, Option.bind_eq_some_iff] at hunheard
    obtain ⟨⟨phase, tag'⟩, hasks, hphase⟩ := hunheard
    split at hphase
    · cases hphase
    · next hne =>
      obtain rfl : tag' = tag := Option.some.inj hphase
      rw [asking, hjob, Option.bind_some] at hasks
      exact ⟨i, job, phase, hjob, hactor.symm, hasks, hne, Notices.mem_askedBy.2 hasked⟩

/-- At most one question of an actor is registered. -/
lemma Accounts.pending_unique {h : History} (hacc : w.Accounts n) (hledger : w.traffic.Ledger h)
    {tag tag' : Nat} {x x' : Prompt} (hx : w.session.prompts.prompt? tag = some x)
    (hpending : x.state.isPending = true) (hx' : w.session.prompts.prompt? tag' = some x')
    (hpending' : x'.state.isPending = true) (hactor : x'.actor = x.actor) : tag = tag' := by
  obtain ⟨i, job, phase, hjob, hjobactor, hasks, -⟩ := hacc.pending hx hpending
  obtain ⟨j, job', phase', hjob', hjobactor', hasks', -⟩ := hacc.pending hx' hpending'
  obtain rfl : i = j := hledger.running_unique hjob (running_of_asks hasks) hjob'
    (running_of_asks hasks') ((hjobactor'.trans hactor).trans hjobactor.symm)
  obtain rfl : job = job' := Option.some.inj (hjob.symm.trans hjob')
  rw [hasks] at hasks'
  exact (Prod.mk.inj (Option.some.inj hasks')).2

/-- What an interrupt that comes while a job runs leaves of it, with what has been noticed since the
job was there: the flag stays raised, and no question for which the job waits is registered. -/
structure Interrupted (w : World) (n : Notices) (index : Nat) (a : ActorId) : Prop where
  raised : .raised a ∈ n → ∀ job, w.session.jobs[index]? = some job → job.isEnded = false →
    w.traffic.Raised a
  safe : [.raised a, .aborted a].Sublist n → ∀ job tag, w.session.jobs[index]? = some job →
    job.asks? = some (.waiting, tag) → (w.session.prompts.state tag).isPending = false

namespace Interrupted

variable {before n' : Notices} {h : History} {index : Nat}

/-- With the second step of an interrupt comes the second notice, one at a time. -/
lemma sublist_append {act : Act}
    (hsub : [Notice.raised a, .aborted a].Sublist (n ++ w.noticed act w')) :
    [Notice.raised a, .aborted a].Sublist n ∨
      .raised a ∈ n ∧ .aborted a ∈ w.noticed act w' := by
  obtain ⟨l₁, l₂, hsplit, hl₁, hl₂⟩ := List.sublist_append_iff.1 hsub
  rcases l₁ with _ | ⟨x, _ | ⟨y, rest⟩⟩
  · rw [List.nil_append] at hsplit
    subst hsplit
    have haborted : Notice.aborted a ∈ w.noticed act w' := hl₂.subset (by simp)
    exact absurd (hl₂.subset (by simp)) (noticed_aborted haborted).1
  · simp only [List.cons_append, List.nil_append, List.cons.injEq] at hsplit
    obtain ⟨rfl, rfl⟩ := hsplit
    exact .inr ⟨hl₁.subset (by simp), hl₂.subset (by simp)⟩
  · simp only [List.cons_append, List.cons.injEq, List.nil_eq_append_iff] at hsplit
    obtain ⟨rfl, rfl, rfl, rfl⟩ := hsplit
    exact .inl hl₁

lemma isRaised_of {job : Job} (hsound : w.traffic.Sound) (hshared : w.traffic.Shared)
    (hjob : w.session.jobs[index]? = some job) (hraised : w.traffic.Raised job.actor) :
    w.session.isRaised job = true := by
  simp only [Session.isRaised, hshared job (List.mem_of_getElem? hjob)]
  exact raised_of_traffic hsound hraised

/-- A job that comes to wait for its question has found the flag lowered, or has aborted its
prompts itself. -/
lemma safe_step {job job' : Job} (hacc : w.Accounts before) (hsound : w.traffic.Sound)
    (hshared : w.traffic.Shared) (hjob : w.session.jobs[index]? = some job)
    (hraised : job.isEnded = false → w.traffic.Raised job.actor)
    (hturn : JobTurn w index job n' w'.session.prompts job'.asks?) {tag : Nat}
    (hasks : job'.asks? = some (.waiting, tag)) :
    (w'.session.prompts.state tag).isPending = false := by
  rw [hasks] at hturn
  generalize hprompts : w'.session.prompts = prompts at hturn
  generalize hafter : (some (PromptPhase.waiting, tag)) = after at hturn
  cases hturn with
  | aborted hbefore =>
    obtain ⟨-, rfl⟩ := Prod.mk.inj (Option.some.inj hafter)
    have hunheard : unheard? (w.asking index) = some tag := by
      simp [asking, hjob, unheard?, hbefore]
    obtain ⟨x, hx, hactor⟩ := hacc.owner hjob (hacc.asked_of_unheard hunheard)
    rw [← hactor]
    exact state_abort hx
  | looked hbefore =>
    have hflag := isRaised_of hsound hshared hjob (hraised (running_of_asks hbefore))
    rw [hflag] at hafter
    simp at hafter
  | _ => simp at hafter

lemma safe_after {act : Act} {job job' : Job} (hint : w.Interrupted n index job.actor)
    (hacc : w.Accounts before) (hsound : w.traffic.Sound) (hshared : w.traffic.Shared)
    (hjob : w.session.jobs[index]? = some job)
    (hsub : [Notice.raised job.actor, .aborted job.actor].Sublist n)
    (hact : w.act? act = some w') (hjob' : w'.session.jobs[index]? = some job') {tag : Nat}
    (hasks : job'.asks? = some (.waiting, tag)) :
    (w'.session.prompts.state tag).isPending = false := by
  have hunheard := unheard_waiting hjob' hasks
  -- if the job waited before, its question was not registered, and is not registered again
  have waited : w'.asking index = w.asking index →
      (w.session.prompts.state tag).Settles (w'.session.prompts.state tag) →
      (w'.session.prompts.state tag).isPending = false := by
    intro hsame hsettles
    have hbefore : job.asks? = some (.waiting, tag) := by
      simpa [asking, hjob, hjob', hasks] using hsame.symm
    have hsafe := hint.safe hsub job tag hjob hbefore
    cases hpending : (w'.session.prompts.state tag).isPending with
    | false => rfl
    | true =>
      rw [hsettles.isPending_of hpending] at hsafe
      cases hsafe
  rcases act_cases hsound hact with ⟨hsettling, -⟩ | ⟨i, asker, after, hstep⟩
  · exact waited (hsettling.asking index) (hsettling.prompts.state tag).1
  · by_cases hi : i = index
    · subst hi
      obtain rfl : asker = job := Option.some.inj (hstep.before.symm.trans hjob)
      obtain rfl : after = job' := Option.some.inj (hstep.after.symm.trans hjob')
      refine safe_step hacc hsound hshared hjob (fun hrunning => ?_) hstep.turn hasks
      exact hint.raised (hsub.subset (by simp)) asker hjob hrunning
    · have hsame : w'.asking index = w.asking index := hstep.asking_other (Ne.symm hi)
      have hasked := hacc.asked_of_unheard (hsame ▸ hunheard)
      exact waited hsame (hacc.settles_other hstep (Ne.symm hi) hasked)

lemma step {act : Act} (hint : w.Interrupted n index a) (hacc : w.Accounts before)
    (hledger : w.traffic.Ledger h) (hsound : w.traffic.Sound) (hshared : w.traffic.Shared)
    {job : Job} (hjob : w.session.jobs[index]? = some job) (hactor : job.actor = a)
    (hact : w.act? act = some w') : w'.Interrupted (n ++ w.noticed act w') index a := by
  subst hactor
  obtain ⟨shown, hmove⟩ := act_move hsound hact
  obtain ⟨kept, hkept, hkeptactor, hended⟩ := hmove.job_kept hjob
  have still : ∀ job', w'.session.jobs[index]? = some job' → job'.isEnded = false →
      job.isEnded = false := by
    intro job' hjob' hrunning
    obtain rfl : kept = job' := Option.some.inj (hkept.symm.trans hjob')
    by_contra hend
    rw [hended (by simpa using hend)] at hrunning
    exact hend hrunning
  constructor
  · intro hn job' hjob' hrunning
    rcases List.mem_append.1 hn with hn | hn
    · exact hledger.raised hsound hjob (still job' hjob' hrunning)
        (hint.raised hn job hjob (still job' hjob' hrunning)) hmove
    · obtain ⟨e, he, hid⟩ := List.mem_map.1 (hledger.mem_ids hjob)
      refine ⟨{ e with raised := true }, ?_, hid, rfl⟩
      change _ ∈ w'.session.evaluators
      rw [(act_raised hact hn).2]
      exact List.mem_map.2 ⟨e, he, if_pos hid⟩
  · intro hsub job' tag hjob' hasks
    rcases sublist_append hsub with hsub | ⟨-, hn⟩
    · exact hint.safe_after hacc hsound hshared hjob hsub hact hjob' hasks
    · -- the prompts of the actor have just been aborted
      have hacc' := hacc.act hsound hact
      obtain rfl : kept = job' := Option.some.inj (hkept.symm.trans hjob')
      obtain ⟨y, hy, hyactor⟩ :=
        hacc'.owner hkept (hacc'.asked_of_unheard (unheard_waiting hkept hasks))
      rw [act_aborted hact hn] at hy ⊢
      cases hx : w.session.prompts.prompt? tag with
      | none => simp [Prompts.prompt?_abort, hx] at hy
      | some x =>
        have hxactor : x.actor = job.actor := by
          rw [← hkeptactor, ← hyactor]
          rw [Prompts.prompt?_abort, hx, Option.map_some, Option.some.injEq] at hy
          rw [← hy]
          split <;> rfl
        rw [← hxactor]
        exact state_abort hx

end Interrupted

section runs

variable {o : Traffic} {h : History} {last : World} {acts : List Act} {before : Notices}

lemma opened_accounts {image : Image} {id : Nat} {host : Host} {wantsOutput : Bool}
    {outputPort : Option UInt16} {connection : Connection} :
    (opened image id host wantsOutput outputPort connection).Accounts [] where
  tags := rfl
  known r hr := by cases hr
  heard i := rfl
  withdrawn i job hjob := by cases hjob
  silent i hnone := rfl
  forgotten i r hr := by cases hr
  current i tag htag := by cases htag
  answers tag answer hstate := by
    change Prompts.state {} tag = _ at hstate
    simp [Prompts.state, Prompts.prompt?] at hstate
  outcome i tag answer hmem := by cases hmem

/-- A world that a run has led to, with the account of the questions so far. -/
structure Kept (o : Traffic) (w : World) (n : Notices) : Prop where
  run : ∃ h, Run o h w.traffic
  accounts : w.Accounts n

lemma Kept.act {act : Act} (hblank : o.Blank) (hkept : w.Kept o n) (hact : w.act? act = some w') :
    w'.Kept o (n ++ w.noticed act w') := by
  obtain ⟨⟨h, hrun⟩, haccounts⟩ := hkept
  have hsound := hblank.toSound.run hrun
  obtain ⟨shown, hmove⟩ := act_move hsound hact
  exact ⟨⟨_, hrun.next hmove⟩, haccounts.act hsound hact⟩

lemma acts_kept (hblank : o.Blank) (hkept : w.Kept o before)
    (hrun : w.acts? acts = some (n, last)) : last.Kept o (before ++ n) := by
  refine acts_induction (P := fun n w => w.Kept o (before ++ n)) ?_ ?_ hrun
  · rwa [List.append_nil]
  · intro n w₁ act w₂ hkept₁ hact
    rw [← List.append_assoc]
    exact hkept₁.act hblank hact

lemma acts_interrupted (hblank : o.Blank) (hkept : w.Kept o before)
    (hrun : w.acts? acts = some (n, last)) {index : Nat} {job : Job}
    (hjob : w.session.jobs[index]? = some job) :
    (∃ job', last.session.jobs[index]? = some job' ∧ job'.actor = job.actor) ∧
      last.Interrupted n index job.actor := by
  have hall := acts_induction (P := fun n w => w.Kept o (before ++ n) ∧
    (∃ job', w.session.jobs[index]? = some job' ∧ job'.actor = job.actor) ∧
    w.Interrupted n index job.actor) ?_ ?_ hrun
  · exact hall.2
  · refine ⟨by rwa [List.append_nil], ⟨job, hjob, rfl⟩, ⟨?_, ?_⟩⟩
    · intro hn
      cases hn
    · intro hsub
      cases hsub
  · rintro n w₁ act w₂ ⟨hkept₁, ⟨job₁, hjob₁, hactor₁⟩, hint₁⟩ hact
    obtain ⟨h, hrun₁⟩ := hkept₁.run
    have hsound := hblank.toSound.run hrun₁
    obtain ⟨shown, hmove⟩ := act_move hsound hact
    obtain ⟨job₂, hjob₂, hactor₂, -⟩ := hmove.job_kept hjob₁
    refine ⟨?_, ⟨job₂, hjob₂, hactor₂.trans hactor₁⟩, ?_⟩
    · rw [← List.append_assoc]
      exact hkept₁.act hblank hact
    · exact hint₁.step hkept₁.accounts (.run hblank hrun₁) hsound (.run hblank hrun₁) hjob₁
        hactor₁ hact

end runs

/-- A job that waits for a question which is not registered any more can hear of it. -/
lemma hears {index tag : Nat} {job : Job} (hjob : w.session.jobs[index]? = some job)
    (hasks : job.asks? = some (.waiting, tag))
    (hsettled : (w.session.prompts.state tag).isPending = false) :
    ∃ w' outcome, w.step? (.job index) = some w' ∧
      w.noticed (.turn (.step (.job index))) w' = [.heard index tag outcome] := by
  have hstep : ∃ w', w.jobStep? index = some w' := by
    unfold Job.asks? at hasks
    split at hasks
    · next phase tag' question next hphase =>
      simp only [Option.some.injEq, Prod.mk.injEq] at hasks
      obtain ⟨rfl, rfl⟩ := hasks
      simp only [jobStep?, hjob, Option.bind_eq_bind, Option.bind_some, hphase, promptStep?,
        awaitAnswer?]
      cases hstate : w.session.prompts.state tag' with
      | pending heard =>
        rw [hstate] at hsettled
        cases hsettled
      | _ => exact ⟨_, rfl⟩
    · cases hasks
  obtain ⟨w', hstep⟩ := hstep
  obtain ⟨job', hjobstep⟩ := act_job hjob hstep
  have hturn := hjobstep.turn
  refine ⟨w', ?_⟩
  generalize w.noticed (.turn (.step (.job index))) w' = shown at hturn ⊢
  generalize job'.asks? = asks at hturn
  generalize w'.session.prompts = prompts at hturn
  cases hturn with
  | answered answer hbefore | closed hbefore =>
    obtain ⟨-, rfl⟩ := Prod.mk.inj (Option.some.inj (hasks.symm.trans hbefore))
    exact ⟨_, hstep, rfl⟩
  | quiet _ hbefore | ask hbefore | shown _ hbefore | looked hbefore | aborted hbefore
    | withdrawn hbefore =>
    rw [hasks] at hbefore
    cases hbefore

/-- A job asks each question once and hears of each once, in the same order, but for the question
that it is about. The answers that it hears have been given, and the client is told of the
withdrawal of those questions that were aborted. -/
structure Outcomes (n : Notices) (index : Nat) (job : Job) : Prop where
  once : (n.askedBy index).Nodup
  heard : n.askedBy index = (n.heardBy index).map Prod.fst ++ (unheard? job.asks?).toList
  answered : ∀ tag answer, (tag, some answer) ∈ n.heardBy index → (tag, answer) ∈ n.answers
  withdrawn : n.withdrawnBy index ++ (owed? job.asks?).toList.map (withdrawal job.actor) =
    (n.abortedBy index).map (withdrawal job.actor)

/-- No question of a job is registered but one that it is still to look at the flag for. While the
job runs its actor has no other, and if the job waits it can hear of its question. -/
structure Released (w : World) (n : Notices) (index : Nat) (job : Job) : Prop where
  unchecked : ∀ tag ∈ n.askedBy index, (w.session.prompts.state tag).isPending = true →
    ∃ phase, job.asks? = some (phase, tag) ∧ phase.isChecked = false
  only : job.isEnded = false → ∀ tag x, w.session.prompts.prompt? tag = some x →
    x.state.isPending = true → x.actor = job.actor → tag ∈ n.askedBy index
  hears : ∀ tag, job.asks? = some (.waiting, tag) → ∃ w' outcome,
    w.step? (.job index) = some w' ∧
      w.noticed (.turn (.step (.job index))) w' = [.heard index tag outcome]

lemma Accounts.outcomes (hacc : w.Accounts n) {index : Nat} {job : Job}
    (hjob : w.session.jobs[index]? = some job) : Outcomes n index job := by
  have hasking : w.asking index = job.asks? := by simp [asking, hjob]
  have hnodup : n.asked.Nodup := by
    refine List.Nodup.of_map Prod.snd ?_
    rw [hacc.tags]
    exact List.nodup_range'
  refine ⟨?_, ?_, hacc.outcome index, ?_⟩
  · refine hnodup.filterMap fun r r' tag hr hr' => ?_
    simp only [Option.mem_def, Option.ite_none_right_eq_some, Option.some.injEq] at hr hr'
    exact Prod.ext (hr.1.trans hr'.1.symm) (hr.2.trans hr'.2.symm)
  · rw [hacc.heard index, hasking]
  · rw [← hacc.withdrawn index job hjob, hasking]

lemma Accounts.released {h : History} {since : Notices} (hacc : w.Accounts n)
    (hledger : w.traffic.Ledger h) {index : Nat} {job : Job} {a : ActorId}
    (hint : w.Interrupted since index a) (hsub : [.raised a, .aborted a].Sublist since)
    (hjob : w.session.jobs[index]? = some job) : w.Released n index job where
  unchecked tag hasked hpending := by
    obtain ⟨x, hx⟩ : ∃ x, w.session.prompts.prompt? tag = some x := by
      obtain ⟨-, -, x, hx, -⟩ := hacc.known _ (Notices.mem_askedBy.1 hasked)
      exact ⟨x, hx⟩
    have hstate : w.session.prompts.state tag = x.state := by rw [Prompts.state, hx]
    obtain ⟨i, asker, phase, hasker, -, hasks, hphase, hasked'⟩ :=
      hacc.pending hx (hstate ▸ hpending)
    obtain rfl := hacc.asker hasked hasked'
    obtain rfl : asker = job := Option.some.inj (hasker.symm.trans hjob)
    refine ⟨phase, hasks, ?_⟩
    cases phase with
    | waiting =>
      have hsettled := hint.safe hsub asker tag hjob hasks
      rw [hpending] at hsettled
      cases hsettled
    | withdrawing => exact absurd rfl hphase
    | showing | looking | aborting => rfl
  only hrunning tag x hx hpending hactor := by
    obtain ⟨i, asker, phase, hasker, hsame, hasks, -, hasked⟩ := hacc.pending hx hpending
    obtain rfl := hledger.running_unique hjob hrunning hasker (running_of_asks hasks)
      (hsame.trans hactor)
    exact hasked
  hears tag hasks := World.hears hjob hasks (hint.safe hsub job tag hjob hasks)

/-- Neither step of an interrupt touches the prompts of other actors. -/
lemma act_spares {act : Act} (h : w.act? act = some w')
    (hn : .raised a ∈ w.noticed act w' ∨ .aborted a ∈ w.noticed act w') {tag : Nat} {x : Prompt}
    (hx : w.session.prompts.prompt? tag = some x) (hactor : x.actor ≠ a) :
    w'.session.prompts.prompt? tag = some x := by
  rcases hn with hn | hn
  · rw [(act_raised h hn).1, hx]
  · rw [act_aborted h hn, Prompts.prompt?_abort, hx, Option.map_some, if_neg hactor]

/-- Whatever turns are taken, and however often others interrupt the actor and answer its questions
in between, an evaluation hears one outcome of each of its questions and withdraws those that were
aborted. Once an interrupt that came after its start has taken both its steps, no question is left
that it waits for. An actor has one question at a time, and an interrupt leaves the questions of
other actors alone. -/
theorem no_prompt_outlives {image : Image} {id : Nat} {host : Host} {wantsOutput : Bool}
    {outputPort : Option UInt16} {connection : Connection} {before acts : List Act}
    {n₀ n : Notices} {w₀ w : World} {index : Nat} {job : Job} (hfresh : image.mailboxes.Fresh)
    (hbefore : (opened image id host wantsOutput outputPort connection).acts? before =
      some (n₀, w₀))
    (hjob : w₀.session.jobs[index]? = some job) (hrun : w₀.acts? acts = some (n, w)) :
    (∃ job', w.session.jobs[index]? = some job' ∧ job'.actor = job.actor ∧
      Outcomes (n₀ ++ n) index job' ∧
      ([.raised job.actor, .aborted job.actor].Sublist n → w.Released (n₀ ++ n) index job')) ∧
    (∀ tag tag' x x', w.session.prompts.prompt? tag = some x → x.state.isPending = true →
      w.session.prompts.prompt? tag' = some x' → x'.state.isPending = true →
      x'.actor = x.actor → tag = tag') ∧
    ∀ act w' a, w.act? act = some w' →
      .raised a ∈ w.noticed act w' ∨ .aborted a ∈ w.noticed act w' →
      ∀ tag x, w.session.prompts.prompt? tag = some x → x.actor ≠ a →
        w'.session.prompts.prompt? tag = some x := by
  have hblank := opened_blank hfresh id host wantsOutput outputPort connection
  have hstart : (opened image id host wantsOutput outputPort connection).Kept
      (opened image id host wantsOutput outputPort connection).traffic [] :=
    ⟨⟨[], .start⟩, opened_accounts⟩
  have hkept₀ := acts_kept hblank hstart hbefore
  rw [List.nil_append] at hkept₀
  have hkept := acts_kept hblank hkept₀ hrun
  obtain ⟨h, htraffic⟩ := hkept.run
  have hledger := Ledger.run hblank htraffic
  obtain ⟨⟨job', hjob', hactor⟩, hint⟩ := acts_interrupted hblank hkept₀ hrun hjob
  refine ⟨⟨job', hjob', hactor, hkept.accounts.outcomes hjob', fun hsub => ?_⟩, ?_, ?_⟩
  · exact hkept.accounts.released hledger hint hsub hjob'
  · intro tag tag' x x' hx hpending hx' hpending' hsame
    exact hkept.accounts.pending_unique hledger hx hpending hx' hpending' hsame
  · intro act w' a hact hn tag x hx hne
    exact act_spares hact hn hx hne

/-- What the request to read a line computes. -/
def readingCourse : Course :=
  .step .interrupted fun raised : Bool =>
    if raised then .done (.error .interrupted)
    else .step (.ask .line) fun answer : Option String =>
      match answer with
      | some line => .done (.ok (.str line))
      | none => .done (.error .inputAborted)

lemma run_readLine (host : Host) :
    (evaluateRequest host (.list [.symbol "read-line"])).run = readingCourse := by
  have hplain : EditorCall.ofSexp? (.list [.symbol "read-line"]) = none := by decide +kernel
  have hspecial : SpecialForm.ofName? "read-line" = none := rfl
  have hbuiltin : Builtin.ofName? "read-line" = some .readLine := rfl
  simp only [evaluateRequest, hplain, Eval.evaluate]
  unfold Eval.evaluateForm
  refine congrArg (Computation.step .interrupted) (funext fun raised => ?_)
  cases (raised : Bool) with
  | true => rfl
  | false =>
    simp only [hspecial]
    unfold Eval.evaluateAll
    simp only [Eval.apply, hbuiltin]
    refine congrArg (Computation.step (.ask .line)) (funext fun answer => ?_)
    cases (answer : Option String) <;> rfl

/-- A world in which an evaluator has begun with a request, by what the request computes. -/
def begun (w : World) (a : ActorId) (work : Work) (course : Course) : World :=
  let job : Job := { actor := a, ns := work.package, phase := .computing course }
  let started : Session := { w.session with jobs := w.session.jobs ++ [job] }
  { w with
    session := started.changeEvaluator a fun e =>
      { e with raised := false, phase := .evaluating work w.session.jobs.length } }

lemma step_taken {e : Evaluator} {work : Work} {course : Course}
    (hfind : w.session.evaluator? a = some e) (hid : e.id = a) (hphase : e.phase = .taken work)
    (hcourse : (evaluateRequest w.session.host work.form).run = course) :
    w.step? (.evaluator a) = some (w.begun a work course) := by
  subst hid hcourse
  simp only [step?, evaluatorStep?, hfind, Option.bind_eq_bind, Option.bind_some, hphase,
    evaluatorPhase?, Session.startJob]
  rfl

/-- The REPL takes a request to read a line. -/
def readingTurns : List Turn :=
  sampleStart ++ sampleMessage "(:emacs-rex (read-line) nil :repl-thread 1)" ++
    List.replicate 3 (.step .control) ++ [.step (.evaluator 3)]

/-- An interrupt takes both its steps after the check point that comes before the question and
before the question is registered. -/
def racingActs : List Act :=
  [.turn (.step (.job 0)), .raise 3, .abort 3] ++ List.replicate 4 (.turn (.step (.job 0)))

lemma acts_append {first second : List Act} {n₁ n₂ : Notices} {w₁ w₂ : World}
    (h₁ : w.acts? first = some (n₁, w₁)) (h₂ : w₁.acts? second = some (n₂, w₂)) :
    w.acts? (first ++ second) = some (n₁ ++ n₂, w₂) := by
  induction first generalizing w n₁ with
  | nil =>
    cases h₁
    exact h₂
  | cons act rest ih =>
    simp only [acts?, Option.bind_eq_bind, Option.bind_eq_some_iff, Option.pure_def,
      Option.some.injEq, Prod.mk.injEq, Prod.exists] at h₁
    obtain ⟨w', hact, n, last, hrest, rfl, rfl⟩ := h₁
    simp only [List.cons_append, acts?, hact, Option.bind_eq_bind, Option.bind_some, ih hrest,
      Option.pure_def, List.append_assoc]

theorem no_prompt_outlives_race : ∃ n₀ w₀ n w job,
    sample.acts? (readingTurns.map .turn ++ [.turn (.step (.evaluator 3))]) = some (n₀, w₀) ∧
    w₀.acts? racingActs = some (n, w) ∧ w.session.jobs[0]? = some job ∧
    job.asks? = some (.waiting, 1) ∧ [.raised 3, .aborted 3].Sublist n ∧
    Outcomes (n₀ ++ n) 0 job ∧ ∃ w' outcome, w.step? (.job 0) = some w' ∧
      w.noticed (.turn (.step (.job 0))) w' = [.heard 0 1 outcome] := by
  let work : Work := ⟨.list [.symbol "read-line"], "user", 1⟩
  let repl : Evaluator := ⟨3, Session.replName, false, false, false, .taken work⟩
  have hall : (sample.acts? (readingTurns.map .turn)).any (fun p =>
      p.2.session.evaluator? 3 = some repl ∧
      ((p.2.begun 3 work readingCourse).session.jobs[0]?.any fun job => job.actor = 3) ∧
      ((p.2.begun 3 work readingCourse).acts? racingActs).any fun q =>
        q.1.take 2 = [.raised 3, .aborted 3] ∧
        (q.2.session.jobs[0]?).any fun job => job.asks? = some (.waiting, 1)) = true := by
    decide +kernel
  obtain ⟨⟨n₀, w₁⟩, htaken, hshows⟩ := (Option.any_eq_true _ _).1 hall
  obtain ⟨hfind, hjobs, hrest⟩ := of_decide_eq_true hshows
  obtain ⟨job, hjob, hown⟩ := (Option.any_eq_true _ _).1 hjobs
  obtain ⟨⟨n, w⟩, hrun, hafter⟩ := (Option.any_eq_true _ _).1 hrest
  obtain ⟨htake, hlast⟩ := of_decide_eq_true hafter
  obtain ⟨job', hjob', hwaits⟩ := (Option.any_eq_true _ _).1 hlast
  have hactor : job.actor = 3 := of_decide_eq_true hown
  have hasks : job'.asks? = some (.waiting, 1) := of_decide_eq_true hwaits
  have hsub : [Notice.raised 3, .aborted 3].Sublist n := htake ▸ List.take_sublist 2 n
  have hbegin : w₁.acts? [.turn (.step (.evaluator 3))] =
      some ([], w₁.begun 3 work readingCourse) := by
    have hstep := step_taken hfind rfl rfl (run_readLine w₁.session.host)
    simp only [acts?, act?, turn?, hstep]
    rfl
  have hbefore := acts_append htaken hbegin
  have hfresh : Mailboxes.Fresh {} := fun _ _ => rfl
  obtain ⟨⟨kept, hkept, -, houtcomes, hreleased⟩, -, -⟩ :=
    no_prompt_outlives hfresh hbefore hjob hrun
  obtain rfl : kept = job' := Option.some.inj (hkept.symm.trans hjob')
  have hfree := hreleased (hactor.symm ▸ hsub)
  exact ⟨_, _, n, w, kept, hbefore, hrun, hjob', hasks, hsub, houtcomes, hfree.hears 1 hasks⟩

end World

end EvalServer
