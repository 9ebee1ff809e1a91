import EvalServer.Proofs.Session.Asking

/-!
# Questions and their outcomes

A job's questions are kept account of: each is heard of once, in the order in which they were asked,
and its withdrawal is told once if it was aborted. The step of a job adds to the account of that
job, and nothing else adds to any.
-/

namespace EvalServer

open Traffic

namespace World

variable {w w' : World}

/-- How the client is told of the withdrawal of a question. -/
def withdrawal (actor : ActorId) (tag : Nat) : UInt64 × UInt64 :=
  (UInt64.ofNat actor, UInt64.ofNat tag)

lemma of_forget {p : Prompts} {tag other : Nat} {answer : ClientAnswer}
    (h : (p.forget other).state tag = .answered answer) : p.state tag = .answered answer := by
  rw [Prompts.state_forget] at h
  split at h
  · cases hstate : p.state tag with
    | pending heard => cases heard <;> simp_all [PromptState.forget]
    | _ => simp_all [PromptState.forget]
  · exact h

namespace JobTurn

variable {i : Nat} {job : Job} {n : Notices} {p : Prompts} {asks : Option (PromptPhase × Nat)}

lemma others (h : JobTurn w i job n p asks) {k : Nat} (hk : k ≠ i) :
    n.askedBy k = [] ∧ n.heardBy k = [] ∧ n.withdrawnBy k = [] := by
  have hk' : i ≠ k := Ne.symm hk
  cases h with
  | quiet told =>
    refine ⟨?_, ?_, ?_⟩
    · simp [Notices.askedBy, Notices.asked, List.filterMap_map]
    · simp [Notices.heardBy, List.filterMap_map]
    · simp [Notices.withdrawnBy, List.filterMap_map, hk']
  | _ => simp [Notices.askedBy, Notices.asked, Notices.heardBy, Notices.withdrawnBy, hk']

lemma own_of_heard (h : JobTurn w i job n p asks) {k : Nat} {r : Nat × Option ClientAnswer}
    (hr : r ∈ n.heardBy k) : k = i := by
  by_contra hk
  rw [(h.others hk).2.1] at hr
  cases hr

/-- What a job has asked it hears of, or it is still to hear of it. -/
lemma heard (h : JobTurn w i job n p asks) : (unheard? job.asks?).toList ++ n.askedBy i =
    (n.heardBy i).map Prod.fst ++ (unheard? asks).toList := by
  cases h with
  | quiet told hasks =>
    simp [unheard?, hasks, Notices.askedBy, Notices.asked, Notices.heardBy, List.filterMap_map]
  | ask hasks => simp [unheard?, hasks, Notices.askedBy, Notices.asked, Notices.heardBy]
  | shown _ hasks | aborted hasks | answered _ hasks | closed hasks | withdrawn hasks =>
    simp [unheard?, hasks, Notices.askedBy, Notices.asked, Notices.heardBy]
  | looked hasks =>
    by_cases hraised : w.session.isRaised job = true <;>
      simp [unheard?, hasks, hraised, Notices.askedBy, Notices.asked, Notices.heardBy]

/-- A job that hears of an abort tells of the withdrawal, or has still to do so. -/
lemma withdrawals (h : JobTurn w i job n p asks) :
    (owed? job.asks?).toList.map (withdrawal job.actor) ++
        (n.abortedBy i).map (withdrawal job.actor) =
      n.withdrawnBy i ++ (owed? asks).toList.map (withdrawal job.actor) := by
  cases h with
  | quiet told hasks hcalm =>
    have hnone : Notices.withdrawnBy (told.map (.told i)) i = [] := by
      simpa [Notices.withdrawnBy, List.filterMap_map] using hcalm
    rw [hnone]
    simp [owed?, hasks, Notices.abortedBy, Notices.heardBy, List.filterMap_map]
  | shown m hasks hm =>
    simp [owed?, hasks, hm, Notices.abortedBy, Notices.heardBy, Notices.withdrawnBy]
  | withdrawn hasks =>
    simp [owed?, hasks, Notices.abortedBy, Notices.heardBy, Notices.withdrawnBy,
      Message.withdrawal?, withdrawal]
  | ask hasks | aborted hasks | answered _ hasks | closed hasks =>
    simp [owed?, hasks, Notices.abortedBy, Notices.heardBy, Notices.withdrawnBy]
  | looked hasks =>
    by_cases hraised : w.session.isRaised job = true <;>
      simp [owed?, hasks, hraised, Notices.abortedBy, Notices.heardBy, Notices.withdrawnBy]

/-- A question that was asked before is settled at most, unless the job has just heard of it. -/
lemma state (h : JobTurn w i job n p asks) {tag : Nat}
    (hgiven : tag ≤ w.session.prompts.prompts.length)
    (hopen : unheard? job.asks? = some tag → unheard? asks = some tag) :
    (w.session.prompts.state tag).Settles (p.state tag) := by
  cases h with
  | quiet | shown | looked | withdrawn => exact .same _
  | ask =>
    have hne : tag ≠ (w.session.prompts.register job.actor).1 :=
      Nat.ne_of_lt (Nat.lt_succ_of_le hgiven)
    rw [Prompts.state_register, if_neg hne]
    exact .same _
  | aborted => exact ((w.session.prompts.settles_abort job.actor).state tag).1
  | answered _ hasks | closed hasks =>
    rw [Prompts.state_forget]
    split
    · next heq =>
      subst heq
      simp [unheard?, hasks] at hopen
    · exact .same _

/-- No step of a job answers a question, and what it hears is the answer that was given. -/
lemma answers (h : JobTurn w i job n p asks) : n.answers = [] ∧
    (∀ tag answer, p.state tag = .answered answer →
      w.session.prompts.state tag = .answered answer) ∧
    ∀ tag answer, (tag, some answer) ∈ n.heardBy i →
      w.session.prompts.state tag = .answered answer := by
  cases h with
  | quiet told =>
    exact ⟨by simp [Notices.answers, List.filterMap_map], fun _ _ => id,
      by simp [Notices.heardBy, List.filterMap_map]⟩
  | ask =>
    refine ⟨rfl, fun tag answer hstate => ?_, by simp [Notices.heardBy]⟩
    rw [Prompts.state_register] at hstate
    split at hstate
    · cases hstate
    · exact hstate
  | shown | looked | withdrawn => exact ⟨rfl, fun _ _ => id, by simp [Notices.heardBy]⟩
  | aborted =>
    refine ⟨rfl, fun tag answer hstate => ?_, by simp [Notices.heardBy]⟩
    have hsettles := (w.session.prompts.settles_abort job.actor).state tag
    exact (hsettles.2 answer hstate).resolve_right (by simp)
  | answered answer hasks hstate =>
    refine ⟨rfl, fun tag other hother => of_forget hother, fun tag other hheard => ?_⟩
    simp only [Notices.heardBy, List.filterMap_cons, if_true, List.filterMap_nil,
      List.mem_singleton, Prod.mk.injEq, Option.some.injEq] at hheard
    obtain ⟨rfl, rfl⟩ := hheard
    exact hstate
  | closed => exact ⟨rfl, fun tag other hother => of_forget hother, by simp [Notices.heardBy]⟩

/-- The question that a job has heard of is forgotten. -/
lemma forgotten (h : JobTurn w i job n p asks) :
    ∀ r ∈ n.heardBy i, p.state r.1 = .forgotten ∧ unheard? job.asks? = some r.1 := by
  intro r hr
  cases h with
  | quiet told => simp [Notices.heardBy, List.filterMap_map] at hr
  | answered answer hasks hstate =>
    simp only [Notices.heardBy, List.filterMap_cons, if_true, List.filterMap_nil,
      List.mem_singleton] at hr
    subst hr
    rw [Prompts.state_forget, if_pos rfl, hstate]
    exact ⟨rfl, by simp [unheard?, hasks]⟩
  | closed hasks hpending =>
    simp only [Notices.heardBy, List.filterMap_cons, if_true, List.filterMap_nil,
      List.mem_singleton] at hr
    subst hr
    rw [Prompts.state_forget, if_pos rfl]
    refine ⟨?_, by simp [unheard?, hasks]⟩
    cases hstate : w.session.prompts.state _ with
    | pending heard =>
      rw [hstate] at hpending
      cases hpending
    | _ => rfl
  | _ => simp [Notices.heardBy] at hr

/-- Tags ascend in the order in which the questions are asked. -/
lemma tags (h : JobTurn w i job n p asks) :
    List.range' 1 w.session.prompts.prompts.length ++ n.asked.map Prod.snd =
      List.range' 1 p.prompts.length := by
  cases h with
  | quiet told => simp [Notices.asked, List.filterMap_map]
  | ask => simp [Notices.asked, Prompts.register, List.range'_concat, Nat.add_comm]
  | answered | closed =>
    rw [Prompts.forget, Prompts.length_change]
    simp [Notices.asked]
  | aborted => simp [Notices.asked, Prompts.abort]
  | shown | looked | withdrawn => simp [Notices.asked]

/-- Prompts stay with their actors. -/
lemma actors (h : JobTurn w i job n p asks) {tag : Nat} {x : Prompt}
    (hx : w.session.prompts.prompt? tag = some x) :
    ∃ y, p.prompt? tag = some y ∧ y.actor = x.actor := by
  cases h with
  | quiet | shown | looked | withdrawn => exact ⟨x, hx, rfl⟩
  | ask => exact ⟨x, Prompts.prompt?_register hx job.actor, rfl⟩
  | aborted =>
    obtain ⟨y, hy, hactor, -⟩ := (w.session.prompts.settles_abort job.actor).each tag x hx
    exact ⟨y, hy, hactor⟩
  | answered | closed =>
    rw [Prompts.forget, Prompts.prompt?_change, hx, Option.map_some]
    refine ⟨_, rfl, ?_⟩
    split <;> rfl

/-- What a job asks is registered for its actor. -/
lemma registered (h : JobTurn w i job n p asks) :
    ∀ r ∈ n.asked, r.1 = i ∧ p.prompt? r.2 = some ⟨job.actor, .pending true⟩ := by
  intro r hr
  cases h with
  | quiet told => simp [Notices.asked, List.filterMap_map] at hr
  | ask =>
    simp only [Notices.asked, List.filterMap_cons, List.filterMap_nil, List.mem_singleton] at hr
    subst hr
    exact ⟨rfl, by simp [Prompts.prompt?, Prompts.register]⟩
  | _ => simp [Notices.asked] at hr

/-- A question that the job has not heard of is heard of when it is settled. -/
lemma current (h : JobTurn w i job n p asks) {tag : Nat} (hasks : unheard? asks = some tag) :
    (p.state tag).isHeard = true ∧ tag ∈ n.askedBy i ∨ unheard? job.asks? = some tag := by
  cases h with
  | ask =>
    refine .inl ⟨?_, ?_⟩
    · simp only [unheard?, Option.bind_some, reduceCtorEq, if_false, Option.some.injEq] at hasks
      subst hasks
      rw [Prompts.state_register, if_pos rfl]
      rfl
    · simp only [unheard?, Option.bind_some, reduceCtorEq, if_false, Option.some.injEq] at hasks
      subst hasks
      simp [Notices.askedBy, Notices.asked]
  | shown _ hbefore | aborted hbefore =>
    exact .inr (by simpa [unheard?, hbefore] using hasks)
  | looked hbefore =>
    refine .inr ?_
    by_cases hraised : w.session.isRaised job = true
    · simpa [unheard?, hbefore, hraised] using hasks
    · simpa [unheard?, hbefore, hraised] using hasks
  | quiet | answered | closed | withdrawn => simp [unheard?] at hasks

end JobTurn

namespace JobStep

variable {i k : Nat} {job job' : Job} {n : Notices}

lemma after (h : w.JobStep i job job' n w') : w'.session.jobs[i]? = some job' := by
  rw [h.jobs, List.getElem?_set_self (List.getElem?_eq_some_iff.1 h.before).1]

lemma other (h : w.JobStep i job job' n w') (hk : k ≠ i) :
    w'.session.jobs[k]? = w.session.jobs[k]? := by
  rw [h.jobs, List.getElem?_set_ne hk.symm]

lemma asking_before (h : w.JobStep i job job' n w') : w.asking i = job.asks? := by
  simp [asking, h.before]

lemma asking_after (h : w.JobStep i job job' n w') : w'.asking i = job'.asks? := by
  simp [asking, h.after]

lemma asking_other (h : w.JobStep i job job' n w') (hk : k ≠ i) : w'.asking k = w.asking k := by
  rw [asking, asking, h.other hk]

end JobStep

lemma unheard_waiting {i tag : Nat} {job : Job} (hjob : w.session.jobs[i]? = some job)
    (hasks : job.asks? = some (.waiting, tag)) : unheard? (w.asking i) = some tag := by
  simp [asking, hjob, unheard?, hasks]

/-- The account of the questions that jobs have asked, with what has been noticed of them. -/
structure Accounts (w : World) (n : Notices) : Prop where
  tags : n.asked.map Prod.snd = List.range' 1 w.session.prompts.prompts.length
  known : ∀ r ∈ n.asked, ∃ job, w.session.jobs[r.1]? = some job ∧
    ∃ x, w.session.prompts.prompt? r.2 = some x ∧ x.actor = job.actor
  heard : ∀ i, n.askedBy i = (n.heardBy i).map Prod.fst ++ (unheard? (w.asking i)).toList
  withdrawn : ∀ i job, w.session.jobs[i]? = some job →
    n.withdrawnBy i ++ (owed? (w.asking i)).toList.map (withdrawal job.actor) =
      (n.abortedBy i).map (withdrawal job.actor)
  silent : ∀ i, w.session.jobs[i]? = none → n.withdrawnBy i = []
  forgotten : ∀ i, ∀ r ∈ n.heardBy i, w.session.prompts.state r.1 = .forgotten
  current : ∀ i tag, unheard? (w.asking i) = some tag →
    (w.session.prompts.state tag).isHeard = true
  answers : ∀ tag answer, w.session.prompts.state tag = .answered answer →
    (tag, answer) ∈ n.answers
  outcome : ∀ i tag answer, (tag, some answer) ∈ n.heardBy i → (tag, answer) ∈ n.answers

namespace Accounts

variable {n n' : Notices} {i : Nat} {tag : Nat}

lemma given (h : w.Accounts n) (hasked : tag ∈ n.askedBy i) :
    tag ≤ w.session.prompts.prompts.length := by
  have hmem : tag ∈ n.asked.map Prod.snd :=
    List.mem_map.2 ⟨(i, tag), Notices.mem_askedBy.1 hasked, rfl⟩
  rw [h.tags, List.mem_range'_1] at hmem
  omega

/-- No two jobs ask the same question. -/
lemma asker (h : w.Accounts n) {j : Nat} (hi : tag ∈ n.askedBy i) (hj : tag ∈ n.askedBy j) :
    i = j := by
  have hnodup : (n.asked.map Prod.snd).Nodup := by
    rw [h.tags]
    exact List.nodup_range'
  have heq := List.inj_on_of_nodup_map hnodup (Notices.mem_askedBy.1 hi)
    (Notices.mem_askedBy.1 hj) rfl
  exact (Prod.mk.inj heq).1

lemma asked_of_unheard (h : w.Accounts n) (htag : unheard? (w.asking i) = some tag) :
    tag ∈ n.askedBy i := by
  rw [h.heard i, htag]
  simp

lemma asked_of_heard (h : w.Accounts n) {r : Nat × Option ClientAnswer} (hr : r ∈ n.heardBy i) :
    r.1 ∈ n.askedBy i := by
  rw [h.heard i]
  exact List.mem_append_left _ (List.mem_map_of_mem hr)

/-- Nothing has been noticed of a job that is not there yet. -/
lemma unborn (h : w.Accounts n) (hnone : w.session.jobs[i]? = none) :
    n.askedBy i = [] ∧ n.heardBy i = [] := by
  have hasked : n.askedBy i = [] := by
    refine List.eq_nil_iff_forall_not_mem.2 fun tag htag => ?_
    obtain ⟨job, hjob, -⟩ := h.known _ (Notices.mem_askedBy.1 htag)
    rw [hnone] at hjob
    cases hjob
  have hheard := h.heard i
  rw [hasked, eq_comm, List.append_eq_nil_iff, List.map_eq_nil_iff] at hheard
  exact ⟨hasked, hheard.1⟩

/-- A question is asked for the actor of its job. -/
lemma owner {job : Job} (h : w.Accounts n) (hjob : w.session.jobs[i]? = some job)
    (hasked : tag ∈ n.askedBy i) :
    ∃ x, w.session.prompts.prompt? tag = some x ∧ x.actor = job.actor := by
  obtain ⟨asker, hasker, hx⟩ := h.known _ (Notices.mem_askedBy.1 hasked)
  obtain rfl : asker = job := Option.some.inj (hasker.symm.trans hjob)
  exact hx

lemma settling {shown : History} (h : w.Accounts n) (hsettling : w.Settling n'.answers w')
    (hmove : Move w.traffic shown w'.traffic) (hn' : ∀ x ∈ n', x.isOutside = true) :
    w'.Accounts (n ++ n') := by
  obtain ⟨hasked, hheard, hwithdrawn⟩ := Notices.outside hn'
  have haskedBy : ∀ i, n'.askedBy i = [] := fun i => by simp [Notices.askedBy, hasked]
  have haborted : ∀ i, n'.abortedBy i = [] := fun i => by simp [Notices.abortedBy, hheard]
  exact {
    tags := by
      rw [Notices.asked_append, hasked, List.append_nil, h.tags, hsettling.prompts.length_eq]
    known := by
      intro r hr
      rw [Notices.asked_append, hasked, List.append_nil] at hr
      obtain ⟨job, hjob, x, hx, hactor⟩ := h.known r hr
      obtain ⟨job', hjob', hsame, -⟩ := hmove.job_kept hjob
      obtain ⟨y, hy, hy', -⟩ := hsettling.prompts.each _ x hx
      exact ⟨job', hjob', y, hy, hy'.trans (hactor.trans hsame.symm)⟩
    heard := by
      intro i
      rw [Notices.askedBy_append, Notices.heardBy_append, haskedBy, hheard, List.append_nil,
        List.append_nil, hsettling.asking, h.heard]
    withdrawn := by
      intro i job' hjob'
      rw [Notices.withdrawnBy_append, Notices.abortedBy_append, hwithdrawn, haborted,
        List.append_nil, List.append_nil, hsettling.asking]
      cases hjob : w.session.jobs[i]? with
      | some job =>
        obtain ⟨kept, hkept, hactor, -⟩ := hmove.job_kept hjob
        obtain rfl : kept = job' := Option.some.inj (hkept.symm.trans hjob')
        rw [hactor]
        exact h.withdrawn i job hjob
      | none =>
        have hasks : w.asking i = none := by simp [asking, hjob]
        rw [h.silent i hjob, hasks, Notices.abortedBy, (h.unborn hjob).2]
        rfl
    silent := by
      intro i hnone
      rw [Notices.withdrawnBy_append, hwithdrawn, List.append_nil]
      refine h.silent i ?_
      cases hjob : w.session.jobs[i]? with
      | none => rfl
      | some job =>
        obtain ⟨kept, hkept, -⟩ := hmove.job_kept hjob
        exact absurd (hnone.symm.trans hkept) (by simp)
    forgotten := by
      intro i r hr
      rw [Notices.heardBy_append, hheard, List.append_nil] at hr
      have hstate := (hsettling.prompts.state r.1).1
      rw [h.forgotten i r hr] at hstate
      exact hstate.of_forgotten
    current := by
      intro i tag htag
      rw [hsettling.asking] at htag
      rw [(hsettling.prompts.state tag).1.isHeard_eq]
      exact h.current i tag htag
    answers := by
      intro tag answer hstate
      rw [Notices.answers_append, List.mem_append]
      exact ((hsettling.prompts.state tag).2 answer hstate).imp_left (h.answers tag answer)
    outcome := by
      intro i tag answer hmem
      rw [Notices.heardBy_append, hheard, List.append_nil] at hmem
      rw [Notices.answers_append]
      exact List.mem_append_left _ (h.outcome i tag answer hmem) }

section step

variable {k : Nat} {job job' : Job}

/-- The step of a job settles a question of another at most. -/
lemma settles_other (h : w.Accounts n) (hstep : w.JobStep i job job' n' w') (hk : k ≠ i)
    (hasked : tag ∈ n.askedBy k) :
    (w.session.prompts.state tag).Settles (w'.session.prompts.state tag) := by
  refine hstep.turn.state (h.given hasked) fun hopen => ?_
  rw [← hstep.asking_before] at hopen
  exact absurd (h.asker hasked (h.asked_of_unheard hopen)) hk

lemma step_known (h : w.Accounts n) (hstep : w.JobStep i job job' n' w') :
    ∀ r ∈ (n ++ n').asked, ∃ job, w'.session.jobs[r.1]? = some job ∧
      ∃ x, w'.session.prompts.prompt? r.2 = some x ∧ x.actor = job.actor := by
  intro r hr
  rw [Notices.asked_append, List.mem_append] at hr
  rcases hr with hr | hr
  · obtain ⟨asker, hasker, x, hx, hxactor⟩ := h.known r hr
    obtain ⟨y, hy, hyactor⟩ := hstep.turn.actors hx
    by_cases hri : r.1 = i
    · rw [hri] at hasker
      obtain rfl : asker = job := Option.some.inj (hasker.symm.trans hstep.before)
      exact ⟨job', hri ▸ hstep.after, y, hy, hyactor.trans (hxactor.trans hstep.actor.symm)⟩
    · exact ⟨asker, (hstep.other hri).trans hasker, y, hy, hyactor.trans hxactor⟩
  · obtain ⟨hri, hprompt⟩ := hstep.turn.registered r hr
    exact ⟨job', hri ▸ hstep.after, _, hprompt, hstep.actor.symm⟩

lemma step_heard (h : w.Accounts n) (hstep : w.JobStep i job job' n' w') (k : Nat) :
    (n ++ n').askedBy k =
      ((n ++ n').heardBy k).map Prod.fst ++ (unheard? (w'.asking k)).toList := by
  rw [Notices.askedBy_append, Notices.heardBy_append, List.map_append, h.heard k]
  by_cases hk : k = i
  · subst hk
    rw [hstep.asking_before, hstep.asking_after, List.append_assoc, List.append_assoc,
      hstep.turn.heard]
  · obtain ⟨hasked, hheard, -⟩ := hstep.turn.others hk
    rw [hasked, hheard, hstep.asking_other hk]
    simp

lemma step_withdrawn (h : w.Accounts n) (hstep : w.JobStep i job job' n' w') {asker : Job}
    (hasker : w'.session.jobs[k]? = some asker) :
    (n ++ n').withdrawnBy k ++ (owed? (w'.asking k)).toList.map (withdrawal asker.actor) =
      ((n ++ n').abortedBy k).map (withdrawal asker.actor) := by
  rw [Notices.withdrawnBy_append, Notices.abortedBy_append, List.map_append]
  by_cases hk : k = i
  · subst hk
    obtain rfl : job' = asker := Option.some.inj (hstep.after.symm.trans hasker)
    rw [hstep.asking_after, hstep.actor, ← h.withdrawn k job hstep.before, hstep.asking_before,
      List.append_assoc, List.append_assoc, hstep.turn.withdrawals]
  · obtain ⟨-, hheard, hwithdrawn⟩ := hstep.turn.others hk
    rw [hwithdrawn, hstep.asking_other hk, Notices.abortedBy, Notices.abortedBy, hheard]
    rw [hstep.other hk] at hasker
    simpa [Notices.abortedBy] using h.withdrawn k asker hasker

lemma step_forgotten (h : w.Accounts n) (hstep : w.JobStep i job job' n' w') :
    ∀ r ∈ (n ++ n').heardBy k, w'.session.prompts.state r.1 = .forgotten := by
  intro r hr
  rw [Notices.heardBy_append, List.mem_append] at hr
  rcases hr with hr | hr
  · have hstate := hstep.turn.state (h.given (h.asked_of_heard hr)) fun hopen => ?_
    · rw [h.forgotten k r hr] at hstate
      exact hstate.of_forgotten
    · -- a question that was heard of before is not the one that the job still waits for
      rw [← hstep.asking_before] at hopen
      have hheard := h.current i r.1 hopen
      rw [h.forgotten k r hr] at hheard
      cases hheard
  · obtain rfl := hstep.turn.own_of_heard hr
    exact (hstep.turn.forgotten r hr).1

lemma step_current (h : w.Accounts n) (hstep : w.JobStep i job job' n' w')
    (htag : unheard? (w'.asking k) = some tag) :
    (w'.session.prompts.state tag).isHeard = true := by
  by_cases hk : k = i
  · subst hk
    rw [hstep.asking_after] at htag
    rcases hstep.turn.current htag with ⟨hheard, -⟩ | hopen
    · exact hheard
    · rw [← hstep.asking_before] at hopen
      have hstate := hstep.turn.state (h.given (h.asked_of_unheard hopen)) fun _ => htag
      rw [hstate.isHeard_eq]
      exact h.current k tag hopen
  · rw [hstep.asking_other hk] at htag
    rw [(h.settles_other hstep hk (h.asked_of_unheard htag)).isHeard_eq]
    exact h.current k tag htag

lemma step (h : w.Accounts n) (hstep : w.JobStep i job job' n' w') : w'.Accounts (n ++ n') := by
  obtain ⟨hnone, hanswers, houtcome⟩ := hstep.turn.answers
  exact {
    tags := by
      rw [Notices.asked_append, List.map_append, h.tags]
      exact hstep.turn.tags
    known := h.step_known hstep
    heard := h.step_heard hstep
    withdrawn := fun _ _ => h.step_withdrawn hstep
    silent := by
      intro k hnone
      have hk : k ≠ i := by
        rintro rfl
        rw [hstep.after] at hnone
        cases hnone
      rw [Notices.withdrawnBy_append, (hstep.turn.others hk).2.2, List.append_nil]
      exact h.silent k (hstep.other hk ▸ hnone)
    forgotten := fun _ => h.step_forgotten hstep
    current := fun _ _ => h.step_current hstep
    answers := by
      intro tag answer hstate
      rw [Notices.answers_append, hnone, List.append_nil]
      exact h.answers tag answer (hanswers tag answer hstate)
    outcome := by
      intro k tag answer hmem
      rw [Notices.answers_append, hnone, List.append_nil]
      rw [Notices.heardBy_append, List.mem_append] at hmem
      rcases hmem with hmem | hmem
      · exact h.outcome k tag answer hmem
      · obtain rfl := hstep.turn.own_of_heard hmem
        exact h.answers tag answer (houtcome tag answer hmem) }

end step

lemma act (h : w.Accounts n) (hsound : w.traffic.Sound) {act : Act}
    (hact : w.act? act = some w') : w'.Accounts (n ++ w.noticed act w') := by
  obtain ⟨shown, hmove⟩ := act_move hsound hact
  rcases act_cases hsound hact with ⟨hsettling, hjobless⟩ | ⟨i, job, job', hstep⟩
  · exact h.settling hsettling hmove hjobless
  · exact h.step hstep

end Accounts

end World

end EvalServer
