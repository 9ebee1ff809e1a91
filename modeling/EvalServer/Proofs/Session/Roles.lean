import EvalServer.Proofs.Session.Results

/-!
# Workers and the REPL

A worker starts for the one request that may be for any thread; every other request is for an
evaluator that is there, or for a REPL that starts for it. The REPL of the table never is a worker.
-/

namespace EvalServer

namespace History

/-- The designators of the requests that were accepted for an evaluator. -/
def threadsTo (h : History) (a : ActorId) : List Thread :=
  h.accepted.filterMap fun r => if r.2.1 = a then some r.1 else none

@[simp] lemma threadsTo_append (h more : History) (a : ActorId) :
    (h ++ more).threadsTo a = h.threadsTo a ++ more.threadsTo a := by
  simp [threadsTo]

end History

namespace Traffic

variable {o o' : Traffic} {h h' : History}

/-- The numbers of the evaluators, and whether they are workers. -/
def roles (o : Traffic) : List (ActorId × Bool) :=
  o.evaluators.map fun e => (e.id, e.worker)

lemma roles_change (o : Traffic) (a : ActorId) {f : Evaluator → Evaluator}
    (hf : ∀ e, (f e).id = e.id ∧ (f e).worker = e.worker) : (o.change a f).roles = o.roles := by
  simp only [roles, change, List.map_map]
  refine List.map_congr_left fun e _ => ?_
  simp only [Function.comp_apply]
  split
  · rw [(hf e).1, (hf e).2]
  · rfl

lemma roles_spawn (o : Traffic) (name : String) (worker flag : Bool) :
    (o.spawn name worker flag).roles = o.roles ++ [(o.lastActor + 1, worker)] := by
  simp [roles, spawn]

/-- How a move changes the evaluators and the REPL of the table, with the requests it accepts. -/
inductive Shift (o : Traffic) : List (Thread × ActorId × Work) → Traffic → Prop
  | same {o' : Traffic} : o'.roles = o.roles → (o'.repl = o.repl ∨ o'.repl = none) →
      Shift o [] o'
  | repl {o' : Traffic} : o'.roles = o.roles ++ [(o.lastActor + 1, false)] →
      o'.repl = some (o.lastActor + 1) → Shift o [] o'
  | known {o' : Traffic} {thread : Thread} {target : ActorId} (work : Work) : thread ≠ .any →
      target ∈ o.ids → o'.roles = o.roles → o'.repl = o.repl →
      Shift o [(thread, target, work)] o'
  | first {o' : Traffic} {thread : Thread} (work : Work) : thread ≠ .any →
      o'.roles = o.roles ++ [(o.lastActor + 1, false)] → o'.repl = some (o.lastActor + 1) →
      Shift o [(thread, o.lastActor + 1, work)] o'
  | worker {o' : Traffic} (work : Work) : o'.roles = o.roles ++ [(o.lastActor + 1, true)] →
      o'.repl = o.repl → Shift o [(.any, o.lastActor + 1, work)] o'

lemma Move.shift (hmove : Move o h' o') : Shift o h'.accepted o' := by
  cases hmove with
  | still | start | readerMail | tell | pass | aim | conclude | pick | enter | hand | turnBack
    | write | stop => exact .same rfl (.inl rfl)
  | clear => exact .same rfl (.inr rfl)
  | flag id f hf => exact .same (o.roles_change id fun e => ⟨(hf e).1, (hf e).2.1⟩) (.inl rfl)
  | raise => exact .same (o.roles_change _ fun _ => ⟨rfl, rfl⟩) (.inl rfl)
  | take | begin | judge | hint | post | finish | leave | die =>
    exact .same (roles_change _ _ fun _ => ⟨rfl, rfl⟩) (.inl rfl)
  | announce =>
    rw [History.accepted_map_sent]
    exact .same (roles_change _ _ fun _ => ⟨rfl, rfl⟩) (.inl rfl)
  | compute =>
    rw [History.accepted_map_sent]
    exact .same rfl (.inl rfl)
  | host b hhost =>
    cases hhost with
    | live => exact .same rfl (.inl rfl)
    | first name flag => exact .repl (o.roles_spawn name false flag) rfl
    | again name flag => exact .repl (o.roles_spawn name false flag) rfl
  | @accept work thread rest target o₁ _ _ hres =>
    cases hres with
    | any name flag => exact .worker work (o.roles_spawn name true flag) rfl
    | other hthread hid => exact .known work hthread hid rfl rfl
    | repl hhost =>
      cases hhost with
      | live hid => exact .known work (by simp) hid rfl rfl
      | first name flag => exact .first work (by simp) (o.roles_spawn name false flag) rfl
      | again name flag => exact .first work (by simp) (o.roles_spawn name false flag) rfl

lemma mem_ids_iff {a : ActorId} : a ∈ o.ids ↔ ∃ worker, (a, worker) ∈ o.roles := by
  simp only [ids, roles, List.mem_map, Prod.mk.injEq]
  constructor
  · rintro ⟨e, he, hid⟩
    exact ⟨e.worker, e, he, hid, rfl⟩
  · rintro ⟨worker, e, he, hid, -⟩
    exact ⟨e, he, hid⟩

/-- The REPL is no worker, and the requests that may be for any thread are the first of workers. -/
structure Allotted (o : Traffic) (h : History) : Prop where
  home : ∀ a, o.repl = some a → (a, false) ∈ o.roles
  known : ∀ r ∈ h.accepted, r.2.1 ∈ o.ids
  workers : ∀ a, (a, true) ∈ o.roles → ∃ rest, h.threadsTo a = .any :: rest ∧ .any ∉ rest
  others : ∀ a, (a, false) ∈ o.roles → .any ∉ h.threadsTo a

namespace Allotted

lemma threadsTo_eq_nil (hallot : o.Allotted h) {a : ActorId} (ha : a ∉ o.ids) :
    h.threadsTo a = [] := by
  refine List.filterMap_eq_nil_iff.2 fun r hr => if_neg fun heq => ha ?_
  exact heq ▸ hallot.known r hr

/-- At most one evaluator starts, and what is accepted is first for a worker and no other's. -/
lemma extend (hallot : o.Allotted h) (hsound : o.Sound) (fresh : List (ActorId × Bool))
    (hroles : o'.roles = o.roles ++ fresh) (hfresh : ∀ r ∈ fresh, r.1 = o.lastActor + 1)
    (hhome : ∀ a, o'.repl = some a → (a, false) ∈ o'.roles)
    (hknown : ∀ r ∈ h'.accepted, r.2.1 ∈ o'.ids)
    (hworkers : ∀ a, (a, true) ∈ fresh → h'.threadsTo a = [.any])
    (hothers : ∀ a, a ∈ o.ids ∨ (a, false) ∈ fresh → .any ∉ h'.threadsTo a) :
    o'.Allotted (h ++ h') := by
  have hnew : ∀ r ∈ fresh, h.threadsTo r.1 = [] := by
    intro r hr
    refine hallot.threadsTo_eq_nil fun hid => ?_
    rw [hfresh r hr] at hid
    exact Nat.not_succ_le_self _ (hsound.le_last _ hid)
  refine ⟨hhome, ?_, ?_, ?_⟩
  · intro r hr
    rw [History.accepted_append, List.mem_append] at hr
    rcases hr with hr | hr
    · obtain ⟨worker, hw⟩ := mem_ids_iff.1 (hallot.known r hr)
      exact mem_ids_iff.2 ⟨worker, hroles ▸ List.mem_append_left _ hw⟩
    · exact hknown r hr
  · intro a ha
    rw [History.threadsTo_append]
    rw [hroles, List.mem_append] at ha
    rcases ha with ha | ha
    · obtain ⟨rest, hrest, hany⟩ := hallot.workers a ha
      refine ⟨rest ++ h'.threadsTo a, by rw [hrest, List.cons_append], ?_⟩
      rw [List.mem_append, not_or]
      exact ⟨hany, hothers a (.inl (mem_ids_iff.2 ⟨true, ha⟩))⟩
    · rw [hnew _ ha, hworkers a ha]
      exact ⟨[], rfl, List.not_mem_nil⟩
  · intro a ha
    rw [History.threadsTo_append, List.mem_append, not_or]
    rw [hroles, List.mem_append] at ha
    rcases ha with ha | ha
    · exact ⟨hallot.others a ha, hothers a (.inl (mem_ids_iff.2 ⟨false, ha⟩))⟩
    · exact ⟨by rw [hnew _ ha]; exact List.not_mem_nil, hothers a (.inr ha)⟩

lemma step (hallot : o.Allotted h) (hsound : o.Sound) (hmove : Move o h' o') :
    o'.Allotted (h ++ h') := by
  have hshift := hmove.shift
  have hthreads : ∀ a, h'.threadsTo a =
      h'.accepted.filterMap fun r => if r.2.1 = a then some r.1 else none := fun _ => rfl
  generalize haccepted : h'.accepted = accepted at hshift hthreads
  have hnew : o.lastActor + 1 ∉ o.ids := fun hid =>
    Nat.not_succ_le_self _ (hsound.le_last _ hid)
  have one : ∀ (thread : Thread) (target : ActorId) (work : Work) (a : ActorId),
      accepted = [(thread, target, work)] →
      h'.threadsTo a = if target = a then [thread] else [] := by
    intro thread target work a hone
    rw [hthreads, hone]
    by_cases ha : target = a <;> simp [ha]
  have quiet : accepted = [] → ∀ a, h'.threadsTo a = [] := by
    rintro rfl a
    exact hthreads a
  have other : ∀ (thread : Thread) (target : ActorId) (work : Work), thread ≠ .any →
      accepted = [(thread, target, work)] → ∀ a, Thread.any ∉ h'.threadsTo a := by
    intro thread target work hthread hone a
    rw [one thread target work a hone]
    split
    · simpa using hthread.symm
    · exact List.not_mem_nil
  cases hshift with
  | same hroles hrepl =>
    refine hallot.extend hsound [] (by simpa using hroles) (by simp) ?_
      (by simp [haccepted]) (by simp) fun a _ => ?_
    · intro a ha
      rw [hroles]
      rcases hrepl with hrepl | hrepl
      · exact hallot.home a (hrepl ▸ ha)
      · rw [hrepl] at ha
        cases ha
    · rw [quiet rfl a]
      exact List.not_mem_nil
  | repl hroles hrepl =>
    refine hallot.extend hsound _ hroles (by simp) ?_ (by simp [haccepted]) (by simp) fun a _ => ?_
    · intro a ha
      rw [hrepl, Option.some.injEq] at ha
      rw [hroles, ← ha]
      exact List.mem_append_right _ List.mem_cons_self
    · rw [quiet rfl a]
      exact List.not_mem_nil
  | @known _ thread target work hthread htarget hroles hrepl =>
    refine hallot.extend hsound [] (by simpa using hroles) (by simp) ?_ ?_ (by simp)
      fun a _ => other thread target work hthread rfl a
    · intro a ha
      rw [hroles]
      exact hallot.home a (hrepl ▸ ha)
    · obtain ⟨worker, hw⟩ := mem_ids_iff.1 htarget
      simpa [haccepted] using mem_ids_iff.2 ⟨worker, hroles ▸ hw⟩
  | @first _ thread work hthread hroles hrepl =>
    refine hallot.extend hsound _ hroles (by simp) ?_ ?_ (by simp)
      fun a _ => other thread _ work hthread rfl a
    · intro a ha
      rw [hrepl, Option.some.injEq] at ha
      rw [hroles, ← ha]
      exact List.mem_append_right _ List.mem_cons_self
    · simpa [haccepted] using mem_ids_iff.2 ⟨false, by simp [hroles]⟩
  | worker work hroles hrepl =>
    refine hallot.extend hsound _ hroles (by simp) ?_ ?_ ?_ ?_
    · intro a ha
      rw [hroles]
      exact List.mem_append_left _ (hallot.home a (hrepl ▸ ha))
    · simpa [haccepted] using mem_ids_iff.2 ⟨true, by simp [hroles]⟩
    · intro a ha
      obtain ⟨rfl, -⟩ := Prod.mk.inj (List.mem_singleton.1 ha)
      rw [one .any _ work _ rfl, if_pos rfl]
    · rintro a (ha | ha)
      · have hne : o.lastActor + 1 ≠ a := fun heq => hnew (heq ▸ ha)
        rw [one .any _ work a rfl, if_neg hne]
        exact List.not_mem_nil
      · simp at ha

lemma start (hblank : o.Blank) : o.Allotted [] where
  home := by simp [hblank.repl_eq]
  known := by simp [History.accepted]
  workers := by simp [roles, hblank.evaluators_eq]
  others := by simp [roles, hblank.evaluators_eq]

theorem run {o₀ : Traffic} (hblank : o₀.Blank) (hrun : Run o₀ h o) : o.Allotted h := by
  induction hrun with
  | start => exact start hblank
  | next hrun hmove ih => exact ih.step (hblank.toSound.run hrun) hmove

end Allotted

def Unkilled (o : Traffic) : Prop :=
  ∀ e ∈ o.evaluators, e.killed = false

lemma Move.unkilled (hmove : Move o h' o') (hkill : o'.Unkilled) : o.Unkilled := by
  cases hmove with
  | still | start | clear | readerMail | tell | pass | aim | conclude | pick | enter | hand
    | turnBack | write | stop | compute => exact hkill
  | flag id f hf =>
    intro e he
    have hfe := hkill _ (List.mem_map_of_mem he)
    split at hfe
    · by_contra hkilled
      rw [(hf e).2.2.2.1 (by simpa using hkilled)] at hfe
      cases hfe
    · exact hfe
  | raise | take | begin | judge | announce | hint | post | finish | leave | die =>
    intro e he
    have hfe := hkill _ (List.mem_map_of_mem he)
    split at hfe
    · exact hfe
    · exact hfe
  | host b hhost =>
    intro e he
    rcases hhost.evaluators_eq with heq | ⟨name, flag, heq⟩
    · exact hkill e (heq ▸ he)
    · exact hkill e (heq ▸ List.mem_append_left _ he)
  | accept _ _ _ hres =>
    intro e he
    rcases hres.evaluators_eq with heq | ⟨name, worker, flag, heq⟩
    · exact hkill e (heq ▸ he)
    · exact hkill e (heq ▸ List.mem_append_left _ he)

/-- Of evaluators that were not killed only workers end, each after one evaluation. -/
lemma Ledger.ended_worker (hledger : o.Ledger h) {e : Evaluator} (he : e ∈ o.evaluators)
    (hkill : e.killed = false) (hended : e.phase = .ended) : e.worker = true := by
  obtain ⟨p, hp⟩ := hledger.desks e he
  have hstage : Desk.Stage _ _ _ (o.desk h e) e.phase p := hp.stage
  rw [hended] at hstage
  cases hstage with
  | left _ hworker => exact hworker
  | killed _ _ hk | orphaned _ _ hk =>
    rw [desk, hkill] at hk
    cases hk

end Traffic

end EvalServer
