import EvalServer.Proofs.Session.Roles
import EvalServer.Proofs.Session.Turns

/-!
# Active evaluators

Control enters an evaluator among the active ones before it hands it a request, and takes it out
when it has taken a result of it, whether or not the evaluator has other requests. So an evaluator
is active exactly if the last that passed between it and control was a request, and not if one of
several requests has been answered since the last was handed over.
-/

namespace EvalServer

namespace History

/-- What passed between control and an evaluator: `true` for each request that it was handed and
`false` for each of its results that control took. -/
def dealings (h : History) (a : ActorId) : List Bool :=
  h.filterMap fun
    | .handed target _ => if target = a then some true else none
    | .taken (.result actor _ _) => if actor = a then some false else none
    | _ => none

/-- The last that passed between control and an evaluator was a request. -/
def engaged (h : History) (a : ActorId) : Bool :=
  (h.dealings a).getLast? = some true

/-- The requests that an evaluator was handed and whose results control has not taken. -/
def outstanding (h : History) (a : ActorId) : List Work :=
  (h.handedTo a).drop (h.resultsOf a).length

section dealings

variable (h more : History) (a : ActorId)

@[simp] lemma dealings_append : (h ++ more).dealings a = h.dealings a ++ more.dealings a :=
  List.filterMap_append

lemma dealings_taken {m : Message} (hm : m.result? = none) : dealings [.taken m] a = [] := by
  cases m <;> simp [dealings, Message.result?] at hm ⊢

lemma dealings_map_sent (s : Option ActorId) (messages : List Message) :
    dealings (messages.map (.sent s)) a = [] := by
  simp [dealings, List.filterMap_map]

lemma dealings_handed (b : ActorId) (work : Work) :
    dealings [.handed b work] a = if b = a then [true] else [] := by
  by_cases hb : b = a <;> simp [dealings, hb]

lemma dealings_result (b : ActorId) (status : Status) (id : Int64) :
    dealings [.taken (.result b status id)] a = if b = a then [false] else [] := by
  by_cases hb : b = a <;> simp [dealings, hb]

lemma count_true_dealings : (h.dealings a).count true = (h.handedTo a).length := by
  induction h with
  | nil => rfl
  | cons e rest ih =>
    have hcons : e :: rest = [e] ++ rest := rfl
    rw [hcons, dealings_append, handedTo_append, List.count_append, List.length_append, ih]
    congr 1
    cases e with
    | handed b work => by_cases hb : b = a <;> simp [dealings, handedTo, handed, hb]
    | taken m =>
      cases m with
      | result b status id => by_cases hb : b = a <;> simp [dealings, handedTo, handed, hb]
      | _ => rfl
    | _ => rfl

lemma count_false_dealings : (h.dealings a).count false = (h.resultsOf a).length := by
  induction h with
  | nil => rfl
  | cons e rest ih =>
    have hcons : e :: rest = [e] ++ rest := rfl
    rw [hcons, dealings_append, resultsOf_append, List.count_append, List.length_append, ih]
    congr 1
    cases e with
    | handed b work => by_cases hb : b = a <;> simp [dealings, resultsOf, results, taken, hb]
    | taken m =>
      cases m with
      | result b status id =>
        by_cases hb : b = a <;> simp [dealings, resultsOf, results, taken, Message.result?, hb]
      | _ => rfl
    | _ => rfl

end dealings

end History

namespace Traffic

variable {o o' : Traffic} {h h' : History} {a : ActorId}

def Handing (o : Traffic) (a : ActorId) : Prop :=
  ∃ work, o.control = .handing a work

/-- The REPL of the table has not ended. -/
def Homed (o : Traffic) : Prop :=
  ∀ a, o.repl = some a → ∃ e ∈ o.evaluators, e.id = a ∧ e.phase ≠ .ended

lemma Ledger.homed (hledger : o.Ledger h) (hallot : o.Allotted h) (hkill : o.Unkilled) :
    o.Homed := by
  intro a ha
  obtain ⟨e, he, heq⟩ := List.mem_map.1 (hallot.home a ha)
  obtain ⟨hid, hworker⟩ := Prod.mk.inj heq
  refine ⟨e, he, hid, fun hended => ?_⟩
  rw [hledger.ended_worker he (hkill e he) hended] at hworker
  cases hworker

/-- An evaluator is not the REPL of the table, or has not ended. -/
def Spared (o : Traffic) (a : ActorId) : Prop :=
  o.repl = some a → ∃ e ∈ o.evaluators, e.id = a ∧ e.phase ≠ .ended

lemma Hosts.active_iff {id : ActorId} (hhost : Hosts o id o') (hspared : o.Spared a) :
    a ∈ o'.active.members ↔ a ∈ o.active.members := by
  cases hhost with
  | live | first => exact Iff.rfl
  | @again name flag dead hrepl hdead =>
    have hne : a ≠ dead := by
      rintro rfl
      obtain ⟨e, he, hid, hphase⟩ := hspared hrepl
      exact hphase (hdead e he hid)
    change a ∈ (o.active.remove dead).members ↔ _
    simp [hne]

lemma Resolves.active_iff {thread : Thread} {id : ActorId} (hres : Resolves o thread id o')
    (hspared : o.Spared a) : a ∈ o'.active.members ↔ a ∈ o.active.members := by
  cases hres with
  | any | other => exact Iff.rfl
  | repl hhost => exact hhost.active_iff hspared

/-- How a move changes whether an evaluator is active, with what passes between it and control. -/
inductive Attends (o : Traffic) (a : ActorId) : List Bool → Traffic → Prop
  | aside {o' : Traffic} : (a ∈ o'.active.members ↔ a ∈ o.active.members) →
      (o'.Handing a ↔ o.Handing a) → Attends o a [] o'
  | enters {o' : Traffic} : a ∈ o'.active.members → o'.Handing a → Attends o a [] o'
  | hands {o' : Traffic} : o'.active = o.active → o.Handing a → ¬ o'.Handing a →
      Attends o a [true] o'
  | concludes {o' : Traffic} : a ∉ o'.active.members → ¬ o'.Handing a → Attends o a [false] o'

lemma handing_congr (hc : o'.control = o.control) : o'.Handing a ↔ o.Handing a := by
  rw [Handing, hc]
  rfl

lemma not_handing {c : ControlPhase} (hc : o.control = c) (hcalm : ∀ work, c ≠ .handing a work) :
    ¬ o.Handing a := by
  rintro ⟨work, heq⟩
  exact hcalm work (hc.symm.trans heq)

lemma Attends.turn {c c' : ControlPhase} (hc : o.control = c) (hc' : o'.control = c')
    (hcalm : ∀ work, c ≠ .handing a work) (hcalm' : ∀ work, c' ≠ .handing a work)
    (hactive : a ∈ o'.active.members ↔ a ∈ o.active.members) : Attends o a [] o' :=
  .aside hactive (iff_of_false (not_handing hc' hcalm') (not_handing hc hcalm))

lemma Move.attends (hsound : o.Sound) (hspared : o.Spared a) (hmove : Move o h' o') :
    Attends o a (h'.dealings a) o' := by
  cases hmove with
  | still | clear | flag | readerMail | tell | take | begin | judge | hint | post | finish | leave
    | die => exact .aside Iff.rfl Iff.rfl
  | announce | compute =>
    rw [History.dealings_map_sent]
    exact .aside Iff.rfl Iff.rfl
  | host b hhost => exact .aside (hhost.active_iff hspared) (handing_congr hhost.control_eq)
  | start hs => exact .turn (hsound.absent hs) rfl (by simp) (by simp) Iff.rfl
  | pass _ _ hm =>
    rw [History.dealings_taken a hm]
    exact .aside Iff.rfl Iff.rfl
  | @accept work thread rest target o₁ hc _ hres =>
    exact .turn hc rfl (by simp) (by simp) (hres.active_iff hspared)
  | aim hc _ hm =>
    rw [History.dealings_taken a hm]
    exact .turn hc rfl (by simp) (by simp) Iff.rfl
  | pick _ hc _ hm =>
    rw [History.dealings_taken a hm]
    exact .turn hc rfl (by simp) (by simp) Iff.rfl
  | @conclude actor status id rest hc hqueue =>
    rw [History.dealings_result]
    by_cases ha : actor = a
    · rw [if_pos ha]
      refine .concludes ?_ (not_handing rfl (by simp))
      change a ∉ (o.active.remove actor).members
      simp [ha]
    · rw [if_neg ha]
      refine .turn hc rfl (by simp) (by simp) ?_
      change a ∈ (o.active.remove actor).members ↔ _
      simp [Ne.symm ha]
  | @enter target work hc =>
    by_cases ha : target = a
    · subst ha
      refine .enters ?_ ⟨work, rfl⟩
      change target ∈ (o.active.add target).members
      simp
    · refine .turn hc rfl (by simp) (by simp [ha]) ?_
      change a ∈ (o.active.add target).members ↔ _
      simp [Ne.symm ha]
  | @hand target work hc =>
    rw [History.dealings_handed]
    by_cases ha : target = a
    · subst ha
      rw [if_pos rfl]
      exact .hands rfl ⟨work, hc⟩ (not_handing rfl (by simp))
    · rw [if_neg ha]
      exact .turn hc rfl (by simp [ha]) (by simp) Iff.rfl
  | raise hc => exact .turn hc rfl (by simp) (by simp) Iff.rfl
  | turnBack hc =>
    rcases hc with hc | hc
    · exact .turn hc rfl (by simp) (by simp) Iff.rfl
    · exact .turn hc rfl (by simp) (by simp) Iff.rfl
  | write bytes next hc hnext =>
    refine .turn hc rfl (by simp) ?_ Iff.rfl
    rcases hnext with rfl | rfl
    · simp
    · simp
  | stop hc =>
    rcases hc with hc | ⟨event, hc⟩
    · exact .turn hc rfl (by simp) (by simp) Iff.rfl
    · exact .turn hc rfl (by simp) (by simp) Iff.rfl

namespace Attends

variable {past dealt : List Bool}

lemma active (hattends : Attends o a dealt o')
    (hpast : a ∈ o.active.members ↔ o.Handing a ∨ past.getLast? = some true) :
    a ∈ o'.active.members ↔ o'.Handing a ∨ (past ++ dealt).getLast? = some true := by
  cases hattends with
  | aside hactive hhanding => rw [hactive, hhanding, List.append_nil, hpast]
  | enters hactive hhanding => exact iff_of_true hactive (.inl hhanding)
  | hands hactive hhanding hnot =>
    rw [hactive]
    exact iff_of_true (hpast.2 (.inl hhanding)) (.inr (by simp))
  | concludes hactive hnot => exact iff_of_false hactive (by simp [hnot])

lemma owed (hattends : Attends o a dealt o') (hle : past.count false ≤ past.count true)
    (hpast : past.getLast? = some true → past.count false < past.count true)
    (hlast : (past ++ dealt).getLast? = some true) :
    (past ++ dealt).count false < (past ++ dealt).count true := by
  cases hattends with
  | aside | enters =>
    rw [List.append_nil] at hlast ⊢
    exact hpast hlast
  | hands =>
    rw [List.count_append, List.count_append]
    exact Nat.lt_succ_of_le hle
  | concludes => simp at hlast

end Attends

/-- An evaluator is active if control is about to hand it a request or last dealt with it by handing
it one; it then owes control a result. -/
structure AttendedTo (o : Traffic) (h : History) (a : ActorId) : Prop where
  active : a ∈ o.active.members ↔ o.Handing a ∨ h.engaged a
  owed : h.engaged a → (h.resultsOf a).length < (h.handedTo a).length

namespace AttendedTo

lemma step (hatt : o.AttendedTo h a) (hbooks : o.Books h) (hledger : o.Ledger h) (hsound : o.Sound)
    (hspared : o.Spared a) (hmove : Move o h' o') : o'.AttendedTo (h ++ h') a := by
  have hattends := hmove.attends hsound hspared
  constructor
  · have hactive := hatt.active
    simp only [History.engaged, decide_eq_true_eq] at hactive ⊢
    rw [History.dealings_append]
    exact hattends.active hactive
  · intro hlast
    have hle := (hbooks.ids_isPrefix hledger a).length_le
    have howed := hatt.owed
    rw [List.length_map, List.length_map] at hle
    simp only [History.engaged, decide_eq_true_eq, ← History.count_true_dealings,
      ← History.count_false_dealings] at hle howed hlast ⊢
    rw [History.dealings_append] at hlast ⊢
    exact hattends.owed hle howed hlast

lemma start (hblank : o.Blank) (a : ActorId) : o.AttendedTo [] a where
  active := by
    simp [hblank.active_eq, Handing, hblank.control_eq, History.engaged, History.dealings]
  owed := by
    intro hengaged
    simp [History.engaged, History.dealings] at hengaged

end AttendedTo

/-- Active are the evaluators that control is about to hand a request, and those with which it last
dealt by handing them one; these owe it a result. -/
structure Attended (o : Traffic) (h : History) : Prop where
  active : ∀ a, a ∈ o.active.members ↔ o.Handing a ∨ h.engaged a
  owed : ∀ a, h.engaged a → (h.resultsOf a).length < (h.handedTo a).length

namespace Attended

lemma of_each (hatt : ∀ a, o.AttendedTo h a) : o.Attended h :=
  ⟨fun a => (hatt a).active, fun a => (hatt a).owed⟩

lemma step (hatt : o.Attended h) (hbooks : o.Books h) (hledger : o.Ledger h) (hsound : o.Sound)
    (hhome : o.Homed) (hmove : Move o h' o') : o'.Attended (h ++ h') :=
  of_each fun a =>
    AttendedTo.step ⟨hatt.active a, hatt.owed a⟩ hbooks hledger hsound (hhome a) hmove

lemma start (hblank : o.Blank) : o.Attended [] :=
  of_each (.start hblank)

theorem run {o₀ : Traffic} (hblank : o₀.Blank) (hrun : Run o₀ h o) (hkill : o.Unkilled) :
    o.Attended h := by
  induction hrun with
  | start => exact start hblank
  | next hrun hmove ih =>
    -- who is alive at the end was so all along, so that the REPL was never replaced
    have hkill' := hmove.unkilled hkill
    have hledger := Ledger.run hblank hrun
    have hhome := hledger.homed (.run hblank hrun) hkill'
    exact (ih hkill').step (.run hblank hrun) hledger (hblank.toSound.run hrun) hhome hmove

end Attended

end Traffic

namespace World

open Traffic

/-- While no evaluator is killed, one that owes control no result is not active, and one that does
is active exactly if control has taken no result of it since it last handed it a request. -/
theorem active_iff_engaged {image : Image} {id : Nat} {host : Host} {wantsOutput : Bool}
    {outputPort : Option UInt16} {connection : Connection} {turns : List Turn} {h : History}
    {last : World} (hfresh : image.mailboxes.Fresh)
    (hrun : (opened image id host wantsOutput outputPort connection).play? turns = some (h, last))
    (hkill : ∀ e ∈ last.session.evaluators, e.killed = false) (a : ActorId) :
    (h.resultsOf a).map Prod.snd <+: (h.handedTo a).map Work.id ∧
    (last.traffic.Handing a → a ∈ last.session.active.members) ∧
    (¬ last.traffic.Handing a →
      (h.outstanding a = [] → a ∉ last.session.active.members) ∧
      (h.outstanding a ≠ [] → (a ∈ last.session.active.members ↔ h.engaged a))) := by
  obtain ⟨hblank, hrun⟩ := opened_run hfresh hrun
  have hids := (Books.run hblank hrun).ids_isPrefix (.run hblank hrun) a
  have hatt : last.traffic.Attended h := .run hblank hrun hkill
  have hactive : a ∈ last.session.active.members ↔ last.traffic.Handing a ∨ h.engaged a :=
    hatt.active a
  refine ⟨hids, fun hhanding => hactive.2 (.inl hhanding), fun hnot => ?_⟩
  rw [hactive, or_iff_right hnot]
  refine ⟨fun hnone hengaged => ?_, fun _ => Iff.rfl⟩
  have howed := hatt.owed a hengaged
  rw [History.outstanding, List.drop_eq_nil_iff] at hnone
  exact absurd howed (Nat.not_lt_of_le hnone)

/-- The REPL gets two requests, and control takes the result of the first. -/
def twoForRepl : List Turn :=
  sampleStart ++ sampleMessage "(:emacs-rex (swank/x) nil :repl-thread 1)" ++
    sampleMessage "(:emacs-rex (swank/x) nil :repl-thread 2)" ++
    List.replicate 6 (.step .control) ++ List.replicate 2 (.step (.evaluator 3)) ++
    List.replicate 2 (.step (.job 0)) ++ List.replicate 4 (.step (.evaluator 3)) ++
    List.replicate 4 (.step .control)

lemma twoForRepl_shows : ∃ h last, sample.play? twoForRepl = some (h, last) ∧
    (∀ e ∈ last.session.evaluators, e.killed = false) ∧ last.session.control = .receiving ∧
    h.outstanding 3 = [⟨.list [.symbol "swank/x"], "user", 2⟩] ∧ h.engaged 3 = false ∧
    last.session.active.members = [] := by
  have hall : (sample.play? twoForRepl).any (fun p =>
      (∀ e ∈ p.2.session.evaluators, e.killed = false) ∧ p.2.session.control = .receiving ∧
      p.1.outstanding 3 = [⟨.list [.symbol "swank/x"], "user", 2⟩] ∧ p.1.engaged 3 = false ∧
      p.2.session.active.members = []) = true := by
    decide +kernel
  obtain ⟨⟨h, last⟩, hrun, hshows⟩ := (Option.any_eq_true _ _).1 hall
  exact ⟨h, last, hrun, of_decide_eq_true hshows⟩

theorem active_iff_engaged_two : ∃ h last, sample.play? twoForRepl = some (h, last) ∧
    (∀ e ∈ last.session.evaluators, e.killed = false) ∧
    (h.resultsOf 3).map Prod.snd <+: (h.handedTo 3).map Work.id ∧
    (3 ∈ last.session.active.members ↔ h.engaged 3) := by
  obtain ⟨h, last, hrun, hkill, hcontrol, howed, -⟩ := twoForRepl_shows
  have hfresh : Mailboxes.Fresh {} := fun _ _ => rfl
  obtain ⟨hids, -, hactive⟩ := active_iff_engaged hfresh hrun hkill 3
  have hnot : ¬ last.traffic.Handing 3 := not_handing hcontrol (by simp)
  exact ⟨h, last, hrun, hkill, hids, (hactive hnot).2 (by simp [howed])⟩

/-- An evaluator with a request still to be answered need not be active. -/
theorem outstanding_inactive : ∃ h last, sample.play? twoForRepl = some (h, last) ∧
    (∀ e ∈ last.session.evaluators, e.killed = false) ∧ last.session.control = .receiving ∧
    h.outstanding 3 ≠ [] ∧ 3 ∉ last.session.active.members := by
  obtain ⟨h, last, hrun, hkill, hcontrol, howed, -, hactive⟩ := twoForRepl_shows
  exact ⟨h, last, hrun, hkill, hcontrol, by simp [howed], by simp [hactive]⟩

end World

end EvalServer
