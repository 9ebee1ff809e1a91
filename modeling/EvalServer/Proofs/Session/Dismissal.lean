import EvalServer.Proofs.Session.Designators
import EvalServer.Proofs.Session.PromptHistory

/-!
# Messages that change nothing

A request may be for an evaluator that is not there, an interrupt may mean nobody, an answer may
come when its prompt is no longer registered, and a message may be none that a client sends. Control
takes such a message out of its mailbox and does nothing else. Every other message of a client makes
control do something.
-/

namespace EvalServer

namespace Session

/-- A designator means an evaluator that lives. -/
def Meets (s : Session) (thread : Thread) : Prop :=
  ∃ e ∈ s.evaluators, s.Lives e.id ∧ thread.Means e

instance (s : Session) (thread : Thread) : Decidable (s.Meets thread) :=
  inferInstanceAs (Decidable (∃ e ∈ s.evaluators, _))

/-- A client's message is for nobody. A request to any thread or to the REPL is for somebody, who is
started if need be. -/
def Dismisses (s : Session) : ClientEvent → Prop
  | .evaluate _ _ thread _ => thread ≠ .any ∧ thread ≠ .repl ∧ ¬ s.Meets thread
  | .interrupt .any => (∀ a ∈ s.active.members, ¬ s.Lives a) ∧ ¬ s.Meets .repl
  | .interrupt thread => ¬ s.Meets thread
  | .returnString _ tag _ => (s.prompts.state tag).isPending = false
  | .returnValue _ tag _ => (s.prompts.state tag).isPending = false
  | .unknown _ => True

end Session

namespace World

open Traffic

variable {w : World} {thread : Thread} {event : ClientEvent} {rest : List Message}

/-- Only control's mailbox is another, and no number has been given. -/
lemma leave_mailboxes (w : World) (rest : List Message) :
    (w.leave rest).image.mailboxes.lastActor = w.image.mailboxes.lastActor ∧
      ∀ a, a ≠ w.session.controlId →
        (w.leave rest).image.mailboxes.queue a = w.image.mailboxes.queue a := by
  constructor
  · exact Mailboxes.lastActor_setQueue _ _ rest
  · intro a ha
    rw [leave, Mailboxes.queue_setQueue, if_neg ha]

/-! ## What each kind of message does -/

section handling

lemma resolve_eq_none_iff : (w.resolve thread).1 = none ↔
    thread ≠ .any ∧ thread ≠ .repl ∧ w.session.findActor thread = none := by
  cases thread <;> simp [resolve]

lemma resolve_of_none (hnone : (w.resolve thread).1 = none) : (w.resolve thread).2 = w := by
  obtain ⟨hany, hrepl, -⟩ := resolve_eq_none_iff.1 hnone
  cases thread with
  | any => exact absurd rfl hany
  | repl => exact absurd rfl hrepl
  | id | name => rfl

lemma handle_evaluate_iff (hcontrol : w.session.control = .receiving) {form : Sexp}
    {package : String} {id : Int64} :
    w.handleClient (.evaluate form package thread id) = w ↔ (w.resolve thread).1 = none := by
  have hsame : (w.resolve thread).1 = none → (w.resolve thread).2 = w := resolve_of_none
  rw [handleClient]
  generalize w.resolve thread = resolved at hsame ⊢
  obtain ⟨target, w'⟩ := resolved
  cases target with
  | none => simpa using hsame
  | some target =>
    refine iff_of_false (fun heq => ?_) (by simp)
    have hphase : ControlPhase.entering target ⟨form, package, id⟩ = w.session.control :=
      congrArg (fun w => w.session.control) heq
    rw [hcontrol] at hphase
    cases hphase

lemma handle_interrupt_iff (hcontrol : w.session.control = .receiving) :
    w.handleClient (.interrupt thread) = w ↔ w.session.interruptTarget thread = none := by
  rw [handleClient]
  cases w.session.interruptTarget thread with
  | none => simp
  | some target =>
    refine iff_of_false (fun heq => ?_) (by simp)
    have hphase : ControlPhase.raising target = w.session.control :=
      congrArg (fun w => w.session.control) heq
    rw [hcontrol] at hphase
    cases hphase

lemma answerPrompt_iff {tag : Nat} {answer : ClientAnswer} :
    w.answerPrompt tag answer = w ↔ (w.session.prompts.state tag).isPending = false := by
  constructor
  · intro heq
    have hstate :
        (w.session.prompts.resolve tag answer).2.state tag = w.session.prompts.state tag :=
      congrArg (fun w => w.session.prompts.state tag) heq
    rw [Prompts.state_resolve, if_pos rfl] at hstate
    rw [← hstate]
    cases w.session.prompts.state tag with
    | pending heard => cases heard <;> rfl
    | answered | closed | forgotten => rfl
  · intro hstate
    rw [answerPrompt, change, Prompts.resolve_of_not_pending hstate]

end handling

section dismissal

variable (hsound : w.traffic.Sound) (hseated : w.session.Seated)

include hsound hseated in
lemma findActor_eq_none_iff : w.session.findActor thread = none ↔ ¬ w.session.Meets thread := by
  rw [Option.eq_none_iff_forall_ne_some, Session.Meets, not_exists]
  constructor
  · rintro hnone e ⟨he, hlives, hmeans⟩
    exact hnone e.id ((findActor_eq_some_iff hsound hseated).2 ⟨e, he, rfl, hlives, hmeans⟩)
  · intro hno a ha
    obtain ⟨e, he, rfl, hlives, hmeans⟩ := (findActor_eq_some_iff hsound hseated).1 ha
    exact hno e ⟨he, hlives, hmeans⟩

include hsound hseated in
/-- The search by role finds who stands in the REPL's place, if it lives. -/
lemma replId_eq_findActor
    (hhome : ∀ a, w.session.table.repl = some a → (a, false) ∈ w.traffic.roles) :
    w.session.replId = w.session.findActor .repl := by
  apply Option.ext
  intro a
  rw [findActor_eq_some_iff hsound hseated, replId_eq_some_iff]
  constructor
  · rintro ⟨hrepl, halive⟩
    obtain ⟨e, he, heq⟩ := List.mem_map.1 (hhome a hrepl)
    obtain ⟨hid, hworker⟩ := Prod.mk.inj heq
    exact ⟨e, he, hid, ⟨List.mem_append_left _ (Option.mem_toList.2 hrepl), halive⟩, hworker⟩
  · rintro ⟨e, he, rfl, hlives, hworker⟩
    exact ⟨repl_of_table hsound hseated he hlives.1 hworker, hlives.2⟩

include hsound hseated in
lemma handleClient_eq_iff
    (hhome : ∀ a, w.session.table.repl = some a → (a, false) ∈ w.traffic.roles)
    (hcontrol : w.session.control = .receiving) :
    (w.leave rest).handleClient event = w.leave rest ↔ w.session.Dismisses event := by
  have hcontrol' : (w.leave rest).session.control = .receiving := hcontrol
  have hrepl : w.session.replId = none ↔ ¬ w.session.Meets .repl := by
    rw [replId_eq_findActor hsound hseated hhome, findActor_eq_none_iff hsound hseated]
  cases event with
  | evaluate form package thread id =>
    rw [handle_evaluate_iff hcontrol', resolve_eq_none_iff, session_leave,
      findActor_eq_none_iff hsound hseated]
    rfl
  | interrupt thread =>
    rw [handle_interrupt_iff hcontrol', session_leave]
    cases thread with
    | any =>
      rw [Session.interruptTarget, Option.or_eq_none_iff, Session.firstRunning_eq_none_iff, hrepl]
      rfl
    | repl => exact hrepl
    | id | name => exact findActor_eq_none_iff hsound hseated
  | returnString thread tag text => exact answerPrompt_iff
  | returnValue thread tag value => exact answerPrompt_iff
  | unknown message => exact iff_of_true rfl trivial

/-- What can be done after a message is dismissed is what could be done without it. -/
lemma play_of_dismissed (hcontrol : w.session.control = .receiving)
    (hqueue : w.controlQueue = .client event :: rest)
    (hstep : w.controlStep? = some (w.leave rest)) (turns : List Turn) :
    w.play? (.step .control :: turns) =
      ((w.leave rest).play? turns).map fun p => (.taken (.client event) :: p.1, p.2) := by
  have hturn : w.turn? (.step .control) = some (w.leave rest) := hstep
  have hevents : w.controlEvents (w.leave rest) = [] := by
    rw [controlEvents, session_leave, hcontrol]
  have htook : mailEvents none w.controlQueue rest = [.taken (.client event)] := by
    simp [mailEvents, hqueue]
  have hshows : w.observe (.step .control) (w.leave rest) = [.taken (.client event)] := by
    rw [observe, controlQueue_leave]
    exact congrArg₂ (· ++ ·) htook hevents
  rw [play?, hturn]
  simp only [Option.bind_eq_bind, Option.bind_some, hshows, Option.pure_def,
    List.singleton_append]
  cases (w.leave rest).play? turns <;> rfl

end dismissal

/-- Whatever turns have been taken, kills and closes among them: if control waits and a client's
message is the first in its mailbox, then all that control does is take it out exactly if the
message is for nobody. It is for nobody if it is none of the protocol's; if it is a request for a
number or a name that no live evaluator has, or an interrupt that means no live evaluator; or if it
answers a prompt that is not registered. The session stays as it is then, no other mailbox is
touched and no number given, and every further run is one that the session could have taken had the
message not been there. An interrupt that finds its evaluator gone from the table ends there. -/
theorem dismissed_iff {image : Image} {id : Nat} {host : Host} {wantsOutput : Bool}
    {outputPort : Option UInt16} {connection : Connection} {turns : List Turn} {h : History}
    {last : World} (hfresh : image.mailboxes.Fresh)
    (hrun : (opened image id host wantsOutput outputPort connection).play? turns = some (h, last))
    (hcontrol : last.session.control = .receiving) :
    (∀ event rest, last.controlQueue = .client event :: rest →
      (last.session.Dismisses event ↔ last.controlStep? = some (last.leave rest)) ∧
      (last.session.Dismisses event → ∀ more, last.play? (.step .control :: more) =
        ((last.leave rest).play? more).map fun p => (.taken (.client event) :: p.1, p.2))) ∧
    (∀ rest, (last.leave rest).session = last.session ∧ (last.leave rest).controlQueue = rest ∧
      (last.leave rest).image.mailboxes.lastActor = last.image.mailboxes.lastActor ∧
      ∀ a, a ≠ last.session.controlId →
        (last.leave rest).image.mailboxes.queue a = last.image.mailboxes.queue a) ∧
    (∀ (w : World) a, w.session.control = .raising a → a ∉ w.session.table.evaluators →
      w.controlStep? = some (w.goControl .receiving)) := by
  have hstaffed := opened_staffed hfresh hrun
  obtain ⟨hblank, hmoves⟩ := opened_run hfresh hrun
  have hhome := (Allotted.run hblank hmoves).home
  have hdismissed : ∀ event rest, last.controlQueue = .client event :: rest →
      (last.session.Dismisses event ↔ last.controlStep? = some (last.leave rest)) := by
    intro event rest hqueue
    rw [control_receives hcontrol hqueue, Option.some.injEq]
    exact (handleClient_eq_iff hstaffed.sound hstaffed.seated hhome hcontrol).symm
  refine ⟨fun event rest hqueue => ⟨hdismissed event rest hqueue, fun hnobody => ?_⟩,
    fun rest => ⟨rfl, controlQueue_leave last rest, leave_mailboxes last rest⟩,
    fun w a hraising hgone => (control_raising hraising).2 hgone⟩
  exact play_of_dismissed hcontrol hqueue ((hdismissed event rest hqueue).1 hnobody)

/-- A request comes for the control loop, by its number. -/
def misdirected : List Turn :=
  sampleStart ++ sampleMessage "(:emacs-rex (swank/x) nil 2 1)"

theorem dismissed_iff_misdirected : ∃ h last form package,
    sample.play? misdirected = some (h, last) ∧ last.session.controlId = 2 ∧
    last.controlQueue = [.client (.evaluate form package (.id 2) 1)] ∧
    last.controlStep? = some (last.leave []) := by
  have hall : (sample.play? misdirected).any (fun p =>
      p.2.session.control = .receiving ∧ p.2.session.controlId = 2 ∧
      p.2.controlQueue =
        [.client (.evaluate (.list [.symbol "swank/x"]) "user" (.id 2) 1)] ∧
      ¬ p.2.session.Meets (.id 2)) = true := by
    decide +kernel
  obtain ⟨⟨h, last⟩, hrun, hshows⟩ := (Option.any_eq_true _ _).1 hall
  obtain ⟨hcontrol, hid, hqueue, hnobody⟩ := of_decide_eq_true hshows
  have hfresh : Mailboxes.Fresh {} := fun _ _ => rfl
  obtain ⟨hdismissed, -⟩ := dismissed_iff hfresh hrun hcontrol
  refine ⟨h, last, _, _, hrun, hid, hqueue, ?_⟩
  exact (hdismissed _ _ hqueue).1.1 ⟨by decide, by decide, hnobody⟩

end World

end EvalServer
