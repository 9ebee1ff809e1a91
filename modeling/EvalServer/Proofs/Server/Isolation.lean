import EvalServer.Proofs.Server.Sessions

/-!
# Isolation

Sessions are told apart by a register of what has happened: which numbers the count has given in
the steps of which session, and who has put each message into its mailbox. A session knows no
numbers but those that it was given, and its mailboxes hold nothing but what its own actors, or the
task that serves it, have put into them.
-/

namespace EvalServer

/-- A message in a mailbox, with the session and the poster that have put it there. -/
structure Letter where
  message : Message
  sender : Option (Nat × Poster)

namespace Server

variable {s s' : Server} {action : Action} {i j : Nat} {w w' : World} {a : ActorId}

/-- The session that an action makes or that takes a step. -/
def acting? (s : Server) : Action → Option Nat
  | .session i _ => some i
  | .deliver v _ | .endInput v => (s.visits[v]?).bind Visit.session?
  | .visit v =>
    ((s.visits[v]?).filter (·.phase = .creating)).map fun _ => s.sessions.length
  | _ => none

/-- The session and the poster that put what a step puts into mailboxes. -/
def poster? (s : Server) : Action → Option (Nat × Poster)
  | .session i action => (s.world? i).bind fun w => (w.poster? action).map (i, ·)
  | _ => none

/-- The numbers that have been given since. -/
def givenSince (s s' : Server) : List ActorId :=
  List.range' (s.image.mailboxes.lastActor + 1)
    (s'.image.mailboxes.lastActor - s.image.mailboxes.lastActor)

/-- What has happened to the numbers and to the mailboxes. -/
structure Register where
  given : Nat → List ActorId := fun _ => []
  mail : ActorId → List Letter := fun _ => []

/-- Notes the numbers that a step gives, and what it takes from mailboxes and puts there. -/
def Register.note (s : Server) (action : Action) (s' : Server) (r : Register) : Register where
  given i := if s.acting? action = some i then r.given i ++ s.givenSince s' else r.given i
  mail a :=
    let before := s.image.mailboxes.queue a
    let after := s'.image.mailboxes.queue a
    (r.mail a).drop (before.length - after.length) ++
      (after.drop before.length).map fun message => ⟨message, s.poster? action⟩

def register (s : Server) (actions : List Action) : Register :=
  s.recorded Register.note {} actions

/-- The numbers of the actors of a session, if there is one. -/
def numbersOf (s : Server) (i : Nat) : List ActorId :=
  ((s.sessions[i]?).map Session.numbers).getD []

section numbers

lemma numbersOf_eq (hw : s.world? i = some w) : s.numbersOf i = w.session.numbers := by
  rw [numbersOf, (world?_eq_some.1 hw).1]
  rfl

lemma exists_of_mem_numbersOf (ha : a ∈ s.numbersOf i) :
    ∃ w, s.world? i = some w ∧ a ∈ w.session.numbers := by
  cases hget : s.sessions[i]? with
  | none =>
    rw [numbersOf, hget] at ha
    cases ha
  | some session =>
    rw [numbersOf, hget] at ha
    exact ⟨⟨s.image, session⟩, world?_eq_some.2 ⟨hget, rfl⟩, ha⟩

lemma givenSince_of_eq (h : s'.image.mailboxes.lastActor = s.image.mailboxes.lastActor) :
    s.givenSince s' = [] := by
  rw [givenSince, h, Nat.sub_self]
  rfl

lemma acting?_of_inner {b : EvalServer.Action} (h : s.Inner action i b) :
    s.acting? action = some i := by
  cases h with
  | session => rfl
  | deliver _ hvisit hi | endInput hvisit hi => simp only [acting?, hvisit, Option.bind_some, hi]

lemma numbersOf_set (session : Session) (hsessions : s'.sessions = s.sessions.set j session)
    (hw : s.world? j = some w) :
    s'.numbersOf i = if i = j then session.numbers else s.numbersOf i := by
  have hlt : j < s.sessions.length := (List.getElem?_eq_some_iff.1 (world?_eq_some.1 hw).1).1
  rw [numbersOf, hsessions, List.getElem?_set]
  by_cases hij : i = j
  · rw [if_pos hij.symm, if_pos hlt, if_pos hij]
    rfl
  · rw [if_neg (Ne.symm hij), if_neg hij]
    rfl

/-- The count gives numbers to the session that takes the step, and to no other. -/
theorem numbersOf_step (horderly : s.Orderly) (h : s.step? action = some s') (i : Nat) :
    s'.numbersOf i =
      if s.acting? action = some i then s.numbersOf i ++ s.givenSince s' else s.numbersOf i := by
  have same : s'.numbersOf i = s.numbersOf i →
      s'.image.mailboxes.lastActor = s.image.mailboxes.lastActor →
      s'.numbersOf i =
        if s.acting? action = some i then s.numbersOf i ++ s.givenSince s' else s.numbersOf i := by
    intro hnumbers hlast
    rw [givenSince_of_eq hlast, List.append_nil, ite_self, hnumbers]
  cases (step_stirs h).1 with
  | still _ hsessions hmail =>
    exact same (by rw [numbersOf, numbersOf, hsessions]) (by rw [hmail])
  | @start _ j _ w _ _ _ hw hsessions himage =>
    refine same ?_ (by rw [himage])
    rw [numbersOf_set _ hsessions hw]
    split
    · next hij => rw [hij, numbersOf_eq hw]; rfl
    · rfl
  | @close _ j _ _ w w' _ hw hclose hsessions himage =>
    have hlast : w'.image.mailboxes.lastActor = w.image.mailboxes.lastActor := by
      rw [World.closeStep_image hclose]
    refine same ?_ (by rw [himage, hlast, (world?_eq_some.1 hw).2])
    rw [numbersOf_set _ hsessions hw]
    split
    · next hij =>
      obtain ⟨-, hgrows⟩ := (horderly.session j w hw).close hclose
      rw [hij, numbersOf_eq hw]
      exact hgrows.elim And.left fun hnew =>
        absurd (hnew.2.symm.trans hlast) (Nat.succ_ne_self _)
    · rfl
  | @act _ j b w w' hinner hw hstep =>
    obtain ⟨-, hgrows, -⟩ := (horderly.session j w hw).step hstep
    have himage : s.image = w.image := (world?_eq_some.1 hw).2
    rw [acting?_of_inner hinner, numbersOf_set (j := j) w'.session rfl hw]
    by_cases hij : i = j
    · subst hij
      rw [if_pos rfl, if_pos rfl, numbersOf_eq hw, givenSince, himage]
      change _ = _ ++ List.range' _ (w'.image.mailboxes.lastActor - _)
      rcases hgrows with ⟨hsame, hlast⟩ | ⟨hgrown, hlast⟩
      · rw [hsame, hlast, Nat.sub_self, List.range'_zero, List.append_nil]
      · rw [hgrown, hlast, Nat.add_sub_cancel_left, List.range'_one]
    · rw [if_neg hij, if_neg (by simpa using Ne.symm hij)]
  | @make v visit _ hvisit hphase hsessions himage =>
    have hacting : s.acting? (.visit v) = some s.sessions.length := by
      simp [acting?, hvisit, hphase]
    have hsince : s.givenSince s' =
        [s.image.mailboxes.lastActor + 1, s.image.mailboxes.lastActor + 1 + 1] := by
      rw [givenSince, himage]
      change List.range' _ (s.image.mailboxes.lastActor + 2 - _) = _
      rw [Nat.add_sub_cancel_left]
      rfl
    rw [hacting, hsince, numbersOf, numbersOf, hsessions, createSession]
    rcases Nat.lt_trichotomy i s.sessions.length with hlt | rfl | hgt
    · rw [List.getElem?_append_left hlt, if_neg (by simpa using Ne.symm (Nat.ne_of_lt hlt))]
    · rw [List.getElem?_concat_length, List.getElem?_eq_none (Nat.le_refl _), if_pos rfl]
      rfl
    · rw [List.getElem?_eq_none (Nat.le_of_lt hgt), if_neg (by simpa using Nat.ne_of_lt hgt),
        List.getElem?_eq_none (by simpa using Nat.succ_le_of_lt hgt)]

end numbers

section mail

variable {r : Register}

/-- A mailbox stays as it is, or it is one of the session that takes the step. -/
lemma queue_step (horderly : s.Orderly) (h : s.step? action = some s') (a : ActorId) :
    s'.image.mailboxes.queue a = s.image.mailboxes.queue a ∨
    ∃ j b w w', s.Inner action j b ∧ s.world? j = some w ∧ w.step? b = some w' ∧
      a ∈ w.session.numbers ∧
      ((∃ message, s.image.mailboxes.queue a = message :: s'.image.mailboxes.queue a) ∨
        (w.poster? b).isSome ∧
          ∃ message, s'.image.mailboxes.queue a = s.image.mailboxes.queue a ++ [message]) := by
  cases (step_stirs h).1 with
  | still _ _ hmail => exact .inl (by rw [hmail])
  | start _ _ _ _ himage => exact .inl (by rw [himage])
  | close hw hclose _ himage =>
    exact .inl (by rw [himage, World.closeStep_image hclose, (world?_eq_some.1 hw).2])
  | make _ _ _ himage =>
    left
    rw [himage]
    rfl
  | @act _ j b w w' hinner hw hstep =>
    rw [(world?_eq_some.1 hw).2]
    refine ((horderly.session j w hw).step hstep).2.2 a |>.imp_right fun ⟨hown, hchange⟩ => ?_
    exact ⟨j, b, w, w', hinner, hw, hstep, hown, hchange⟩

/-- A mailbox of a session: what waits in it, the session itself has put there. -/
structure Register.Keeps (r : Register) (i : Nat) (queue : List Message) (mail : List Letter) :
    Prop where
  messages : mail.map Letter.message = queue
  senders : ∀ letter ∈ mail, ∃ poster, letter.sender = some (i, poster) ∧
    ∀ b, poster = .actor b → b ∈ r.given i

lemma Register.Keeps.mono {r' : Register} {queue : List Message} {mail : List Letter}
    (h : r.Keeps i queue mail) (hgiven : r.given i ⊆ r'.given i) : r'.Keeps i queue mail where
  messages := h.messages
  senders letter hletter := by
    obtain ⟨poster, hsender, hown⟩ := h.senders letter hletter
    exact ⟨poster, hsender, fun b hb => hgiven (hown b hb)⟩

/-- The register is right about the numbers and the mailboxes of all sessions. -/
structure Register.Right (r : Register) (s : Server) : Prop where
  orderly : s.Orderly
  given : ∀ i, s.numbersOf i = r.given i
  unborn : ∀ a, s.image.mailboxes.lastActor < a → r.mail a = []
  mail : ∀ i, ∀ a ∈ r.given i, r.Keeps i (s.image.mailboxes.queue a) (r.mail a)

lemma Register.note_same (hsame : s'.image.mailboxes.queue a = s.image.mailboxes.queue a) :
    (r.note s action s').mail a = r.mail a := by
  simp [note, hsame]

lemma Register.note_taken {message : Message}
    (htaken : s.image.mailboxes.queue a = message :: s'.image.mailboxes.queue a) :
    (r.note s action s').mail a = (r.mail a).drop 1 := by
  simp [note, htaken]

lemma Register.note_put {message : Message}
    (hput : s'.image.mailboxes.queue a = s.image.mailboxes.queue a ++ [message]) :
    (r.note s action s').mail a = r.mail a ++ [⟨message, s.poster? action⟩] := by
  simp [note, hput]

lemma Register.given_note (i : Nat) : r.given i ⊆ (r.note s action s').given i := by
  simp only [note]
  split
  · exact List.subset_append_left _ _
  · exact List.Subset.refl _

lemma poster?_of_inner {b : EvalServer.Action} {poster : Poster} (hinner : s.Inner action i b)
    (hw : s.world? i = some w) (hposter : w.poster? b = some poster) :
    s.poster? action = some (i, poster) := by
  cases hinner with
  | session => simp [poster?, hw, hposter]
  | deliver | endInput => cases hposter

lemma mem_numbersOf_unique (horderly : s.Orderly) (hi : a ∈ s.numbersOf i)
    (hw : s.world? j = some w) (hj : a ∈ w.session.numbers) : i = j := by
  obtain ⟨w₀, hw₀, hi⟩ := exists_of_mem_numbersOf hi
  by_contra hne
  exact horderly.apart i j w₀ w hne hw₀ hw a hi hj

/-- A letter goes when its message is taken, and one comes for a message that is put. -/
lemma Register.Right.keeps_step (hright : r.Right s) (h : s.step? action = some s')
    (ha : a ∈ r.given i) :
    r.Keeps i (s'.image.mailboxes.queue a) ((r.note s action s').mail a) := by
  have hkeeps := hright.mail i a ha
  rcases queue_step hright.orderly h a with
    hsame | ⟨j, b, w, w', hinner, hw, hstep, hown, hchange⟩
  · rw [note_same hsame, hsame]
    exact hkeeps
  · have hij : i = j :=
      mem_numbersOf_unique hright.orderly ((hright.given i).symm ▸ ha) hw hown
    subst hij
    rcases hchange with ⟨message, htaken⟩ | ⟨hposter, message, hput⟩
    · rw [note_taken htaken]
      refine ⟨?_, fun letter hletter => hkeeps.senders letter (List.mem_of_mem_drop hletter)⟩
      rw [List.map_drop, hkeeps.messages, htaken]
      rfl
    · obtain ⟨poster, hposter⟩ := Option.isSome_iff_exists.1 hposter
      rw [note_put hput, poster?_of_inner hinner hw hposter]
      refine ⟨?_, fun letter hletter => ?_⟩
      · rw [List.map_append, hkeeps.messages, hput]
        rfl
      · rcases List.mem_append.1 hletter with hold | hnew
        · exact hkeeps.senders letter hold
        · rw [List.mem_singleton.1 hnew]
          refine ⟨poster, rfl, ?_⟩
          rintro b rfl
          rw [← hright.given, numbersOf_eq hw]
          exact World.poster_own (hright.orderly.session i w hw).rooted hstep hposter

/-- Nothing waits for a number that has not been given. -/
lemma queue_unborn (horderly : s.Orderly) (h : s.step? action = some s')
    (ha : s.image.mailboxes.lastActor < a) : s'.image.mailboxes.queue a = [] := by
  rcases queue_step horderly h a with hsame | ⟨j, _, w, _, -, hw, -, hown, -⟩
  · rw [hsame, horderly.fresh a ha]
  · exact absurd (horderly.numbers_le hw hown) (Nat.not_le_of_lt ha)

lemma Register.Right.step (hright : r.Right s) (h : s.step? action = some s') :
    (r.note s action s').Right s' := by
  have horderly := hright.orderly
  have hnew : ∀ a, s.image.mailboxes.lastActor < a →
      s'.image.mailboxes.queue a = [] ∧ (r.note s action s').mail a = [] := by
    intro a ha
    have hqueue := queue_unborn horderly h ha
    exact ⟨hqueue, by rw [note_same (hqueue.trans (horderly.fresh a ha).symm), hright.unborn a ha]⟩
  constructor
  case orderly => exact horderly.step h
  case given =>
    intro i
    rw [numbersOf_step horderly h, note, hright.given]
  case unborn =>
    intro a ha
    exact (hnew a (Nat.lt_of_le_of_lt ((step_stirs h).1.shared horderly).1 ha)).2
  case mail =>
    intro i a ha
    by_cases hold : a ∈ r.given i
    · exact (hright.keeps_step h hold).mono (given_note i)
    · have hlast : s.image.mailboxes.lastActor < a := by
        simp only [note] at ha
        split at ha
        · have hsince := (List.mem_append.1 ha).resolve_left hold
          exact (List.mem_range'_1.1 hsince).1
        · exact absurd ha hold
      obtain ⟨hqueue, hmail⟩ := hnew a hlast
      rw [hqueue, hmail]
      exact ⟨rfl, fun letter hletter => by cases hletter⟩

lemma New.right (h : s.New) : Register.Right {} s where
  orderly := h.orderly
  given i := by
    rw [numbersOf, h.sessions]
    rfl
  unborn _ _ := rfl
  mail _ _ ha := by cases ha

end mail

/-- However many sessions a server has and however their steps interleave, whatever their clients
send: the actors of a session, those on its table, in its active set and behind its prompts are
numbers that the count has given in its own steps; no two sessions are given the same number; and
each message in a mailbox of a session has been put there by the task that serves it or by an actor
with a number of its own. So a step of one session leaves the others and their mailboxes alone. -/
theorem sessions_isolated {s₀ : Server} {actions : List Action} (hnew : s₀.New)
    (hrun : s₀.run? actions = some s) :
    (∀ i w, s.world? i = some w → w.session.numbers = (s₀.register actions).given i ∧
      ∀ a ∈ w.session.named, a ∈ (s₀.register actions).given i) ∧
    (∀ i j, i ≠ j →
      ((s₀.register actions).given i).Disjoint ((s₀.register actions).given j)) ∧
    (∀ i, ∀ a ∈ (s₀.register actions).given i,
      ((s₀.register actions).mail a).map Letter.message = s.image.mailboxes.queue a ∧
      ∀ letter ∈ (s₀.register actions).mail a, ∃ poster, letter.sender = some (i, poster) ∧
        ∀ b, poster = .actor b → b ∈ (s₀.register actions).given i) ∧
    ∀ action s' j b, s.step? action = some s' → s.Inner action j b → ∀ i ≠ j,
      s'.sessions[i]? = s.sessions[i]? ∧ ∀ a ∈ (s₀.register actions).given i,
        s'.image.mailboxes.queue a = s.image.mailboxes.queue a := by
  have hright : (s₀.register actions).Right s :=
    recorded_induction (P := fun s (r : Register) => r.Right s) hnew.right
      (fun _ _ _ _ h hstep => h.step hstep) hrun
  have horderly := hright.orderly
  refine ⟨fun i w hw => ?_, fun i j hne a hi hj => ?_, fun i a ha => ?_, ?_⟩
  · have hgiven := hright.given i
    rw [numbersOf_eq hw] at hgiven
    refine ⟨hgiven, fun a ha => hgiven ▸ ?_⟩
    exact List.mem_cons_of_mem _ (List.mem_cons_of_mem _ ((horderly.session i w hw).rooted a ha))
  · rw [← hright.given] at hi hj
    obtain ⟨w, hw, hj⟩ := exists_of_mem_numbersOf hj
    exact hne (mem_numbersOf_unique horderly hi hw hj)
  · obtain ⟨hmessages, hsenders⟩ := hright.mail i a ha
    exact ⟨hmessages, hsenders⟩
  · intro action s' j b hstep hinner i hne
    constructor
    · cases (step_stirs hstep).1 with
      | act hinner' =>
        rw [← (hinner.unique hinner').1]
        exact List.getElem?_set_ne (Ne.symm hne)
      | still hnone => exact absurd hinner (hnone j b)
      | start | close | make => cases hinner
    · intro a ha
      refine (queue_step horderly hstep a).resolve_right ?_
      rintro ⟨k, _, w, _, hinner', hw, -, hown, -⟩
      have hik := mem_numbersOf_unique horderly ((hright.given i).symm ▸ ha) hw hown
      exact hne (hik.trans (hinner'.unique hinner).1)

/-- Of two clients, the first asks for an evaluation by an actor of the other's session, tries to
interrupt it, and then asks an actor of its own. -/
def sampleIntrusion : List Action :=
  sampleListening ++ sampleVisit 0 ++ sampleVisit 1 ++
    [sampleMessage 0 "(:emacs-rex 1 \"user\" 6 1)", sampleMessage 0 "(:emacs-interrupt 6)",
      sampleMessage 0 "(:emacs-rex 1 \"user\" 3 2)"] ++
    List.replicate 3 (.session 0 .reader) ++ List.replicate 5 (.session 0 .control)

theorem sessions_isolated_intrusion : ∃ s, sample.run? sampleIntrusion = some s ∧
    s.sessions.map Session.numbers = [[1, 2, 3], [4, 5, 6]] ∧
    s.image.mailboxes.queue 6 = [] ∧ s.image.mailboxes.queue 3 = [.evaluate ⟨.int 1, "user", 2⟩] ∧
    (∀ letter ∈ (sample.register sampleIntrusion).mail 3, ∃ poster,
      letter.sender = some (0, poster) ∧
        ∀ b, poster = .actor b → b ∈ (sample.register sampleIntrusion).given 0) ∧
    ((sample.register sampleIntrusion).given 0).Disjoint
      ((sample.register sampleIntrusion).given 1) := by
  have hall : (sample.run? sampleIntrusion).any (fun s =>
      s.sessions.map Session.numbers = [[1, 2, 3], [4, 5, 6]] ∧ s.image.mailboxes.queue 6 = [] ∧
      s.image.mailboxes.queue 3 = [.evaluate ⟨.int 1, "user", 2⟩]) = true := by
    decide +kernel
  have hgiven : 3 ∈ (sample.register sampleIntrusion).given 0 := by
    decide +kernel
  obtain ⟨s, hrun, hshows⟩ := (Option.any_eq_true _ _).1 hall
  obtain ⟨hnumbers, hother, hown⟩ := of_decide_eq_true hshows
  obtain ⟨-, hapart, hmail, -⟩ := sessions_isolated sample_new hrun
  exact ⟨s, hrun, hnumbers, hother, hown, (hmail 0 3 hgiven).2, hapart 0 1 (by decide)⟩

end Server

end EvalServer
