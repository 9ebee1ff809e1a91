import EvalServer.Proofs.Server.Steps
import EvalServer.Proofs.Session.Teardown

/-!
# Sessions side by side

The sessions of a server share one set of mailboxes and one count of numbers. Each of them stays
sound whatever the others do: nobody but itself touches the mailboxes of its actors, and numbers
that are given later are greater.
-/

namespace EvalServer

open Traffic

namespace World

variable {w w' : World}

lemma step_absent (hsound : w.traffic.Sound) {action : Action} (h : w.step? action = some w')
    (habsent : w.session.service = .absent) : w'.session.service = .absent := by
  by_cases haction : action = .serve
  · subst haction
    simp only [step?, serveStep?, habsent] at h
    cases h
  · rw [step_service hsound haction h, habsent]

/-- What holds of every session at any time. -/
structure Orderly (w : World) : Prop where
  sound : w.traffic.Sound
  staged : w.Staged
  rooted : w.Rooted

/-- Numbers that a session has not been given yet, or none. -/
def Grows (w w' : World) : Prop :=
  w'.session.numbers = w.session.numbers ∧
    w'.image.mailboxes.lastActor = w.image.mailboxes.lastActor ∨
  w'.session.numbers = w.session.numbers ++ [w.image.mailboxes.lastActor + 1] ∧
    w'.image.mailboxes.lastActor = w.image.mailboxes.lastActor + 1

lemma grows_of_move {h : History} (hmove : Move w.traffic h w'.traffic) : w.Grows w' := by
  obtain ⟨hnumbered, hreader⟩ := hmove.numbered
  have hcontrol : w'.session.controlId = w.session.controlId := hmove.same.2.2
  replace hreader : w'.session.readerId = w.session.readerId := hreader
  have hnumbers : ∀ x : World,
      x.session.numbers = x.session.readerId :: x.session.controlId :: x.traffic.ids := fun _ => rfl
  rw [Grows, hnumbers w', hnumbers w, hcontrol, hreader]
  exact hnumbered.imp (And.imp_left (congrArg _ <| congrArg _ ·))
    (And.imp_left (congrArg _ <| congrArg _ ·))

namespace Orderly

lemma numbers_le (h : w.Orderly) {a : ActorId} (ha : a ∈ w.session.numbers) :
    a ≤ w.image.mailboxes.lastActor := by
  have hcontrol : w.session.controlId ≤ w.image.mailboxes.lastActor := h.sound.control_le
  have hreader : w.session.readerId < w.session.controlId := h.sound.reader_lt
  rcases List.mem_cons.1 ha with rfl | ha
  · exact Nat.le_trans (Nat.le_of_lt hreader) hcontrol
  · rcases List.mem_cons.1 ha with rfl | ha
    · exact hcontrol
    · exact h.sound.le_last a ha

lemma step (h : w.Orderly) {action : Action} (hstep : w.step? action = some w') : w'.Orderly ∧
    w.Grows w' ∧ MailOf (w.poster? action).isSome w w' := by
  have hturn : w.turn? (.step action) = some w' := hstep
  have hmove := turn_move h.sound hturn
  exact ⟨⟨h.sound.move hmove, step_staged h.sound h.staged hstep,
    step_rooted h.sound h.rooted hstep⟩, grows_of_move hmove, step_mail h.sound hstep⟩

lemma close (h : w.Orderly) {phase phase' : ClosePhase}
    (hclose : w.closeStep? phase = some (w', phase')) : w'.Orderly ∧ w.Grows w' := by
  have hmove := (closeStep?_spec (s := none) hclose).1
  exact ⟨⟨h.sound.move hmove, close_staged h.staged hclose,
    close_rooted h.sound h.rooted hclose⟩, grows_of_move hmove⟩

/-- To start the service changes nothing yet. -/
lemma start (h : w.Orderly) (habsent : w.session.service = .absent) : w.start.Orderly where
  sound := by
    have hsame : w.start.traffic = w.traffic := by
      simp [World.traffic, World.start, goServe, change, habsent]
    exact hsame ▸ h.sound
  staged := by
    have hreader := h.staged.reader (by simp [habsent])
    have houtput := h.staged.output (by simp [habsent])
    exact ⟨fun _ => hreader, fun _ => houtput⟩
  rooted := h.rooted

/-- What goes on elsewhere does not matter to a session if the mailboxes of its actors stay. -/
lemma elsewhere (h : w.Orderly) {image : Image}
    (hqueue : ∀ a ∈ w.session.numbers, image.mailboxes.queue a = w.image.mailboxes.queue a)
    (hlast : w.image.mailboxes.lastActor ≤ image.mailboxes.lastActor)
    (hfresh : image.mailboxes.Fresh) : Orderly ⟨image, w.session⟩ where
  sound := sound_elsewhere h.sound hqueue hlast hfresh
  staged := ⟨h.staged.reader, h.staged.output⟩
  rooted := h.rooted

end Orderly

end World

namespace Server

variable {s s' : Server} {action : Action}

/-- What a step of a server does to one of its sessions. -/
inductive Turned (s : Server) (action : Action) (i : Nat) (w : World) : World → Prop
  | rest {image : Image} : (∀ a, ¬ s.Inner action i a) → Turned s action i w ⟨image, w.session⟩
  | act {a : EvalServer.Action} {w' : World} : s.Inner action i a → w.step? a = some w' →
      Turned s action i w w'
  | start {v : Nat} {visit : Visit} : action = .visit v → s.visits[v]? = some visit →
      visit.phase = .entering i → Turned s action i w w.start
  | close {k : Nat} {phase phase' : ClosePhase} {w' : World} : action = .shutdown k →
      w.closeStep? phase = some (w', phase') → Turned s action i w w'

lemma Inner.unique {i j : Nat} {a b : EvalServer.Action} (h : s.Inner action i a)
    (h' : s.Inner action j b) : i = j ∧ a = b := by
  cases h with
  | session =>
    cases h'
    exact ⟨rfl, rfl⟩
  | deliver arrival hvisit hi =>
    cases h' with
    | deliver _ hvisit' hj =>
      rw [hvisit, Option.some.injEq] at hvisit'
      subst hvisit'
      rw [hi, Option.some.injEq] at hj
      exact ⟨hj, rfl⟩
  | endInput hvisit hi =>
    cases h' with
    | endInput hvisit' hj =>
      rw [hvisit, Option.some.injEq] at hvisit'
      subst hvisit'
      rw [hi, Option.some.injEq] at hj
      exact ⟨hj, rfl⟩

lemma world?_set {i j : Nat} {w w' : World} {session : Session}
    (hsessions : s'.sessions = s.sessions.set i session) (hi : s.world? i = some w)
    (hw' : s'.world? j = some w') :
    i = j ∧ w' = ⟨s'.image, session⟩ ∨
      i ≠ j ∧ ∃ w₀, s.world? j = some w₀ ∧ w' = ⟨s'.image, w₀.session⟩ := by
  obtain ⟨hget, himage⟩ := world?_eq_some.1 hw'
  rw [hsessions, List.getElem?_set] at hget
  have hlt : i < s.sessions.length :=
    (List.getElem?_eq_some_iff.1 (world?_eq_some.1 hi).1).1
  by_cases hij : i = j
  · subst hij
    rw [if_pos rfl, if_pos hlt, Option.some.injEq] at hget
    left
    refine ⟨rfl, ?_⟩
    rw [hget, himage]
  · rw [if_neg hij] at hget
    right
    refine ⟨hij, ⟨s.image, w'.session⟩, world?_eq_some.2 ⟨hget, rfl⟩, ?_⟩
    rw [himage]

/-- A session is there before a step, or the step makes it. -/
theorem step_world (h : s.step? action = some s') {i : Nat} {w' : World}
    (hw' : s'.world? i = some w') :
    (∃ w, s.world? i = some w ∧ s.Turned action i w w') ∨
    ∃ v visit, action = .visit v ∧ s.visits[v]? = some visit ∧ visit.phase = .creating ∧
      i = s.sessions.length ∧ (s.createSession visit).2.world? i = some w' := by
  cases (step_stirs h).1 with
  | still hnone hsessions hmail =>
    obtain ⟨hget, himage⟩ := world?_eq_some.1 hw'
    rw [hsessions] at hget
    left
    refine ⟨⟨s.image, w'.session⟩, world?_eq_some.2 ⟨hget, rfl⟩, ?_⟩
    exact .rest (w := ⟨s.image, w'.session⟩) (hnone i)
  | @act _ j a w₁ w₂ hinner hw₁ hstep =>
    left
    rcases world?_set rfl hw₁ hw' with ⟨rfl, rfl⟩ | ⟨hne, w₀, hw₀, rfl⟩
    · exact ⟨w₁, hw₁, .act hinner hstep⟩
    · exact ⟨w₀, hw₀, .rest fun b hb => hne (hinner.unique hb).1⟩
  | @start v j visit w₁ _ hvisit hphase hw₁ hsessions himage =>
    left
    rcases world?_set hsessions hw₁ hw' with ⟨rfl, rfl⟩ | ⟨hne, w₀, hw₀, rfl⟩
    · refine ⟨w₁, hw₁, ?_⟩
      have heq : w₁.start = ⟨s'.image, w₁.start.session⟩ := by
        rw [himage, (world?_eq_some.1 hw₁).2]
        rfl
      exact heq ▸ .start rfl hvisit hphase
    · exact ⟨w₀, hw₀, .rest (by rintro b ⟨⟩)⟩
  | @close k j phase phase' w₁ w₂ _ hw₁ hclose hsessions himage =>
    left
    rcases world?_set hsessions hw₁ hw' with ⟨rfl, rfl⟩ | ⟨hne, w₀, hw₀, rfl⟩
    · exact ⟨w₁, hw₁, himage ▸ .close rfl hclose⟩
    · exact ⟨w₀, hw₀, .rest (by rintro b ⟨⟩)⟩
  | @make v visit _ hvisit hphase hsessions himage =>
    obtain ⟨hget, himage'⟩ := world?_eq_some.1 hw'
    rcases Nat.lt_or_ge i s.sessions.length with hlt | hge
    · left
      rw [hsessions, createSession, List.getElem?_append_left hlt] at hget
      refine ⟨⟨s.image, w'.session⟩, world?_eq_some.2 ⟨hget, rfl⟩, ?_⟩
      exact .rest (w := ⟨s.image, w'.session⟩) (by rintro b ⟨⟩)
    · right
      have hbound := (List.getElem?_eq_some_iff.1 hget).1
      rw [hsessions, createSession, List.length_append, List.length_singleton] at hbound
      refine ⟨v, visit, rfl, hvisit, hphase, by omega, world?_eq_some.2 ⟨?_, ?_⟩⟩
      · rw [← hsessions, hget]
      · rw [← himage, himage']

/-! ## Servers -/

/-- A server that has done nothing yet. -/
structure New (s : Server) : Prop where
  mailboxes : s.image.mailboxes = {}
  registry : s.registry = []
  loops : s.loops = []
  visits : s.visits = []
  calls : s.calls = []
  sessions : s.sessions = []
  entered : s.entered = []
  shutdowns : s.shutdowns = []

/-- What holds of the sessions of a server, and of the visits that have them, at any time. -/
structure Orderly (s : Server) : Prop where
  session : ∀ i w, s.world? i = some w → w.Orderly
  fresh : s.image.mailboxes.Fresh
  apart : ∀ i j w w', i ≠ j → s.world? i = some w → s.world? j = some w' →
    ∀ a ∈ w.session.numbers, a ∉ w'.session.numbers
  entering : ∀ (v : Nat) (visit : Visit) (i : Nat), s.visits[v]? = some visit →
    visit.phase = .entering i → ∃ w, s.world? i = some w ∧ w.session.service = .absent
  alone : ∀ (u v : Nat) (visit visit' : Visit) (i : Nat), s.visits[u]? = some visit →
    s.visits[v]? = some visit' → visit.session? = some i → visit'.session? = some i → u = v
  known : ∀ (v : Nat) (visit : Visit) (i : Nat), s.visits[v]? = some visit →
    visit.session? = some i → i < s.sessions.length

lemma New.orderly (h : s.New) : s.Orderly := by
  have hworld : ∀ i, s.world? i = none := by
    intro i
    rw [world?, h.sessions]
    rfl
  have hvisit : ∀ v : Nat, s.visits[v]? = none := by
    intro v
    rw [h.visits]
    rfl
  constructor
  case fresh =>
    intro a _
    rw [h.mailboxes]
    rfl
  all_goals simp [hworld, hvisit]

section steps

variable {i j : Nat} {w w' : World}

/-- A session that has just been made. -/
lemma created_orderly (hfresh : s.image.mailboxes.Fresh) (visit : Visit)
    (hw : (s.createSession visit).2.world? s.sessions.length = some w) : w.Orderly ∧
      w.session.service = .absent ∧ w.image = (s.createSession visit).2.image ∧
      w.session.numbers =
        [s.image.mailboxes.lastActor + 1, s.image.mailboxes.lastActor + 1 + 1] := by
  obtain ⟨hget, himage⟩ := world?_eq_some.1 hw
  obtain ⟨image, session⟩ := w
  simp only [createSession, List.getElem?_concat_length, Option.some.injEq] at hget himage
  subst hget himage
  refine ⟨⟨?_, ⟨fun _ => rfl, fun _ => rfl⟩, by simp [World.Rooted, Session.named, Session.create,
    ActorTable.evaluators]⟩, rfl, rfl, rfl⟩
  have hblank := World.opened_blank hfresh (s.sessions.length + 1)
    (s.hostOf (((s.loops[visit.loop]?).map fun l => l.listening.style).getD s.config.style))
    s.config.dedicatedOutput s.outputPort visit.connection
  refine cast (congrArg Traffic.Sound ?_) hblank.toSound
  simp [World.traffic, World.opened, World.start, World.goServe, World.change, Session.create]

lemma Stirs.shared (horderly : s.Orderly) (h : s.Stirs action s') :
    s.image.mailboxes.lastActor ≤ s'.image.mailboxes.lastActor ∧ s'.image.mailboxes.Fresh ∧
    ∀ j w, s.world? j = some w → (∀ a, ¬ s.Inner action j a) → ∀ a ∈ w.session.numbers,
      s'.image.mailboxes.queue a = s.image.mailboxes.queue a := by
  cases h with
  | still _ _ hmail =>
    rw [hmail]
    exact ⟨Nat.le_refl _, horderly.fresh, fun _ _ _ _ _ _ => rfl⟩
  | @act _ i b w₁ w₂ hinner hw₁ hstep =>
    obtain ⟨horderly₂, hgrows, hmail⟩ := (horderly.session i w₁ hw₁).step hstep
    have himage : s.image = w₁.image := (world?_eq_some.1 hw₁).2
    rw [himage]
    refine ⟨?_, horderly₂.sound.unborn, fun j w hw hnone a ha => ?_⟩
    · change _ ≤ w₂.image.mailboxes.lastActor
      rcases hgrows with ⟨-, hlast⟩ | ⟨-, hlast⟩
      · exact Nat.le_of_eq hlast.symm
      · exact hlast ▸ Nat.le_succ _
    · have hne : j ≠ i := by
        rintro rfl
        exact hnone b hinner
      exact (hmail a).resolve_right fun hown =>
        horderly.apart j i w w₁ hne hw hw₁ a ha hown.1
  | start _ _ _ _ himage =>
    rw [himage]
    exact ⟨Nat.le_refl _, horderly.fresh, fun _ _ _ _ _ _ => rfl⟩
  | close hw₁ hclose _ himage =>
    rw [himage, World.closeStep_image hclose, ← (world?_eq_some.1 hw₁).2]
    exact ⟨Nat.le_refl _, horderly.fresh, fun _ _ _ _ _ _ => rfl⟩
  | make _ _ _ himage =>
    rw [himage]
    refine ⟨Nat.le_add_right _ 2, fun a ha => ?_, fun _ _ _ _ _ _ => rfl⟩
    exact horderly.fresh a (Nat.lt_trans (Nat.lt_succ_self _) (Nat.lt_of_succ_lt ha))

/-- A session that takes a step may be given the next number; no other session is given one. -/
lemma Turned.numbers (horderly : s.Orderly) (hw : s.world? i = some w)
    (h : s.Turned action i w w') : w'.session.numbers = w.session.numbers ∨
      (∃ a, s.Inner action i a) ∧
        w'.session.numbers = w.session.numbers ++ [s.image.mailboxes.lastActor + 1] := by
  cases h with
  | rest => exact .inl rfl
  | start => exact .inl rfl
  | @act a _ hinner hstep =>
    obtain ⟨-, hgrows, -⟩ := (horderly.session i w hw).step hstep
    rw [(world?_eq_some.1 hw).2]
    exact hgrows.imp And.left fun hnew => ⟨⟨a, hinner⟩, hnew.1⟩
  | close _ hclose =>
    obtain ⟨-, hgrows⟩ := (horderly.session i w hw).close hclose
    rw [World.Grows, World.closeStep_image hclose] at hgrows
    exact .inl (hgrows.elim And.left fun hnew => absurd hnew.2.symm (Nat.succ_ne_self _))

lemma Turned.orderly (horderly : s.Orderly) (hshared : s.Stirs action s')
    (hw : s.world? i = some w) (hw' : s'.world? i = some w') (h : s.Turned action i w w') :
    w'.Orderly := by
  have hold := horderly.session i w hw
  have himage := (world?_eq_some.1 hw).2
  cases h with
  | @rest image hnone =>
    obtain ⟨hlast, hfresh, hqueue⟩ := hshared.shared horderly
    have himage' : s'.image = image := (world?_eq_some.1 hw').2
    rw [himage', himage] at hlast
    rw [himage'] at hfresh
    refine hold.elsewhere (fun a ha => ?_) hlast hfresh
    have hsame := hqueue i w hw hnone a ha
    rwa [himage', himage] at hsame
  | act hinner hstep => exact (hold.step hstep).1
  | start haction hvisit hphase =>
    obtain ⟨w₁, hw₁, habsent⟩ := horderly.entering _ _ i hvisit hphase
    rw [hw, Option.some.injEq] at hw₁
    exact hold.start (hw₁ ▸ habsent)
  | close _ hclose => exact (hold.close hclose).1

/-- A visit has a session that it had before, or the one that is made for it. -/
lemma session?_of_passes {v : Nat} {visit visit' : Visit} (h : s.Passes v action visit visit')
    (hi : visit'.session? = some i) : visit.session? = some i ∨
      i = s.sessions.length ∧ action = .visit v ∧ visit.phase = .creating := by
  cases h with
  | still => exact .inl hi
  | create hphase =>
    cases hi
    exact .inr ⟨rfl, rfl, hphase⟩
  | serve hphase =>
    cases hi
    exact .inl (by rw [Visit.session?, hphase])
  | arrive _ hnone => exact .inl hi
  | endInput hnone => exact .inl hi
  | _ => cases hi

lemma entering_of_passes {v : Nat} {visit visit' : Visit} (h : s.Passes v action visit visit')
    (hphase : visit'.phase = .entering i) : visit.phase = .entering i ∧ action ≠ .visit v ∨
      i = s.sessions.length ∧ action = .visit v ∧ visit.phase = .creating := by
  have hnone : ∀ visit : Visit, visit.session? = none → visit.phase ≠ .entering i := by
    intro visit hnone hentering
    rw [Visit.session?, hentering] at hnone
    cases hnone
  cases h with
  | still haction => exact .inl ⟨hphase, haction⟩
  | create hcreating =>
    cases hphase
    exact .inr ⟨rfl, rfl, hcreating⟩
  | arrive _ hsession => exact absurd hphase (hnone _ hsession)
  | endInput hsession => exact absurd hphase (hnone _ hsession)
  | _ => cases hphase

lemma session?_of_new {v : Nat} {visit : Visit} (hi : visit.session? = some i)
    (hnew : ∃ loop, action = .connect loop ∧ v = s.visits.length ∧ visit = { loop }) : False := by
  obtain ⟨loop, -, -, rfl⟩ := hnew
  cases hi

lemma world?_isSome : (∃ w, s.world? i = some w) ↔ i < s.sessions.length := by
  constructor
  · rintro ⟨w, hw⟩
    exact (List.getElem?_eq_some_iff.1 (world?_eq_some.1 hw).1).1
  · intro hlt
    exact ⟨⟨s.image, s.sessions[i]⟩, world?_eq_some.2 ⟨List.getElem?_eq_getElem hlt, rfl⟩⟩

lemma length_le (h : s.Stirs action s') : s.sessions.length ≤ s'.sessions.length := by
  cases h with
  | still _ hsessions => exact Nat.le_of_eq (congrArg List.length hsessions.symm)
  | act => exact Nat.le_of_eq (List.length_set ..).symm
  | start _ _ _ hsessions | close _ _ hsessions =>
    exact Nat.le_of_eq (by rw [hsessions, List.length_set])
  | make _ _ hsessions =>
    rw [hsessions, createSession, List.length_append]
    exact Nat.le_add_right _ _

lemma length_create {v : Nat} {visit : Visit} (h : s.step? (.visit v) = some s')
    (hvisit : s.visits[v]? = some visit) (hphase : visit.phase = .creating) :
    s'.sessions.length = s.sessions.length + 1 := by
  simp only [step?, visitStep?, hvisit, hphase, Option.bind_eq_bind, Option.bind_some,
    Option.pure_def, Option.some.injEq] at h
  subst h
  simp [setVisit, changeVisit, createSession]

/-- What a step adds to the numbers of a session is greater than any number that there was. -/
lemma numbers_of_step (horderly : s.Orderly) (h : s.step? action = some s')
    (hw' : s'.world? i = some w') {a : ActorId} (ha : a ∈ w'.session.numbers) :
    (∃ w, s.world? i = some w ∧ a ∈ w.session.numbers) ∨ s.image.mailboxes.lastActor < a ∧
      ((∃ b, s.Inner action i b) ∨ i = s.sessions.length ∧ ∃ v, action = .visit v) := by
  rcases step_world h hw' with ⟨w, hw, hturned⟩ | ⟨v, visit, haction, -, -, hi, hmade⟩
  · rcases hturned.numbers horderly hw with hsame | ⟨hinner, hgrown⟩
    · exact .inl ⟨w, hw, hsame ▸ ha⟩
    · rw [hgrown, List.mem_append, List.mem_singleton] at ha
      rcases ha with ha | rfl
      · exact .inl ⟨w, hw, ha⟩
      · exact .inr ⟨Nat.lt_succ_self _, .inl hinner⟩
  · subst hi
    have hnumbers := (created_orderly horderly.fresh visit hmade).2.2.2
    rw [hnumbers] at ha
    refine .inr ⟨?_, .inr ⟨rfl, v, haction⟩⟩
    rcases List.mem_cons.1 ha with rfl | ha
    · exact Nat.lt_succ_self _
    · rw [List.mem_singleton.1 ha]
      exact Nat.lt_trans (Nat.lt_succ_self _) (Nat.lt_succ_self _)

lemma Orderly.numbers_le (horderly : s.Orderly) (hw : s.world? i = some w) {a : ActorId}
    (ha : a ∈ w.session.numbers) : a ≤ s.image.mailboxes.lastActor := by
  rw [(world?_eq_some.1 hw).2]
  exact (horderly.session i w hw).numbers_le ha

lemma apart_step (horderly : s.Orderly) (h : s.step? action = some s') (hne : i ≠ j)
    (hw : s'.world? i = some w) (hw' : s'.world? j = some w') :
    ∀ a ∈ w.session.numbers, a ∉ w'.session.numbers := by
  intro a ha ha'
  rcases numbers_of_step horderly h hw ha with ⟨w₀, hw₀, ha₀⟩ | ⟨hlt, hnew⟩
  · rcases numbers_of_step horderly h hw' ha' with ⟨w₁, hw₁, ha₁⟩ | ⟨hlt, -⟩
    · exact horderly.apart i j w₀ w₁ hne hw₀ hw₁ a ha₀ ha₁
    · exact Nat.not_le_of_lt hlt (horderly.numbers_le hw₀ ha₀)
  · rcases numbers_of_step horderly h hw' ha' with ⟨w₁, hw₁, ha₁⟩ | ⟨-, hnew'⟩
    · exact Nat.not_le_of_lt hlt (horderly.numbers_le hw₁ ha₁)
    · -- only one session is given a number in a step
      rcases hnew with ⟨b, hb⟩ | ⟨hi, v, rfl⟩
      · rcases hnew' with ⟨b', hb'⟩ | ⟨-, v, rfl⟩
        · exact hne (hb.unique hb').1
        · cases hb
      · rcases hnew' with ⟨b', hb'⟩ | ⟨hj, -⟩
        · cases hb'
        · exact hne (hi.trans hj.symm)

lemma known_step (horderly : s.Orderly) (h : s.step? action = some s') {v : Nat} {visit : Visit}
    (hvisit : s'.visits[v]? = some visit) (hi : visit.session? = some i) :
    i < s'.sessions.length := by
  have hle := length_le (step_stirs h).1
  rcases step_passes h hvisit with ⟨visit₀, hvisit₀, hpass⟩ | hnew
  · rcases session?_of_passes hpass hi with hold | ⟨rfl, rfl, hphase⟩
    · exact Nat.lt_of_lt_of_le (horderly.known v visit₀ i hvisit₀ hold) hle
    · rw [length_create h hvisit₀ hphase]
      exact Nat.lt_succ_self _
  · exact (session?_of_new hi hnew).elim

lemma entering_step (horderly : s.Orderly) (h : s.step? action = some s') {v : Nat} {visit : Visit}
    (hvisit : s'.visits[v]? = some visit) (hphase : visit.phase = .entering i) :
    ∃ w, s'.world? i = some w ∧ w.session.service = .absent := by
  have hsession : visit.session? = some i := by
    rw [Visit.session?, hphase]
  obtain ⟨w', hw'⟩ := world?_isSome.2 (known_step horderly h hvisit hsession)
  refine ⟨w', hw', ?_⟩
  rcases step_passes h hvisit with ⟨visit₀, hvisit₀, hpass⟩ | hnew
  · rcases entering_of_passes hpass hphase with ⟨hold, haction⟩ | ⟨rfl, rfl, hcreating⟩
    · obtain ⟨w, hw, habsent⟩ := horderly.entering v visit₀ i hvisit₀ hold
      rcases step_world h hw' with ⟨w₀, hw₀, hturned⟩ | ⟨-, -, -, -, -, hi, -⟩
      · rw [hw, Option.some.injEq] at hw₀
        subst hw₀
        cases hturned with
        | rest => exact habsent
        | act hinner hstep => exact World.step_absent (horderly.session i w hw).sound hstep habsent
        | @start u visit₁ hu hvisit₁ hphase₁ =>
          -- the visit that starts the session would be this one
          have hboth := horderly.alone u v visit₁ visit₀ i hvisit₁ hvisit₀
            (by rw [Visit.session?, hphase₁]) (by rw [Visit.session?, hold])
          exact absurd (hboth ▸ hu) haction
        | close _ hclose => rw [(World.closeStep?_spec (s := none) hclose).2, habsent]
      · have hlt := world?_isSome.1 ⟨w, hw⟩
        exact absurd hi (Nat.ne_of_lt hlt)
    · rcases step_world h hw' with ⟨w₀, hw₀, -⟩ | ⟨-, visit₁, -, -, -, -, hmade⟩
      · have hlt := world?_isSome.1 ⟨w₀, hw₀⟩
        exact absurd hlt (Nat.lt_irrefl _)
      · exact (created_orderly horderly.fresh visit₁ hmade).2.1
  · exact (session?_of_new hsession hnew).elim

lemma alone_step (horderly : s.Orderly) (h : s.step? action = some s') {u v : Nat}
    {visit visit' : Visit} (hu : s'.visits[u]? = some visit) (hv : s'.visits[v]? = some visit')
    (hi : visit.session? = some i) (hi' : visit'.session? = some i) : u = v := by
  rcases step_passes h hu with ⟨visit₀, hvisit₀, hpass⟩ | hnew
  · rcases step_passes h hv with ⟨visit₁, hvisit₁, hpass'⟩ | hnew
    · rcases session?_of_passes hpass hi with hold | ⟨rfl, rfl, -⟩
      · rcases session?_of_passes hpass' hi' with hold' | ⟨rfl, -, -⟩
        · exact horderly.alone u v visit₀ visit₁ i hvisit₀ hvisit₁ hold hold'
        · exact absurd (horderly.known u visit₀ _ hvisit₀ hold) (Nat.lt_irrefl _)
      · rcases session?_of_passes hpass' hi' with hold' | ⟨-, haction, -⟩
        · exact absurd (horderly.known v visit₁ _ hvisit₁ hold') (Nat.lt_irrefl _)
        · cases haction
          rfl
    · exact (session?_of_new hi' hnew).elim
  · exact (session?_of_new hi hnew).elim

/-- Every step keeps the sessions of a server in order. -/
theorem Orderly.step (horderly : s.Orderly) (h : s.step? action = some s') : s'.Orderly where
  session := by
    intro i w' hw'
    rcases step_world h hw' with ⟨w, hw, hturned⟩ | ⟨v, visit, -, -, -, rfl, hmade⟩
    · exact hturned.orderly horderly (step_stirs h).1 hw hw'
    · exact (created_orderly horderly.fresh visit hmade).1
  fresh := ((step_stirs h).1.shared horderly).2.1
  apart := fun _ _ _ _ hne hw hw' => apart_step horderly h hne hw hw'
  entering := fun _ _ _ hvisit hphase => entering_step horderly h hvisit hphase
  alone := fun _ _ _ _ _ hu hv hi hi' => alone_step horderly h hu hv hi hi'
  known := fun _ _ _ hvisit hi => known_step horderly h hvisit hi

end steps

/-- A server without a secret. -/
def sample : Server where
  config := { Config.default none with keepListening := true }
  processId := "1"
  workingDirectory := "."
  loadDepth := 3

lemma sample_new : sample.New :=
  ⟨rfl, rfl, rfl, rfl, rfl, rfl, rfl, rfl⟩

/-- It listens on a port. -/
def sampleListening : List Action :=
  [.beginListen ⟨4005, .spawn, true⟩, .call 0 (.ok 4005), .call 0 (.ok 4005), .call 0 (.ok 4005)]

/-- A client connects and gets a session, which starts. -/
def sampleVisit (v : Nat) : List Action :=
  [.connect 0, .loop 0] ++ List.replicate 4 (.visit v) ++ List.replicate 5 (.session v .serve) ++
    [.session v .reader]

/-- A client sends a message. -/
def sampleMessage (v : Nat) (text : String) : Action :=
  .deliver v (.bytes ((Frame.ofPayload (Text.Utf8.encode text.toList)).toOption.getD []))

end Server

end EvalServer
