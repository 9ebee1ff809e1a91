import EvalServer.Proofs.Session.Ending
import EvalServer.Proofs.Session.ReaderMail

/-!
# How the service leaves

Once the reader has ended, nothing holds up the task that serves the connection. Each of its steps
brings it nearer to where it leaves, and when it has left it has closed the session, or found it
closed.
-/

namespace EvalServer

/-- How far the service is from leaving: the stages that are left, and the kills of the stage in
which it kills. -/
def ServePhase.remaining : ServePhase → Nat × Nat
  | .closing .marking => (6, 0)
  | .closing .taking => (5, 0)
  | .closing (.killing handles) => (4, handles.length)
  | .closing .aborting => (3, 0)
  | .closing .silencing => (2, 0)
  | .closing .ended => (1, 0)
  | .ended => (0, 0)
  | phase => (16 - phase.stage, 0)

namespace World

variable {w w' : World}

/-- Either comes before the other, stages first. -/
abbrev Nearer : Nat × Nat → Nat × Nat → Prop :=
  Prod.Lex (· < ·) (· < ·)

lemma close_nears {phase phase' : ClosePhase} (h : w.closeStep? phase = some (w', phase')) :
    Nearer (ServePhase.closing phase').remaining (ServePhase.closing phase).remaining := by
  cases phase with
  | marking =>
    simp only [closeStep?] at h
    split at h <;> cases h <;> exact .left _ _ (by decide)
  | taking | aborting | silencing =>
    cases h
    exact .left _ _ (by decide)
  | killing handles =>
    cases handles with
    | nil =>
      cases h
      exact .left _ _ (by decide)
    | cons handle rest =>
      cases h
      exact .right _ (Nat.lt_succ_self _)
  | ended => cases h

/-- Each step of the service brings it nearer to where it leaves. -/
lemma serve_nears (h : w.serveStep? = some w') :
    Nearer w'.session.service.remaining w.session.service.remaining := by
  unfold serveStep? at h
  cases hservice : w.session.service with
  | absent | ended => simp [hservice] at h
  | startingRepl =>
    simp only [hservice, Option.some.injEq] at h
    subst h
    by_cases hwants : w.session.wantsOutput
    all_goals
      simp only [goServe, change, hwants]
      exact .left _ _ (by decide)
  | opening | serving =>
    simp only [hservice] at h
    split at h <;> cases h <;> exact .left _ _ (by simp [goServe, change, ServePhase.stage])
  | closing phase =>
    simp only [hservice] at h
    split at h
    · next hclose =>
      cases h
      exact close_nears hclose
    · next hclose =>
      cases h
      rw [closeStep?_eq_none hclose]
      exact .left _ _ (by decide)
  | _ =>
    simp only [hservice, Option.some.injEq] at h
    subst h
    exact .left _ _ (by simp [goServe, change, ServePhase.stage])

/-- Once the reader has ended, a service that has begun and has not left can go on. -/
lemma serve_goes (hreader : w.session.reader = .ended) (hbegun : 0 < w.session.service.stage)
    (hstays : w.session.service ≠ .ended) : ∃ w', w.serveStep? = some w' := by
  unfold serveStep?
  cases hservice : w.session.service with
  | absent => simp [hservice, ServePhase.stage] at hbegun
  | ended => exact absurd hservice hstays
  | serving => exact ⟨_, if_pos (.inl hreader)⟩
  | opening | closing =>
    simp only
    split <;> exact ⟨_, rfl⟩
  | _ => exact ⟨_, rfl⟩

/-- The session has been closed, or its service has not come so far as to mark it. -/
def Bolted (w : World) : Prop :=
  w.session.closed = true ∨
    (w.session.service ≠ .ended ∧ ∀ phase, w.session.service = .closing phase → phase = .marking)

lemma Bolted.of (hbolted : w.Bolted) (hservice : w'.session.service = w.session.service)
    (hclosed : w.session.closed = true → w'.session.closed = true) : w'.Bolted :=
  hbolted.imp hclosed fun h => hservice ▸ h

lemma serve_bolted (hbolted : w.Bolted) (h : w.serveStep? = some w') : w'.Bolted := by
  unfold serveStep? at h
  cases hservice : w.session.service with
  | absent | ended => simp [hservice] at h
  | startingRepl =>
    simp only [hservice, Option.some.injEq] at h
    subst h
    obtain ⟨-, _, _, _, _, hsession, -⟩ := ensureRepl_frame w
    refine hbolted.imp (fun hclosed => ?_) fun _ => ?_
    · simp only [goServe, change, hsession]
      exact hclosed
    · by_cases hwants : w.session.wantsOutput <;> simp [goServe, change, hwants]
  | opening | serving =>
    simp only [hservice] at h
    split at h <;> cases h <;> exact hbolted.imp id fun _ => by simp [goServe, change]
  | closing phase =>
    -- to mark the session is to close it
    have hmarked : phase ≠ .marking → w.session.closed = true := fun hne =>
      hbolted.resolve_right fun hmarking => hne (hmarking.2 phase hservice)
    simp only [hservice] at h
    split at h
    · next w₁ _ hclose =>
      cases h
      have hclosed : w₁.session.closed = true := by
        refine closed_of_closeStep (fun hunder => hmarked ?_) hclose
        rintro rfl
        cases hunder
      exact .inl hclosed
    · next hclose =>
      cases h
      exact .inl (hmarked (by rw [closeStep?_eq_none hclose]; simp))
  | _ =>
    simp only [hservice, Option.some.injEq] at h
    subst h
    exact hbolted.imp id fun _ => by simp [goServe, emit, tell, send, change]

/-- What holds of a session whose service has begun. -/
structure Begun (w : World) : Prop where
  sound : w.traffic.Sound
  staged : w.Staged
  bolted : w.Bolted
  stage : 0 < w.session.service.stage

lemma opened_begun {image : Image} (hfresh : image.mailboxes.Fresh) (id : Nat) (host : Host)
    (wantsOutput : Bool) (outputPort : Option UInt16) (connection : Connection) :
    (opened image id host wantsOutput outputPort connection).Begun where
  sound := (opened_blank hfresh id host wantsOutput outputPort connection).toSound
  staged := ⟨fun _ => rfl, fun _ => rfl⟩
  bolted := .inr ⟨by simp [opened, start, goServe, change], by simp [opened, start, goServe, change]⟩
  stage := Nat.one_pos

namespace Begun

lemma step (h : w.Begun) {action : Action} (hstep : w.step? action = some w') : w'.Begun := by
  have hbears := bears_step (x := []) h.sound h.staged hstep
  refine ⟨happen_sound h.sound (x := .turn (.step action)) hstep, step_staged h.sound h.staged hstep,
    ?_, Nat.lt_of_lt_of_le h.stage hbears.stage⟩
  by_cases hserve : action = .serve
  · subst hserve
    exact serve_bolted h.bolted hstep
  · exact h.bolted.of (step_service h.sound hserve hstep) hbears.closed

lemma occur (h : w.Begun) {x : Occurrence} (hx : w.occur? x = some w') : w'.Begun := by
  have hsound := occur_sound h.sound hx
  cases x with
  | notice m =>
    cases hx
    exact ⟨hsound, h.staged.of rfl id id, h.bolted, h.stage⟩
  | elsewhere image =>
    obtain ⟨-, rfl⟩ := elsewhere_spec hx
    exact ⟨hsound, h.staged.of rfl id id, h.bolted, h.stage⟩
  | happening x =>
    cases x with
    | post m =>
      cases hx
      exact ⟨hsound, h.staged.of rfl id id, h.bolted, h.stage⟩
    | turn turn =>
      cases turn with
      | kill handle =>
        cases hx
        cases handle <;> exact ⟨hsound, h.staged.of rfl id id, h.bolted, h.stage⟩
      | step action => exact h.step hx

/-- When the reader has ended, the service need only go on to close the session and leave. -/
theorem leaves {w : World} (h : w.Begun) (hreader : w.session.reader = .ended) :
    ∃ n last, w.run? (List.replicate n .serve) = some last ∧ last.session.service = .ended ∧
      last.session.closed = true := by
  by_cases hleft : w.session.service = .ended
  · exact ⟨0, w, rfl, hleft, h.bolted.resolve_right fun hstays => hstays.1 hleft⟩
  · obtain ⟨w₁, hserve⟩ := serve_goes hreader h.stage hleft
    have hstep : w.step? .serve = some w₁ := hserve
    have hreader₁ := (spares_serve h.sound h.staged hserve).ended_of_ended hreader
    obtain ⟨n, last, hrun, hends⟩ := (h.step hstep).leaves hreader₁
    exact ⟨n + 1, last, by simp [List.replicate_succ, run?, hstep, hrun], hends⟩
termination_by w.session.service.remaining
decreasing_by exact serve_nears hserve

end Begun

end World

end EvalServer
