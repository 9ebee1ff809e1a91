import EvalServer.Proofs.Server.Admission
import EvalServer.Proofs.Server.Sessions
import EvalServer.Proofs.Session.Reading

/-!
# The gate

A log tells of each connection what has come over it, what the files were when its secret was
looked up, which session has been made for it, and what that session's reader has heard. A session
is made for a connection exactly if the secret has been presented on it, or none is required, and
what its reader hears are the frames that follow.
-/

namespace EvalServer

namespace Server

/-- What has happened to connections. -/
structure Log where
  /-- What has come over a connection while it was open. -/
  came : Nat → Delivery := fun _ => []
  /-- The files, when the secret was looked up for a connection. -/
  looked : Nat → Option File.Store := fun _ => none
  /-- The session that has been made for a connection. -/
  made : Nat → Option Nat := fun _ => none
  /-- What the reader of a session has told its control loop. -/
  heard : Nat → List Message := fun _ => []

variable {s s' : Server} {action : Action} {u v i : Nat} {visit visit' : Visit} {w w' : World}

/-- The visit that takes a step in a phase. -/
def stepping? (s : Server) (phase : VisitPhase) : Action → Option Nat
  | .visit v => if (s.visits[v]?).any (·.phase = phase) then some v else none
  | _ => none

/-- What an action brings to a connection. -/
def brings (s : Server) (log : Log) (v : Nat) : Action → Delivery
  | .deliver u arrival =>
    if u = v ∧ (s.visits[v]?).any (·.phase ≠ .ended) then .arrived arrival else []
  | .session i (.deliver arrival) => if log.made v = some i then .arrived arrival else []
  | _ => []

/-- The messages that wait for the control loop of a session. -/
def controlQueue (s : Server) (i : Nat) : List Message :=
  ((s.world? i).map World.controlQueue).getD []

/-- What the reader of a session tells its control loop in a step. -/
def forwards (s s' : Server) (i : Nat) : Action → List Message
  | .session j .reader =>
    if j = i then (s'.controlQueue i).drop (s.controlQueue i).length else []
  | _ => []

def Log.note (s : Server) (action : Action) (s' : Server) (log : Log) : Log where
  came v := log.came v ++ s.brings log v action
  looked v := if s.stepping? .loading action = some v then some s.image.files else log.looked v
  made v := if s.stepping? .creating action = some v then some s.sessions.length else log.made v
  heard i := log.heard i ++ s.forwards s' i action

def log (s : Server) (actions : List Action) : Log :=
  s.recorded Log.note {} actions

section visits

variable {log : Log}

lemma stepping?_eq_some {phase : VisitPhase} : s.stepping? phase action = some v ↔
    action = .visit v ∧ ∃ visit, s.visits[v]? = some visit ∧ visit.phase = phase := by
  unfold stepping?
  split
  · next u =>
    constructor
    · intro h
      split at h
      · next hany =>
        cases h
        obtain ⟨visit, hvisit, hphase⟩ := (Option.any_eq_true _ _).1 hany
        exact ⟨rfl, visit, hvisit, of_decide_eq_true hphase⟩
      · cases h
    · rintro ⟨hsame, visit, hvisit, hphase⟩
      cases hsame
      simp [hvisit, hphase]
  · next hne =>
    constructor
    · rintro ⟨⟩
    · rintro ⟨rfl, -⟩
      exact absurd rfl (hne v)

/-- What is known of a connection in each phase of its visit. -/
def Log.Stage (log : Log) (c : Config) (v : Nat) (visit : Visit) : Prop :=
  match visit.phase with
  | .queued | .loading =>
    log.made v = none ∧ log.looked v = none ∧ visit.connection.inbound = log.came v
  | .authenticating secret =>
    log.made v = none ∧ visit.connection.inbound = log.came v ∧ ∃ files,
      log.looked v = some files ∧ Handshake.loadSecret files c.secretFile = .ok secret
  | .creating => log.made v = none ∧ ∃ files secret, log.looked v = some files ∧
      Handshake.loadSecret files c.secretFile = .ok secret ∧
      Handshake.authenticate c.coding secret (log.came v) = (.ok (), visit.connection.inbound)
  | .entering i | .serving i => log.made v = some i
  | .ended => log.made v = none → ∀ files, log.looked v = some files →
      ∀ secret, Handshake.loadSecret files c.secretFile = .ok secret →
      ∀ rest, Handshake.authenticate c.coding secret (log.came v) ≠ (.ok (), rest)

/-- A step of others, or one that brings nothing while there is no session. -/
lemma Log.stage_of {log' : Log} {c : Config} (hlooked : log'.looked v = log.looked v)
    (hmade : log'.made v = log.made v)
    (hcame : log.made v = none → visit.session? = none → log'.came v = log.came v)
    (h : log.Stage c v visit) : log'.Stage c v visit := by
  unfold Stage at h ⊢
  rw [hlooked, hmade]
  cases hphase : visit.phase with
  | queued | loading | authenticating | creating =>
    simp only [hphase] at h ⊢
    rw [hcame h.1 (by simp only [Visit.session?, hphase])]
    exact h
  | entering | serving =>
    simp only [hphase] at h ⊢
    exact h
  | ended =>
    simp only [hphase] at h ⊢
    intro hnone
    rw [hcame hnone (by simp only [Visit.session?, hphase])]
    exact h hnone

lemma Log.looked_note (h : s.stepping? .loading action ≠ some v) :
    (log.note s action s').looked v = log.looked v :=
  if_neg h

lemma Log.made_note (h : s.stepping? .creating action ≠ some v) :
    (log.note s action s').made v = log.made v :=
  if_neg h

lemma stepping?_of_phase {phase : VisitPhase} (hvisit : s.visits[v]? = some visit)
    (hphase : visit.phase ≠ phase) : s.stepping? phase action ≠ some v := by
  rw [ne_eq, stepping?_eq_some]
  rintro ⟨-, visit', hvisit', hphase'⟩
  rw [hvisit, Option.some.injEq] at hvisit'
  exact hphase (hvisit' ▸ hphase')

lemma Log.came_note (h : s.brings log v action = []) :
    (log.note s action s').came v = log.came v := by
  change log.came v ++ s.brings log v action = log.came v
  rw [h, List.append_nil]

/-- Only the client of a visit, or what comes into its session, is noted of it. -/
lemma brings_eq_nil (hmade : log.made v = none)
    (haction : ∀ arrival, action = .deliver v arrival →
      ∀ visit, s.visits[v]? = some visit → visit.phase = .ended) :
    s.brings log v action = [] := by
  unfold brings
  split
  · next u arrival =>
    refine if_neg ?_
    rintro ⟨rfl, hopen⟩
    obtain ⟨visit, hvisit, hphase⟩ := (Option.any_eq_true _ _).1 hopen
    exact of_decide_eq_true hphase (haction arrival rfl visit hvisit)
  · rw [if_neg (by rw [hmade]; simp)]
  · rfl

/-- A step notes what the files are only when the secret is looked up, and which session has been
made only when it is made. -/
lemma Log.unnoted (hvisit : s.visits[v]? = some visit) (hloading : visit.phase ≠ .loading)
    (hcreating : visit.phase ≠ .creating) : (log.note s action s').looked v = log.looked v ∧
      (log.note s action s').made v = log.made v :=
  ⟨looked_note (stepping?_of_phase hvisit hloading),
    made_note (stepping?_of_phase hvisit hcreating)⟩

lemma Log.looked_visit (hvisit : s.visits[v]? = some visit) (hphase : visit.phase = .loading) :
    (log.note s (.visit v) s').looked v = some s.image.files :=
  if_pos (stepping?_eq_some.2 ⟨rfl, visit, hvisit, hphase⟩)

lemma Log.made_visit (hvisit : s.visits[v]? = some visit) (hphase : visit.phase = .creating) :
    (log.note s (.visit v) s').made v = some s.sessions.length :=
  if_pos (stepping?_eq_some.2 ⟨rfl, visit, hvisit, hphase⟩)

/-- A step of the visit itself brings nothing. -/
lemma Log.came_visit : (log.note s (.visit v) s').came v = log.came v :=
  came_note rfl

namespace Log.Stage

lemma load {secret : Option String} (hvisit : s.visits[v]? = some visit)
    (hphase : visit.phase = .loading)
    (hload : Handshake.loadSecret s.image.files s.config.secretFile = .ok secret)
    (h : log.Stage s.config v visit) : (log.note s (.visit v) s').Stage s.config v
      { visit with phase := .authenticating secret } := by
  simp only [Stage, hphase] at h
  obtain ⟨hmade, -, hinbound⟩ := h
  exact ⟨(made_note (stepping?_of_phase hvisit (by simp [hphase]))).trans hmade,
    hinbound.trans came_visit.symm, _, looked_visit hvisit hphase, hload⟩

lemma fail {e : AuthenticationError} (hvisit : s.visits[v]? = some visit)
    (hphase : visit.phase = .loading)
    (hload : Handshake.loadSecret s.image.files s.config.secretFile = .error e) :
    (log.note s (.visit v) s').Stage s.config v { visit with phase := .ended } := by
  intro _ files hfiles secret hsecret
  rw [looked_visit hvisit hphase, Option.some.injEq] at hfiles
  rw [← hfiles, hload] at hsecret
  cases hsecret

lemma pass {secret : Option String} {inbound : Delivery} (hvisit : s.visits[v]? = some visit)
    (hphase : visit.phase = .authenticating secret)
    (hauth : Handshake.authenticate s.config.coding secret visit.connection.inbound =
      (.ok (), inbound)) (h : log.Stage s.config v visit) :
    (log.note s (.visit v) s').Stage s.config v
      { visit with connection := { visit.connection with inbound }, phase := .creating } := by
  obtain ⟨hlooked, hmade⟩ : (log.note s (.visit v) s').looked v = log.looked v ∧
      (log.note s (.visit v) s').made v = log.made v :=
    unnoted hvisit (by simp [hphase]) (by simp [hphase])
  simp only [Stage, hphase] at h
  obtain ⟨hnone, hinbound, files, hfiles, hsecret⟩ := h
  refine ⟨hmade.trans hnone, files, _, hlooked.trans hfiles, hsecret, ?_⟩
  rw [came_visit, ← hinbound]
  exact hauth

lemma refuse {secret : Option String} {e : AuthenticationError} {inbound : Delivery}
    (hvisit : s.visits[v]? = some visit) (hphase : visit.phase = .authenticating secret)
    (hauth : Handshake.authenticate s.config.coding secret visit.connection.inbound =
      (.error e, inbound)) (h : log.Stage s.config v visit) :
    (log.note s (.visit v) s').Stage s.config v
      { visit with connection := { visit.connection with inbound }, phase := .ended } := by
  have hlooked : (log.note s (.visit v) s').looked v = log.looked v :=
    (unnoted hvisit (by simp [hphase]) (by simp [hphase])).1
  simp only [Stage, hphase] at h
  obtain ⟨-, hinbound, files, hfiles, hsecret⟩ := h
  intro _ files' hfiles' secret' hsecret' rest
  rw [hlooked, hfiles, Option.some.injEq] at hfiles'
  rw [← hfiles', hsecret, Except.ok.injEq] at hsecret'
  rw [came_visit, ← hinbound, ← hsecret', hauth]
  simp

/-- What comes is noted as long as the visit lasts, and goes to the end of what is to be read. -/
lemma arrive {c : Config} (arrival : Arrival) (hvisit : s.visits[v]? = some visit)
    (hnone : visit.session? = none) (h : log.Stage c v visit) :
    (log.note s (.deliver v arrival) s').Stage c v
      { visit with connection := visit.connection.arrive arrival } := by
  have hlooked : (log.note s (.deliver v arrival) s').looked v = log.looked v :=
    looked_note (by simp [stepping?])
  have hmade : (log.note s (.deliver v arrival) s').made v = log.made v :=
    made_note (by simp [stepping?])
  have hcame : visit.phase ≠ .ended → (log.note s (.deliver v arrival) s').came v =
      log.came v ++ .arrived arrival := by
    intro hphase
    simp [note, brings, hvisit, hphase]
  unfold Stage at h ⊢
  cases hphase : visit.phase with
  | queued | loading =>
    simp only [hphase] at h
    simp only [hlooked, hmade, hcame (by simp [hphase]), Connection.inbound_arrive, h, and_self]
  | authenticating secret =>
    simp only [hphase] at h
    simp only [hlooked, hmade, hcame (by simp [hphase]), Connection.inbound_arrive, h, true_and]
  | creating =>
    simp only [hphase] at h
    obtain ⟨hunmade, files, secret, hfiles, hsecret, hauth⟩ := h
    refine ⟨hmade.trans hunmade, files, secret, hlooked.trans hfiles, hsecret, ?_⟩
    rw [hcame (by simp [hphase]), Connection.inbound_arrive]
    exact Handshake.authenticate_append hauth (by simp) _
  | entering | serving => simp [Visit.session?, hphase] at hnone
  | ended =>
    simp only [hphase] at h
    intro hunmade
    rw [hmade] at hunmade
    have hnil : s.brings log v (.deliver v arrival) = [] := by simp [brings, hvisit, hphase]
    rw [came_note hnil, hlooked]
    exact h hunmade

/-- A step takes what is known of a connection along with its visit. -/
lemma passes {c : Config} (hconfig : s.config = c) (hvisit : s.visits[v]? = some visit)
    (hpass : s.Passes v action visit visit') (h : log.Stage c v visit) :
    (log.note s action s').Stage c v visit' := by
  subst hconfig
  cases hpass with
  | still haction hdeliver =>
    have elsewhere : ∀ phase, s.stepping? phase action ≠ some v :=
      fun phase heq => haction (stepping?_eq_some.1 heq).1
    refine stage_of (looked_note (elsewhere _)) (made_note (elsewhere _)) ?_ h
    intro hmade hnone
    exact came_note (brings_eq_nil hmade fun arrival heq => absurd hnone (hdeliver arrival heq))
  | @accept j _ hphase | @drop j _ hphase =>
    obtain ⟨hlooked, hmade⟩ : (log.note s (.loop j) s').looked v = log.looked v ∧
        (log.note s (.loop j) s').made v = log.made v :=
      unnoted hvisit (by simp [hphase]) (by simp [hphase])
    have hcame : (log.note s (.loop j) s').came v = log.came v := came_note rfl
    simp only [Stage, hphase] at h
    simp [Stage, hlooked, hmade, hcame, h]
  | load secret hphase hload => exact h.load hvisit hphase hload
  | fail e hphase hload => exact fail hvisit hphase hload
  | pass hphase hauth => exact h.pass hvisit hphase hauth
  | refuse hphase hauth => exact h.refuse hvisit hphase hauth
  | create hphase => exact made_visit hvisit hphase
  | serve hphase =>
    simp only [Stage, hphase] at h
    exact (unnoted hvisit (by simp [hphase]) (by simp [hphase])).2.trans h
  | leave hphase =>
    have hmade : (log.note s (.visit v) s').made v = log.made v :=
      (unnoted hvisit (by simp [hphase]) (by simp [hphase])).2
    simp only [Stage, hphase] at h
    intro hnone
    rw [hmade, h] at hnone
    cases hnone
  | arrive arrival hnone => exact h.arrive arrival hvisit hnone
  | endInput hnone hopen =>
    exact stage_of (looked_note (by simp [stepping?])) (made_note (by simp [stepping?]))
      (fun _ _ => came_note rfl) h

end Log.Stage

end visits

section sessions

variable {log log' : Log} {c : Config} {session : Session} {a : EvalServer.Action}

/-- What is known of a session that has been made for a connection: its reader has told the control
loop of the first frames that follow what the handshake has read, and what it has not read yet is
what follows them. -/
def Log.Attends (log : Log) (c : Config) (v i : Nat) (session : Session) : Prop :=
  ∃ files secret stream, log.looked v = some files ∧
    Handshake.loadSecret files c.secretFile = .ok secret ∧
    Handshake.authenticate c.coding secret (log.came v) = (.ok (), stream) ∧
    session.host.coding = c.coding ∧ ∃ vs rest,
      Frame.readAll c.coding vs.length stream = (vs, none, rest) ∧
      log.heard i = vs.map (fun x => .client (.ofSexp x)) ∧
      (session.reader ≠ .ended → session.connection.inbound = rest)

lemma Log.Attends.same {session' : Session} (hcame : log'.came v = log.came v)
    (hlooked : log'.looked v = log.looked v) (hheard : log'.heard i = log.heard i)
    (hhost : session'.host = session.host)
    (hinbound : session'.connection.inbound = session.connection.inbound)
    (hreader : session.reader = .ended → session'.reader = .ended)
    (h : log.Attends c v i session) : log'.Attends c v i session' := by
  obtain ⟨files, secret, stream, hfiles, hsecret, hauth, hcoding, vs, rest, hread, hvs, hrest⟩ := h
  refine ⟨files, secret, stream, hlooked.trans hfiles, hsecret, hcame ▸ hauth, ?_, vs, rest, hread,
    hheard.trans hvs, fun hne => ?_⟩
  · rw [hhost, hcoding]
  · rw [hinbound, hrest fun h => hne (hreader h)]

/-- What an action of a session brings to its connection. -/
def delivered : EvalServer.Action → Delivery
  | .deliver arrival => .arrived arrival
  | _ => []

/-- What the reader tells the control loop in a step. -/
def told (w : World) (a : EvalServer.Action) (w' : World) : List Message :=
  match a with
  | .reader => w'.controlQueue.drop w.controlQueue.length
  | _ => []

/-- A step of a session takes along what is known of it. -/
lemma Log.Attends.act (hdraws : w.Draws a w') (hhost : w'.session.host = w.session.host)
    (hcame : log'.came v = log.came v ++ delivered a) (hlooked : log'.looked v = log.looked v)
    (hheard : log'.heard i = log.heard i ++ told w a w') (h : log.Attends c v i w.session) :
    log'.Attends c v i w'.session := by
  cases hdraws with
  | still haction hinbound hreader _ hqueue =>
    refine h.same ?_ hlooked ?_ hhost hinbound hreader
    · rw [hcame]
      cases a with
      | deliver arrival => exact absurd rfl (haction arrival)
      | _ => exact List.append_nil _
    · rw [hheard]
      cases a with
      | reader => rw [told, hqueue rfl, List.drop_length, List.append_nil]
      | _ => exact List.append_nil _
  | arrive hinbound hreader =>
    obtain ⟨files, secret, stream, hfiles, hsecret, hauth, hcoding, vs, rest, hread, hvs,
      hrest⟩ := h
    have hall := Handshake.authenticate_append hauth (by simp)
    refine ⟨files, secret, _, hlooked.trans hfiles, hsecret, hcame ▸ hall _, ?_, vs, _,
      Frame.readAll_append hread _, ?_, fun hne => ?_⟩
    · rw [hhost, hcoding]
    · rw [hheard, hvs]
      exact List.append_nil _
    · rw [hinbound, Connection.inbound_arrive, hrest (hreader ▸ hne)]
      rfl
  | @hear x rest' _ hreading hread' hinbound hreader hqueue =>
    obtain ⟨files, secret, stream, hfiles, hsecret, hauth, hcoding, vs, rest, hread, hvs,
      hrest⟩ := h
    have hnext : Frame.readAll c.coding 1 rest = ([x], none, rest') := by
      rw [hrest (by simp [hreading]), hcoding] at hread'
      simp only [Frame.readAll, hread']
    refine ⟨files, secret, stream, hlooked.trans hfiles, hsecret, ?_, ?_, vs ++ [x], rest', ?_, ?_,
      fun _ => hinbound⟩
    · rw [hcame]
      exact (List.append_nil (log.came v)).symm ▸ hauth
    · rw [hhost, hcoding]
    · rw [List.length_append, List.length_singleton, Frame.readAll_add hread 1, hnext]
    · rw [hheard, hvs, told, hqueue, List.drop_left, List.map_append]
      rfl
  | stop hreader hqueue =>
    obtain ⟨files, secret, stream, hfiles, hsecret, hauth, hcoding, vs, rest, hread, hvs,
      hrest⟩ := h
    refine ⟨files, secret, stream, hlooked.trans hfiles, hsecret, ?_, ?_, vs, rest, hread, ?_,
      fun hne => absurd hreader hne⟩
    · rw [hcame]
      exact (List.append_nil (log.came v)).symm ▸ hauth
    · rw [hhost, hcoding]
    · rw [hheard, told, hqueue, List.drop_length, List.append_nil, hvs]

end sessions

/-- The log is right about all connections and sessions. -/
structure Log.Right (log : Log) (c : Config) (s : Server) : Prop where
  orderly : s.Orderly
  config : s.config = c
  stage : ∀ (v : Nat) (visit : Visit), s.visits[v]? = some visit → log.Stage c v visit
  later : ∀ v, s.visits.length ≤ v →
    log.came v = [] ∧ log.looked v = none ∧ log.made v = none
  attends : ∀ v i, log.made v = some i →
    ∃ w, s.world? i = some w ∧ log.Attends c v i w.session
  alone : ∀ u v i, log.made u = some i → log.made v = some i → u = v
  all : ∀ i < s.sessions.length, ∃ v, log.made v = some i
  unheard : ∀ i, s.sessions.length ≤ i → log.heard i = []
  fine : ∀ v, .bytes [] ∉ log.came v
  silent : ∀ (v : Nat) (visit : Visit), s.visits[v]? = some visit → visit.connection.outbound = []

section steps

variable {log : Log} {c : Config} {a : EvalServer.Action}

lemma Log.Stage.made_of_session (hstage : log.Stage c v visit) (hi : visit.session? = some i) :
    log.made v = some i := by
  unfold Stage at hstage
  unfold Visit.session? at hi
  split at hi
  · next hphase => simpa only [hphase, Option.some.injEq, ← Option.some.inj hi] using hstage
  · next hphase => simpa only [hphase, Option.some.injEq, ← Option.some.inj hi] using hstage
  · cases hi

lemma Log.Stage.session_of_made (hstage : log.Stage c v visit) (hmade : log.made v = some i)
    (hphase : visit.phase ≠ .ended) : visit.session? = some i := by
  unfold Stage at hstage
  unfold Visit.session?
  cases hvisit : visit.phase with
  | queued | loading | authenticating | creating =>
    simp only [hvisit] at hstage
    rw [hmade] at hstage
    cases hstage.1
  | entering | serving =>
    simp only [hvisit] at hstage
    exact hstage.symm.trans hmade
  | ended => exact absurd hvisit hphase

/-- What an action brings to a connection comes into the session that has it. -/
lemma Log.Right.brings_inner (hright : log.Right c s) (hmade : log.made v = some i)
    (hinner : s.Inner action i a) : s.brings log v action = delivered a := by
  cases hinner with
  | session => cases a <;> simp [brings, delivered, hmade]
  | endInput => rfl
  | @deliver u _ visit arrival hvisit hi =>
    have hu : log.made u = some i := (hright.stage u visit hvisit).made_of_session hi
    obtain rfl := hright.alone u v i hu hmade
    have hopen : visit.phase ≠ .ended := by
      intro hended
      simp [Visit.session?, hended] at hi
    simp [brings, delivered, hvisit, hopen]

lemma Log.Right.brings_outer (hright : log.Right c s) (hmade : log.made v = some i)
    (houter : ∀ a, ¬ s.Inner action i a) : s.brings log v action = [] := by
  unfold brings
  split
  · next u arrival =>
    refine if_neg ?_
    rintro ⟨rfl, hopen⟩
    obtain ⟨visit, hvisit, hphase⟩ := (Option.any_eq_true _ _).1 hopen
    have hi := (hright.stage u visit hvisit).session_of_made hmade (of_decide_eq_true hphase)
    exact houter _ (.deliver arrival hvisit hi)
  · next j arrival =>
    refine if_neg fun hj => ?_
    rw [hmade, Option.some.injEq] at hj
    subst hj
    exact houter _ (.session i (.deliver arrival))
  · rfl

lemma controlQueue_eq (hw : s.world? i = some w) : s.controlQueue i = w.controlQueue := by
  rw [controlQueue, hw]
  rfl

lemma forwards_inner (hw : s.world? i = some w) (hw' : s'.world? i = some w')
    (hinner : s.Inner action i a) : s.forwards s' i action = told w a w' := by
  cases hinner with
  | session =>
    cases a <;> simp [forwards, told, controlQueue_eq hw, controlQueue_eq hw']
  | deliver | endInput => rfl

lemma forwards_outer (houter : ∀ a, ¬ s.Inner action i a) : s.forwards s' i action = [] := by
  unfold forwards
  split
  · next j =>
    refine if_neg ?_
    rintro rfl
    exact houter _ (.session j _)
  · rfl

/-- A session that was there goes on from where it was. -/
lemma Log.Right.attends_step (hright : log.Right c s) (h : s.step? action = some s')
    (hmade : log.made v = some i) : ∃ w', s'.world? i = some w' ∧
      (log.note s action s').Attends c v i w'.session := by
  obtain ⟨w, hw, hattends⟩ := hright.attends v i hmade
  have hlt : i < s.sessions.length := world?_isSome.1 ⟨w, hw⟩
  obtain ⟨w', hw'⟩ := world?_isSome.2 (Nat.lt_of_lt_of_le hlt (length_le (step_stirs h).1))
  refine ⟨w', hw', ?_⟩
  have hlooked : (log.note s action s').looked v = log.looked v := by
    refine looked_note fun hstepping => ?_
    obtain ⟨-, visit, hvisit, hphase⟩ := stepping?_eq_some.1 hstepping
    have hi := (hright.stage v visit hvisit).session_of_made hmade (by simp [hphase])
    simp [Visit.session?, hphase] at hi
  have hworld := hright.orderly.session i w hw
  -- whatever does not step inside the session leaves its connection and its reader alone
  have outer : (∀ a, ¬ s.Inner action i a) → w'.session.host = w.session.host →
      w'.session.connection = w.session.connection → w'.session.reader = w.session.reader →
      (log.note s action s').Attends c v i w'.session := by
    intro houter hhost hconnection hreader
    refine hattends.same (came_note (hright.brings_outer hmade houter)) hlooked ?_ hhost
      (by rw [hconnection]) hreader.trans
    change log.heard i ++ s.forwards s' i action = log.heard i
    rw [forwards_outer houter, List.append_nil]
  rcases step_world h hw' with ⟨w₀, hw₀, hturned⟩ | ⟨-, -, -, -, -, hi, -⟩
  · obtain rfl : w = w₀ := Option.some.inj (hw.symm.trans hw₀)
    cases hturned with
    | rest houter => exact outer houter rfl rfl rfl
    | start haction =>
      subst haction
      exact outer (by rintro a ⟨⟩) rfl rfl rfl
    | close haction hclose =>
      subst haction
      obtain ⟨-, _, _, _, _, _, _, _, _, hsession, -⟩ := World.closeStep_frame hclose
      refine outer ?_ ?_ ?_ ?_
      · rintro a ⟨⟩
      all_goals rw [hsession]
    | act hinner hstep =>
      obtain ⟨hdraws, hhost⟩ := World.step_draws hworld.sound hworld.staged hstep
      refine hattends.act hdraws hhost ?_ hlooked ?_
      · rw [← hright.brings_inner hmade hinner]
        rfl
      · rw [← forwards_inner hw hw' hinner]
        rfl
  · exact absurd hi (Nat.ne_of_lt hlt)

lemma Log.made_cases (h : (log.note s action s').made v = some i) : log.made v = some i ∨
    action = .visit v ∧ i = s.sessions.length ∧
      ∃ visit, s.visits[v]? = some visit ∧ visit.phase = .creating := by
  by_cases hstepping : s.stepping? .creating action = some v
  · obtain ⟨haction, hvisit⟩ := stepping?_eq_some.1 hstepping
    have hnew : some s.sessions.length = some i := (if_pos hstepping).symm.trans h
    exact .inr ⟨haction, (Option.some.inj hnew).symm, hvisit⟩
  · rw [made_note hstepping] at h
    exact .inl h

lemma Log.Right.made_kept (hright : log.Right c s) (h : log.made v = some i) :
    (log.note s action s').made v = some i := by
  rw [made_note, h]
  intro hstepping
  obtain ⟨-, visit, hvisit, hphase⟩ := stepping?_eq_some.1 hstepping
  have hi := (hright.stage v visit hvisit).session_of_made h (by simp [hphase])
  simp [Visit.session?, hphase] at hi

lemma Log.Right.lt_of_made (hright : log.Right c s) (h : log.made v = some i) :
    i < s.sessions.length := by
  obtain ⟨w, hw, -⟩ := hright.attends v i h
  exact world?_isSome.1 ⟨w, hw⟩

lemma lt_of_inner (h : s.step? action = some s') (hinner : s.Inner action i a) :
    i < s.sessions.length := by
  cases (step_stirs h).1 with
  | still hnone => exact absurd hinner (hnone i a)
  | act hinner' hw =>
    rw [(hinner.unique hinner').1]
    exact world?_isSome.1 ⟨_, hw⟩
  | start | close | make => cases hinner

/-- A session that is made finds all that has come after what the handshake has read. -/
lemma Log.Right.attends_made (hright : log.Right c s) (h : s.step? (.visit v) = some s')
    (hvisit : s.visits[v]? = some visit) (hphase : visit.phase = .creating) :
    ∃ w, s'.world? s.sessions.length = some w ∧
      (log.note s (.visit v) s').Attends c v s.sessions.length w.session := by
  have hlt : s.sessions.length < s'.sessions.length := by
    rw [length_create h hvisit hphase]
    exact Nat.lt_succ_self _
  obtain ⟨w', hw'⟩ := world?_isSome.2 hlt
  refine ⟨w', hw', ?_⟩
  rcases step_world h hw' with ⟨w, hw, -⟩ | ⟨u, visit', haction, hvisit', -, -, hmade⟩
  · exact absurd (world?_isSome.1 ⟨w, hw⟩) (Nat.lt_irrefl _)
  · cases haction
    obtain rfl : visit = visit' := Option.some.inj (hvisit.symm.trans hvisit')
    have hget := (world?_eq_some.1 hmade).1
    simp only [createSession, List.getElem?_concat_length, Option.some.injEq] at hget
    have hstage := hright.stage v visit hvisit
    simp only [Stage, hphase] at hstage
    obtain ⟨-, files, secret, hfiles, hsecret, hauth⟩ := hstage
    refine ⟨files, secret, visit.connection.inbound, ?_, hsecret, ?_, ?_, [], _, rfl, ?_,
      fun _ => ?_⟩
    · rw [looked_note (stepping?_of_phase hvisit (by simp [hphase])), hfiles]
    · rw [came_note rfl, hauth]
    · rw [← hget, ← hright.config]
      rfl
    · exact (List.append_nil _).trans (hright.unheard _ (Nat.le_refl _))
    · rw [← hget]

lemma brings_fine (log : Log) (v : Nat) (action : Action) : .bytes [] ∉ s.brings log v action := by
  have arrived_fine : ∀ arrival, .bytes [] ∉ Delivery.arrived arrival := by
    intro arrival
    unfold Delivery.arrived
    split
    · exact List.not_mem_nil
    · next hne => exact fun hmem => hne (List.mem_singleton.1 hmem).symm
  unfold brings
  split
  · split
    · exact arrived_fine _
    · exact List.not_mem_nil
  · split
    · exact arrived_fine _
    · exact List.not_mem_nil
  · exact List.not_mem_nil

lemma Log.Right.step (hright : log.Right c s) (h : s.step? action = some s') :
    (log.note s action s').Right c s' := by
  have hlength := length_le (step_stirs h).1
  have unknown : ∀ v, s.visits.length ≤ v → ∀ phase, s.stepping? phase action ≠ some v := by
    intro v hv phase hstepping
    obtain ⟨-, visit, hvisit, -⟩ := stepping?_eq_some.1 hstepping
    rw [List.getElem?_eq_none hv] at hvisit
    cases hvisit
  constructor
  case orderly => exact hright.orderly.step h
  case config => exact (step_stirs h).2.trans hright.config
  case stage =>
    intro v visit' hvisit'
    rcases step_passes h hvisit' with ⟨visit, hvisit, hpass⟩ | ⟨loop, rfl, rfl, rfl⟩
    · exact (hright.stage v visit hvisit).passes hright.config hvisit hpass
    · obtain ⟨hcame, hlooked, hmade⟩ := hright.later _ (Nat.le_refl _)
      exact ⟨hmade, hlooked, ((came_note rfl).trans hcame).symm⟩
  case later =>
    intro v hv
    replace hv := Nat.le_trans (length_visits h) hv
    obtain ⟨hcame, hlooked, hmade⟩ := hright.later v hv
    refine ⟨(came_note (brings_eq_nil hmade ?_)).trans hcame,
      (looked_note (unknown v hv _)).trans hlooked, (made_note (unknown v hv _)).trans hmade⟩
    intro _ _ visit hvisit
    rw [List.getElem?_eq_none hv] at hvisit
    cases hvisit
  case attends =>
    intro v i hmade
    rcases made_cases hmade with hold | ⟨rfl, rfl, visit, hvisit, hphase⟩
    · exact hright.attends_step h hold
    · exact hright.attends_made h hvisit hphase
  case alone =>
    intro u v i hu hv
    rcases made_cases hu with hu | ⟨rfl, hi, -⟩
    · rcases made_cases hv with hv | ⟨-, hi, -⟩
      · exact hright.alone u v i hu hv
      · exact absurd hi (Nat.ne_of_lt (hright.lt_of_made hu))
    · rcases made_cases hv with hv | ⟨haction, -⟩
      · exact absurd hi (Nat.ne_of_lt (hright.lt_of_made hv))
      · cases haction
        rfl
  case all =>
    intro i hi
    rcases Nat.lt_or_ge i s.sessions.length with hlt | hge
    · obtain ⟨v, hmade⟩ := hright.all i hlt
      exact ⟨v, hright.made_kept hmade⟩
    · obtain ⟨w', hw'⟩ := world?_isSome.2 hi
      rcases step_world h hw' with ⟨w, hw, -⟩ | ⟨v, visit, rfl, hvisit, hphase, rfl, -⟩
      · exact absurd (world?_isSome.1 ⟨w, hw⟩) (Nat.not_lt_of_le hge)
      · exact ⟨v, if_pos (stepping?_eq_some.2 ⟨rfl, visit, hvisit, hphase⟩)⟩
  case unheard =>
    intro i hi
    replace hi := Nat.le_trans hlength hi
    change log.heard i ++ s.forwards s' i action = []
    rw [hright.unheard i hi, forwards_outer fun a hinner =>
      Nat.not_lt_of_le hi (lt_of_inner h hinner)]
    rfl
  case silent =>
    intro v visit' hvisit'
    rcases step_passes h hvisit' with ⟨visit, hvisit, hpass⟩ | ⟨loop, rfl, rfl, rfl⟩
    · have hbefore := hright.silent v visit hvisit
      cases hpass with
      | arrive arrival => exact (visit.connection.outbound_arrive arrival).trans hbefore
      | _ => exact hbefore
    · rfl
  case fine =>
    intro v hmem
    rcases List.mem_append.1 hmem with hold | hnew
    · exact hright.fine v hold
    · exact brings_fine log v action hnew

lemma New.log_right (h : s.New) : Log.Right {} s.config s where
  orderly := h.orderly
  config := rfl
  stage v visit hvisit := by simp [h.visits] at hvisit
  later _ _ := ⟨rfl, rfl, rfl⟩
  attends _ _ hmade := by cases hmade
  alone _ _ _ hmade := by cases hmade
  all i hi := by simp [h.sessions] at hi
  unheard _ _ := rfl
  fine _ hmem := by cases hmem
  silent v visit hvisit := by simp [h.visits] at hvisit

end steps

section gate

variable {log : Log} {c : Config}

/-- A visit that can do nothing more has its session exactly if the handshake has succeeded. -/
lemma Log.Right.made_iff (hright : log.Right c s) (hvisit : s.visits[v]? = some visit)
    (hrest : s.visitStep? v = none) {files : File.Store} {secret : Option String}
    (hfiles : log.looked v = some files)
    (hsecret : Handshake.loadSecret files c.secretFile = .ok secret) :
    (∃ i, log.made v = some i) ↔
      ∃ rest, Handshake.authenticate c.coding secret (log.came v) = (.ok (), rest) := by
  constructor
  · rintro ⟨i, hmade⟩
    obtain ⟨w, -, files', secret', stream, hfiles', hsecret', hauth, -⟩ := hright.attends v i hmade
    obtain rfl := Option.some.inj (hfiles.symm.trans hfiles')
    obtain rfl := Except.ok.inj (hsecret.symm.trans hsecret')
    exact ⟨stream, hauth⟩
  · rintro ⟨rest, hauth⟩
    have hstage := hright.stage v visit hvisit
    unfold Stage at hstage
    cases hphase : visit.phase with
    | queued =>
      simp only [hphase] at hstage
      rw [hstage.2.1] at hfiles
      cases hfiles
    | loading =>
      simp only [visitStep?, hvisit, hphase, Option.bind_eq_bind, Option.bind_some,
        Option.pure_def] at hrest
      split at hrest <;> cases hrest
    | authenticating secret' =>
      simp only [hphase] at hstage
      obtain ⟨-, hinbound, files', hfiles', hsecret'⟩ := hstage
      obtain rfl := Option.some.inj (hfiles.symm.trans hfiles')
      obtain rfl := Except.ok.inj (hsecret.symm.trans hsecret')
      rw [← hinbound, ← hright.config] at hauth
      simp [visitStep?, hvisit, hphase, authenticate?, hauth] at hrest
    | creating => simp [visitStep?, hvisit, hphase] at hrest
    | entering i | serving i =>
      simp only [hphase] at hstage
      exact ⟨i, hstage⟩
    | ended =>
      simp only [hphase] at hstage
      refine Option.ne_none_iff_exists'.1 fun hnone => ?_
      exact hstage hnone files hfiles secret hsecret rest hauth

/-- A visit without a session that makes none leaves the sessions and their image alone. -/
lemma Log.Stage.idle (hstage : log.Stage c v visit) (hmade : log.made v = none)
    (hvisit : s.visits[v]? = some visit) (hphase : visit.phase ≠ .creating)
    (h : s.step? (.visit v) = some s') :
    s'.sessions = s.sessions ∧ s'.image = s.image ∧ s'.entered = s.entered := by
  simp only [step?, visitStep?, hvisit, Option.bind_eq_bind, Option.bind_some,
    Option.pure_def] at h
  unfold Stage at hstage
  cases hvisited : visit.phase with
  | queued | ended => simp [hvisited] at h
  | loading =>
    simp only [hvisited] at h
    split at h <;> cases h <;> exact ⟨rfl, rfl, rfl⟩
  | authenticating secret =>
    simp only [hvisited, authenticate?] at h
    split at h
    · cases h
      exact ⟨rfl, rfl, rfl⟩
    · split at h <;> cases h
      exact ⟨rfl, rfl, rfl⟩
  | creating => exact absurd hvisited hphase
  | entering | serving =>
    simp only [hvisited] at hstage
    rw [hmade] at hstage
    cases hstage

/-- What the handshake does for a connection. -/
structure Gated (c : Config) (log : Log) (s : Server) (v : Nat) (visit : Visit) : Prop where
  /-- With a secret, a session is made exactly if the secret is presented. -/
  session_iff : ∀ files secret, log.looked v = some files →
    Handshake.Loads files c.secretFile (.ok (some secret)) → s.visitStep? v = none →
    ((∃ i, log.made v = some i) ↔
      ∃ rest, Handshake.Presents c.coding secret (log.came v) rest)
  /-- Of all strings that can be sent only the secret is accepted, whatever follows. -/
  presented_iff : ∀ files secret, log.looked v = some files →
    Handshake.Loads files c.secretFile (.ok (some secret)) → s.visitStep? v = none →
    ∀ (presented : String) (frame after : List UInt8) (front more : Delivery),
      Frame.encode c.coding (.str presented) = .ok frame → log.came v = front ++ more →
      front.Smooth → front.content = frame ++ after →
      ((∃ i, log.made v = some i) ↔ presented = secret)
  /-- Without a secret, every connection gets a session. -/
  session_free : ∀ files, log.looked v = some files →
    Handshake.Loads files c.secretFile (.ok none) → s.visitStep? v = none →
    ∃ i, log.made v = some i
  /-- While the secret cannot be read, no connection gets one. -/
  refused : ∀ files e, log.looked v = some files →
    Handshake.Loads files c.secretFile (.error e) → log.made v = none
  /-- The messages of a session are the frames after the one with the secret, or all of them if
  there is no secret. -/
  consumed : ∀ i, log.made v = some i → ∃ files stream, log.looked v = some files ∧
    (Handshake.Loads files c.secretFile (.ok none) ∧ stream = log.came v ∨
      ∃ secret, Handshake.Loads files c.secretFile (.ok (some secret)) ∧
        Handshake.Presents c.coding secret (log.came v) stream) ∧
    ∃ w vs rest, s.world? i = some w ∧
      Frame.readAll c.coding vs.length stream = (vs, none, rest) ∧
      log.heard i = vs.map (fun x => .client (.ofSexp x)) ∧
      (w.session.reader ≠ .ended → w.session.connection.inbound = rest)
  /-- A visit sends nothing. -/
  silent : visit.connection.outbound = []
  /-- Before its session is made, a visit changes no session and no mailbox. -/
  idle : log.made v = none → visit.phase ≠ .creating → ∀ s', s.step? (.visit v) = some s' →
    s'.sessions = s.sessions ∧ s'.image = s.image ∧ s'.entered = s.entered

lemma Log.Right.gated (hright : log.Right c s) (hvisit : s.visits[v]? = some visit) :
    Gated c log s v visit := by
  have hpasses : ∀ files secret, log.looked v = some files →
      Handshake.Loads files c.secretFile (.ok (some secret)) → s.visitStep? v = none →
      ((∃ i, log.made v = some i) ↔
        ∃ rest, Handshake.Presents c.coding secret (log.came v) rest) := by
    intro files secret hfiles hloads hrest
    rw [hright.made_iff hvisit hrest hfiles (Handshake.loadSecret_iff.2 hloads),
      Handshake.passes_iff (hright.fine v)]
  constructor
  case session_iff => exact hpasses
  case presented_iff =>
    intro files secret hfiles hloads hrest presented frame after front more hframe hcame hfront
      hcontent
    rw [hpasses files secret hfiles hloads hrest, hcame]
    exact Handshake.presents_iff_of_frame hframe hfront hcontent more
  case session_free =>
    intro files hfiles hloads hrest
    exact (hright.made_iff hvisit hrest hfiles (Handshake.loadSecret_iff.2 hloads)).2 ⟨_, rfl⟩
  case refused =>
    intro files e hfiles hloads
    by_contra hmade
    obtain ⟨i, hmade⟩ := Option.ne_none_iff_exists'.1 hmade
    obtain ⟨w, -, files', secret, stream, hfiles', hsecret, -⟩ := hright.attends v i hmade
    obtain rfl := Option.some.inj (hfiles.symm.trans hfiles')
    rw [Handshake.loadSecret_iff.2 hloads] at hsecret
    cases hsecret
  case consumed =>
    intro i hmade
    obtain ⟨w, hw, files, secret, stream, hfiles, hsecret, hauth, -, vs, rest, hread⟩ :=
      hright.attends v i hmade
    refine ⟨files, stream, hfiles, ?_, w, vs, rest, hw, hread⟩
    rw [Handshake.loadSecret_iff] at hsecret
    cases secret with
    | none =>
      cases hauth
      exact .inl ⟨hsecret, rfl⟩
    | some secret =>
      rw [Handshake.authenticate_eq_ok] at hauth
      exact .inr ⟨secret, hsecret, Handshake.presents_of_read (hright.fine v) hauth⟩
  case silent => exact hright.silent v visit hvisit
  case idle =>
    intro hmade hphase s' h
    exact (hright.stage v visit hvisit).idle hmade hvisit hphase h

end gate

/-- Whatever a server and its clients do: every session has been made for one connection, on which
the secret has been presented if there is one; and no connection is read beyond that. -/
theorem handshake_gates {s₀ : Server} {actions : List Action} (hnew : s₀.New)
    (hrun : s₀.run? actions = some s) :
    (∀ v visit, s.visits[v]? = some visit → Gated s₀.config (s₀.log actions) s v visit) ∧
    (∀ i, i < s.sessions.length ↔ ∃ v, (s₀.log actions).made v = some i) ∧
    ∀ u v i, (s₀.log actions).made u = some i → (s₀.log actions).made v = some i → u = v := by
  have hright : (s₀.log actions).Right s₀.config s :=
    recorded_induction (P := fun s (log : Log) => log.Right s₀.config s) hnew.log_right
      (fun _ _ _ _ h hstep => h.step hstep) hrun
  refine ⟨fun v visit hvisit => hright.gated hvisit, fun i => ⟨hright.all i, ?_⟩, hright.alone⟩
  rintro ⟨v, hmade⟩
  exact hright.lt_of_made hmade

/-- A server with a secret, in a file of two lines. -/
def guarded : Server :=
  { sample with
    config := { sample.config with secretFile := some "/secret" }
    image := { files :=
      ({} : File.Store).putFile ["secret"] (Text.Utf8.encode "abc\r\nrest".toList) } }

/-- One client presents the secret in pieces and goes on with a request; another presents a symbol
of the same name. -/
def guardedVisits : List Action :=
  sampleListening ++ [.connect 0, .loop 0, .connect 0, .loop 0, .visit 0, .visit 1,
    .deliver 0 (.bytes (Text.Utf8.encode "000005\"a".toList)), .deliver 0 .interrupted,
    .deliver 0 (.bytes (Text.Utf8.encode "bc\"000004(:p)".toList)), sampleMessage 1 "abc"] ++
    List.replicate 3 (.visit 0) ++ [.visit 1] ++ List.replicate 5 (.session 0 .serve) ++
    List.replicate 2 (.session 0 .reader)

theorem handshake_gates_guarded : ∃ s visit, guarded.run? guardedVisits = some s ∧
    s.visits[1]? = some visit ∧ visit.phase = .ended ∧
    Gated guarded.config (guarded.log guardedVisits) s 1 visit ∧
    (guarded.log guardedVisits).made 0 = some 0 ∧ (guarded.log guardedVisits).made 1 = none ∧
    ((guarded.log guardedVisits).heard 0).length = 1 ∧ s.sessions.length = 1 := by
  have hall : (guarded.run? guardedVisits).any (fun s => s.sessions.length = 1 ∧
      (s.visits[1]?).any (·.phase = .ended)) = true := by
    decide +kernel
  obtain ⟨s, hrun, hshows⟩ := (Option.any_eq_true _ _).1 hall
  obtain ⟨hlength, hended⟩ := of_decide_eq_true hshows
  obtain ⟨visit, hvisit, hphase⟩ := (Option.any_eq_true _ _).1 hended
  have hnew : guarded.New := ⟨rfl, rfl, rfl, rfl, rfl, rfl, rfl, rfl⟩
  obtain ⟨hgated, -, -⟩ := handshake_gates hnew hrun
  exact ⟨s, visit, hrun, hvisit, of_decide_eq_true hphase, hgated 1 visit hvisit,
    by decide +kernel, by decide +kernel, by decide +kernel, hlength⟩

end Server

end EvalServer
