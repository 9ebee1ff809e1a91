import EvalServer.Session.Quit
import Mathlib.Tactic.Lemma

/-!
# Waiting for the quit signal

Any number of tasks wait for the signal and any number request it, each in steps of its own between
which the others may take any of theirs. Since a waiter makes itself known before it looks at the
flag, and a request sets the flag before it wakes anybody, no waiter sleeps through a request.
-/

namespace EvalServer

/-- What a request to quit does next. -/
inductive QuitRequest where
  | setting
  | waking
  | done
  deriving DecidableEq

/-- The quit signal with those who wait for it and those who request it. -/
structure QuitScene where
  signal : QuitSignal := {}
  requests : List QuitRequest := []
  deriving DecidableEq

inductive QuitMove where
  | beginWait
  | beginRequest
  | waiter (index : Nat)
  | request (index : Nat)
  deriving DecidableEq

/-- How many steps a waiter has to take once the flag is set. -/
def QuitWaiter.stepsLeft : QuitWaiter → Nat
  | .returned => 0
  | .known _ => 1
  | .starting => 2
  | .asleep _ => 3

namespace QuitWaiter

lemma stepsLeft_eq_zero_iff {waiter : QuitWaiter} : waiter.stepsLeft = 0 ↔ waiter = .returned := by
  cases waiter <;> simp [stepsLeft]

@[simp] lemma stepsLeft_wake (waiter : QuitWaiter) : waiter.wake.stepsLeft = waiter.stepsLeft := by
  cases waiter <;> rfl

lemma wake_ne_asleep (waiter : QuitWaiter) : waiter.wake ≠ .asleep false := by
  cases waiter <;> simp [wake]

lemma eq_returned_of_wake {waiter : QuitWaiter} (h : waiter.wake = .returned) :
    waiter = .returned := by
  cases waiter <;> simp [wake] at h ⊢

end QuitWaiter

namespace QuitSignal

variable {waiter next : QuitWaiter}

/-- Once the flag is set a waiter falls asleep no more, and each of its steps counts. -/
lemma advance_requested (h : advance true waiter = some next) :
    next ≠ .asleep false ∧ next.stepsLeft + 1 = waiter.stepsLeft := by
  cases waiter with
  | starting | known =>
    cases h
    exact ⟨by simp, rfl⟩
  | asleep woken =>
    cases woken <;> cases h
    exact ⟨by simp, rfl⟩
  | returned => cases h

/-- A waiter returns only if it finds the flag set. -/
lemma advance_returned {requested : Bool} (h : advance requested waiter = some .returned) :
    requested = true := by
  cases waiter with
  | known woken => cases requested <;> simp_all [advance]
  | asleep woken => cases woken <;> cases h
  | starting | returned => cases h

/-- Who cannot go on has returned, or sleeps and has not been woken. -/
lemma advance_eq_none_iff {requested : Bool} :
    advance requested waiter = none ↔ waiter = .returned ∨ waiter = .asleep false := by
  cases waiter with
  | asleep woken => cases woken <;> simp [advance]
  | starting | known | returned => simp [advance]

lemma step?_eq_some_iff {q q' : QuitSignal} {index : Nat} :
    q.step? index = some q' ↔ ∃ waiter next, q.waiters[index]? = some waiter ∧
      advance q.requested waiter = some next ∧
      q' = { q with waiters := q.waiters.set index next } := by
  simp only [step?, Option.bind_eq_bind, Option.bind_eq_some_iff, Option.pure_def,
    Option.some.injEq]
  constructor
  · rintro ⟨waiter, hwaiter, next, hnext, rfl⟩
    exact ⟨waiter, next, hwaiter, hnext, rfl⟩
  · rintro ⟨waiter, next, hwaiter, hnext, rfl⟩
    exact ⟨waiter, hwaiter, next, hnext, rfl⟩

end QuitSignal

namespace QuitScene

/-- What a move makes of the scene, if it can be made. -/
def step? (s : QuitScene) : QuitMove → Option QuitScene
  | .beginWait => some { s with signal := s.signal.join }
  | .beginRequest => some { s with requests := s.requests ++ [.setting] }
  | .waiter index => (s.signal.step? index).map fun signal => { s with signal }
  | .request index =>
    match s.requests[index]? with
    | some .setting => some ⟨s.signal.set, s.requests.set index .waking⟩
    | some .waking => some ⟨s.signal.wakeAll, s.requests.set index .done⟩
    | some .done | none => none

def run? (s : QuitScene) : List QuitMove → Option QuitScene
  | [] => some s
  | move :: rest => do
    let s ← s.step? move
    s.run? rest

variable {s s' : QuitScene} {move : QuitMove} {moves : List QuitMove}

/-- What a move does. -/
inductive Moves (s : QuitScene) : QuitMove → QuitScene → Prop
  | join : Moves s .beginWait { s with signal := s.signal.join }
  | begin : Moves s .beginRequest { s with requests := s.requests ++ [.setting] }
  | advance {i : Nat} {waiter next : QuitWaiter} : s.signal.waiters[i]? = some waiter →
      QuitSignal.advance s.signal.requested waiter = some next → Moves s (.waiter i)
        { s with signal := { s.signal with waiters := s.signal.waiters.set i next } }
  | set {i : Nat} : s.requests[i]? = some .setting →
      Moves s (.request i) ⟨s.signal.set, s.requests.set i .waking⟩
  | wake {i : Nat} : s.requests[i]? = some .waking →
      Moves s (.request i) ⟨s.signal.wakeAll, s.requests.set i .done⟩

lemma step_moves (h : s.step? move = some s') : s.Moves move s' := by
  cases move with
  | beginWait =>
    cases h
    exact .join
  | beginRequest =>
    cases h
    exact .begin
  | waiter i =>
    simp only [step?, Option.map_eq_some_iff] at h
    obtain ⟨signal, hsignal, rfl⟩ := h
    obtain ⟨waiter, next, hwaiter, hnext, rfl⟩ := QuitSignal.step?_eq_some_iff.1 hsignal
    exact .advance hwaiter hnext
  | request i =>
    simp only [step?] at h
    split at h <;> cases h
    · exact .set ‹_›
    · exact .wake ‹_›

/-- What holds of the signal at any time. -/
structure Sound (s : QuitScene) : Prop where
  requested_iff : s.signal.requested = true ↔ ∃ r ∈ s.requests, r ≠ .setting
  returned : .returned ∈ s.signal.waiters → s.signal.requested = true
  heard : .done ∈ s.requests → .asleep false ∉ s.signal.waiters

lemma Sound.requested (hsound : s.Sound) (hdone : .done ∈ s.requests) :
    s.signal.requested = true :=
  hsound.requested_iff.2 ⟨.done, hdone, by simp⟩

lemma sound_blank : Sound {} := by
  constructor <;> simp

/-- After a step of its own a request is no more about to set the flag. -/
lemma exists_of_set {requests : List QuitRequest} {i : Nat} {r r' : QuitRequest}
    (hi : requests[i]? = some r) (hr' : r' ≠ .setting) : ∃ r ∈ requests.set i r', r ≠ .setting :=
  ⟨r', List.mem_set (List.getElem?_eq_some_iff.1 hi).1 r', hr'⟩

lemma Sound.step (hsound : s.Sound) (h : s.step? move = some s') : s'.Sound := by
  cases step_moves h with
  | join =>
    refine ⟨hsound.requested_iff, fun hmem => ?_, fun hdone hmem => ?_⟩
    · exact hsound.returned (by simpa [QuitSignal.join] using hmem)
    · exact hsound.heard hdone (by simpa [QuitSignal.join] using hmem)
  | begin =>
    refine ⟨?_, hsound.returned, fun hdone => hsound.heard (by simpa using hdone)⟩
    rw [hsound.requested_iff]
    simp [or_and_right]
  | @advance i waiter next hwaiter hnext =>
    refine ⟨hsound.requested_iff, fun hmem => ?_, fun hdone hmem => ?_⟩
    · rcases List.mem_or_eq_of_mem_set hmem with hold | rfl
      · exact hsound.returned hold
      · exact QuitSignal.advance_returned hnext
    · rcases List.mem_or_eq_of_mem_set hmem with hold | rfl
      · exact hsound.heard hdone hold
      · -- after a request nobody falls asleep
        rw [hsound.requested hdone] at hnext
        exact (QuitSignal.advance_requested hnext).1 rfl
  | @set i hi =>
    refine ⟨⟨fun _ => exists_of_set hi (by simp), fun _ => rfl⟩, fun _ => rfl, fun hdone => ?_⟩
    rcases List.mem_or_eq_of_mem_set hdone with hold | hnew
    · exact hsound.heard hold
    · cases hnew
  | @wake i hi =>
    have hrequested : s.signal.requested = true :=
      hsound.requested_iff.2 ⟨.waking, List.mem_of_getElem? hi, by simp⟩
    refine ⟨⟨fun _ => exists_of_set hi (by simp), fun _ => hrequested⟩, fun _ => hrequested, ?_⟩
    rintro - hmem
    obtain ⟨waiter, -, hasleep⟩ := List.mem_map.1 hmem
    exact waiter.wake_ne_asleep hasleep

lemma run_cons : s.run? (move :: moves) = some s' ↔
    ∃ s₁, s.step? move = some s₁ ∧ s₁.run? moves = some s' := by
  simp only [run?, Option.bind_eq_bind, Option.bind_eq_some_iff]

lemma Sound.run (hsound : s.Sound) (h : s.run? moves = some s') : s'.Sound := by
  induction moves generalizing s with
  | nil =>
    cases h
    exact hsound
  | cons move rest ih =>
    obtain ⟨s₁, hstep, hrest⟩ := run_cons.1 h
    exact ih (hsound.step hstep) hrest

/-- The flag stays set. -/
lemma requested_step (hrequested : s.signal.requested = true) (h : s.step? move = some s') :
    s'.signal.requested = true := by
  cases step_moves h with
  | set => rfl
  | join | begin | advance | wake => exact hrequested

/-- Once the flag is set a waiter gets on by its own steps, and by nobody else's. -/
lemma stepsLeft_step (hrequested : s.signal.requested = true) (h : s.step? move = some s')
    {i : Nat} {waiter : QuitWaiter} (hwaiter : s.signal.waiters[i]? = some waiter) :
    ∃ waiter', s'.signal.waiters[i]? = some waiter' ∧
      waiter'.stepsLeft + [move].count (.waiter i) = waiter.stepsLeft := by
  cases step_moves h with
  | join =>
    refine ⟨waiter, ?_, by simp⟩
    rw [QuitSignal.join, List.getElem?_append_left (List.getElem?_eq_some_iff.1 hwaiter).1, hwaiter]
  | begin => exact ⟨waiter, hwaiter, by simp⟩
  | @advance j waiter₁ next hwaiter₁ hnext =>
    by_cases hij : j = i
    · subst hij
      obtain rfl : waiter = waiter₁ := Option.some.inj (hwaiter.symm.trans hwaiter₁)
      rw [hrequested] at hnext
      refine ⟨next, ?_, by simpa using (QuitSignal.advance_requested hnext).2⟩
      exact List.getElem?_set_self (List.getElem?_eq_some_iff.1 hwaiter).1
    · exact ⟨waiter, by simp [hij, hwaiter], by simp [hij]⟩
  | set => exact ⟨waiter, hwaiter, by simp⟩
  | wake => exact ⟨waiter.wake, by simp [QuitSignal.wakeAll, hwaiter], by simp⟩

lemma stepsLeft_run (hrequested : s.signal.requested = true) (h : s.run? moves = some s')
    {i : Nat} {waiter : QuitWaiter} (hwaiter : s.signal.waiters[i]? = some waiter) :
    ∃ waiter', s'.signal.waiters[i]? = some waiter' ∧
      waiter'.stepsLeft + moves.count (.waiter i) = waiter.stepsLeft := by
  induction moves generalizing s waiter with
  | nil =>
    cases h
    exact ⟨waiter, hwaiter, rfl⟩
  | cons move rest ih =>
    obtain ⟨s₁, hstep, hrest⟩ := run_cons.1 h
    obtain ⟨waiter₁, hwaiter₁, hfirst⟩ := stepsLeft_step hrequested hstep hwaiter
    obtain ⟨waiter', hwaiter', hlater⟩ := ih (requested_step hrequested hstep) hrest hwaiter₁
    refine ⟨waiter', hwaiter', ?_⟩
    have hcount : (move :: rest).count (.waiter i) =
        [move].count (.waiter i) + rest.count (.waiter i) :=
      (List.count_append : ([move] ++ rest).count _ = _)
    omega

/-- Only who has returned, or sleeps and has not been woken, cannot go on. -/
lemma exists_step {i : Nat} {waiter : QuitWaiter} (hwaiter : s.signal.waiters[i]? = some waiter)
    (hleft : waiter ≠ .returned) (hwoken : waiter ≠ .asleep false) :
    ∃ s', s.step? (.waiter i) = some s' := by
  cases hnext : QuitSignal.advance s.signal.requested waiter with
  | none => exact absurd (QuitSignal.advance_eq_none_iff.1 hnext) (not_or.2 ⟨hleft, hwoken⟩)
  | some next =>
    have hstep := QuitSignal.step?_eq_some_iff.2 ⟨waiter, next, hwaiter, hnext, rfl⟩
    exact ⟨_, by rw [step?, hstep]; rfl⟩

end QuitScene

end EvalServer
