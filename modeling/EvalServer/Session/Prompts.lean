import EvalServer.Session.Mailbox

/-!
# Prompts

Questions to the client that wait for an answer. A question is known by its tag, the number of its
registration; it belongs to an actor, and somebody may wait for its outcome. The outcome is the
first of three things that happens to a registered prompt: an answer, an abort of its actor, or an
abort of all.
-/

namespace EvalServer

/-- The client's answer to a prompt. -/
inductive ClientAnswer where
  | text (text : String)
  | value (value : Sexp)
  deriving Repr, DecidableEq

/-- Where a prompt stands. -/
inductive PromptState where
  /-- It is registered; `heard` says whether somebody still waits for it. -/
  | pending (heard : Bool)
  /-- It has been answered, and the answer has not been taken. -/
  | answered (answer : ClientAnswer)
  /-- It has been aborted, or its answer has been taken. -/
  | closed
  /-- It is not registered, and nobody waits for it. -/
  | forgotten
  deriving Repr, DecidableEq

/-- A prompt and the actor it belongs to. -/
structure Prompt where
  actor : ActorId
  state : PromptState
  deriving Repr, DecidableEq

/-- All prompts ever registered; the tag of the first is one. -/
structure Prompts where
  prompts : List Prompt := []
  deriving Repr, DecidableEq

namespace PromptState

/-- Whether a prompt is registered. -/
def isPending : PromptState → Bool
  | .pending _ => true
  | _ => false

/-- Whether somebody may look at the outcome. -/
def isHeard : PromptState → Bool
  | .pending heard => heard
  | .forgotten => false
  | _ => true

/-- A registered prompt is answered if somebody waits for it. -/
def answer (a : ClientAnswer) : PromptState → PromptState
  | .pending true => .answered a
  | .pending false => .forgotten
  | state => state

def abort : PromptState → PromptState
  | .pending true => .closed
  | .pending false => .forgotten
  | state => state

def take : PromptState → PromptState
  | .answered _ => .closed
  | state => state

def forget : PromptState → PromptState
  | .pending _ => .pending false
  | _ => .forgotten

end PromptState

namespace Prompts

def prompt? (p : Prompts) (tag : Nat) : Option Prompt :=
  if tag = 0 then none else p.prompts[tag - 1]?

/-- Where the prompt of a tag stands; a tag never given counts as forgotten. -/
def state (p : Prompts) (tag : Nat) : PromptState :=
  match p.prompt? tag with
  | some prompt => prompt.state
  | none => .forgotten

/-- Registers a prompt of an actor, for which somebody waits. -/
def register (p : Prompts) (actor : ActorId) : Nat × Prompts :=
  (p.prompts.length + 1, ⟨p.prompts ++ [⟨actor, .pending true⟩]⟩)

def change (p : Prompts) (tag : Nat) (f : PromptState → PromptState) : Prompts :=
  if tag = 0 then p
  else ⟨p.prompts.modify (tag - 1) fun prompt => { prompt with state := f prompt.state }⟩

/-- Answers a prompt; whether somebody got the answer. -/
def resolve (p : Prompts) (tag : Nat) (answer : ClientAnswer) : Bool × Prompts :=
  (p.state tag = .pending true, p.change tag (.answer answer))

/-- The number of registered prompts that satisfy a condition. -/
def countPending (p : Prompts) (condition : Prompt → Bool) : Nat :=
  p.prompts.countP fun prompt => prompt.state.isPending && condition prompt

/-- Aborts the prompts of an actor; how many there were. -/
def abort (p : Prompts) (actor : ActorId) : Nat × Prompts :=
  (p.countPending (·.actor == actor),
    ⟨p.prompts.map fun prompt =>
      if prompt.actor = actor then { prompt with state := prompt.state.abort } else prompt⟩)

def abortAll (p : Prompts) : Prompts :=
  ⟨p.prompts.map fun prompt => { prompt with state := prompt.state.abort }⟩

def size (p : Prompts) : Nat :=
  p.countPending fun _ => true

/-- Takes the answer of a tag, if it has come. -/
def take (p : Prompts) (tag : Nat) : Prompts :=
  p.change tag .take

def forget (p : Prompts) (tag : Nat) : Prompts :=
  p.change tag .forget

/-- A new tag is one above the last, its prompt is pending, and no other prompt changes. -/
theorem state_register (p : Prompts) (actor : ActorId) (tag : Nat) :
    (p.register actor).2.state tag =
      if tag = (p.register actor).1 then .pending true else p.state tag := by
  unfold state prompt? register
  cases tag with
  | zero => simp
  | succ i =>
    rcases Nat.lt_trichotomy i p.prompts.length with h | h | h
    · have hne : ¬ i = p.prompts.length := Nat.ne_of_lt h
      simp [List.getElem?_append_left h, hne]
    · simp [h]
    · have hne : ¬ i = p.prompts.length := Nat.ne_of_gt h
      have : p.prompts.length ≤ i := Nat.le_of_lt h
      have hsub : ¬ i - p.prompts.length = 0 := by omega
      simp [List.getElem?_append_right this, hne, hsub, this]

/-- A change reaches the prompt of its tag only; a tag never given stays forgotten. -/
theorem state_change (p : Prompts) (tag other : Nat) {f : PromptState → PromptState}
    (hf : f .forgotten = .forgotten) :
    (p.change tag f).state other = if other = tag then f (p.state tag) else p.state other := by
  unfold state prompt? change
  cases tag with
  | zero => by_cases h : other = 0 <;> simp [h, hf]
  | succ i =>
    cases other with
    | zero => simp
    | succ j =>
      by_cases h : j = i
      · subst h
        cases hp : p.prompts[j]? <;> simp [hp, hf]
      · have h' : ¬ i = j := fun e => h e.symm
        simp [h, h']

theorem state_resolve (p : Prompts) (tag other : Nat) (answer : ClientAnswer) :
    (p.resolve tag answer).2.state other =
      if other = tag then (p.state tag).answer answer else p.state other :=
  state_change p tag other rfl

theorem state_take (p : Prompts) (tag other : Nat) :
    (p.take tag).state other = if other = tag then (p.state tag).take else p.state other :=
  state_change p tag other rfl

theorem state_forget (p : Prompts) (tag other : Nat) :
    (p.forget tag).state other = if other = tag then (p.state tag).forget else p.state other :=
  state_change p tag other rfl

/-- An abort reaches the prompts of its actor only. -/
theorem prompt?_abort (p : Prompts) (actor : ActorId) (tag : Nat) :
    (p.abort actor).2.prompt? tag = (p.prompt? tag).map fun prompt =>
      if prompt.actor = actor then { prompt with state := prompt.state.abort } else prompt := by
  unfold prompt? abort
  split <;> simp

theorem state_abortAll (p : Prompts) (tag : Nat) :
    p.abortAll.state tag = (p.state tag).abort := by
  unfold state prompt? abortAll
  cases tag with
  | zero => rfl
  | succ i => cases h : p.prompts[i]? <;> simp [h, PromptState.abort]

end Prompts

end EvalServer
