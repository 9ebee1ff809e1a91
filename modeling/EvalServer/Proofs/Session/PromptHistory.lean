import EvalServer.Session.Prompts
import Mathlib.Tactic.Lemma

/-!
# Prompts and their history

What the one who waits for a prompt sees is read off what was done after its registration: the
first answer to its tag, abort of its actor or abort of all decides, and nothing after that does.
-/

namespace EvalServer

/-- What can be done to the prompts of a session. -/
inductive PromptOperation where
  | register (actor : ActorId)
  | resolve (tag : Nat) (answer : ClientAnswer)
  | abort (actor : ActorId)
  | abortAll
  /-- The waiting side of a tag looks for the outcome, and takes an answer that has come. -/
  | look (tag : Nat)
  /-- The waiting side of a tag is dropped. -/
  | forget (tag : Nat)
  deriving DecidableEq

/-- What the waiting side of a tag sees. -/
inductive Sight where
  | waiting
  | answered (answer : ClientAnswer)
  | closed
  deriving DecidableEq

open PromptOperation

def Prompts.perform (p : Prompts) : PromptOperation → Prompts
  | .register actor => (p.register actor).2
  | .resolve tag answer => (p.resolve tag answer).2
  | .abort actor => (p.abort actor).2
  | .abortAll => p.abortAll
  | .look tag => p.take tag
  | .forget tag => p.forget tag

/-- The prompts after some operations, the first on none. -/
def Prompts.after (ops : List PromptOperation) : Prompts :=
  ops.foldl perform {}

def PromptState.sight? : PromptState → Option Sight
  | .pending true => some .waiting
  | .answered answer => some (.answered answer)
  | .closed => some .closed
  | .pending false | .forgotten => none

/-- What somebody who waits for a tag sees, if there is somebody. -/
def Prompts.sight? (p : Prompts) (tag : Nat) : Option Sight :=
  (p.state tag).sight?

/-- A registration, with the tag that it got and all that was done after it. -/
structure Registration where
  tag : Nat
  actor : ActorId
  later : List PromptOperation

def Prompts.registrations (p : Prompts) : List PromptOperation → List Registration
  | [] => []
  | op :: later =>
    let rest := (p.perform op).registrations later
    match op with
    | .register actor => ⟨(p.register actor).1, actor, later⟩ :: rest
    | _ => rest

/-- An operation decides the prompt of a tag and an actor, if nothing has before. -/
def PromptOperation.decides (tag : Nat) (actor : ActorId) : PromptOperation → Bool
  | .resolve t _ => t = tag
  | .abort a => actor = a
  | .abortAll => true
  | _ => false

namespace Registration

/-- Nothing has decided the prompt yet. -/
def isOpen (r : Registration) : Bool :=
  r.later.all fun op => !op.decides r.tag r.actor

/-- The waiting side has not been dropped. -/
def isHeard (r : Registration) : Bool :=
  !r.later.contains (.forget r.tag)

/-- The outcome is what first decided the prompt: an answer, until it is taken, or a close. -/
def outcome (r : Registration) : Sight :=
  match r.later.dropWhile fun op => !op.decides r.tag r.actor with
  | [] => .waiting
  | .resolve _ answer :: rest => if rest.contains (.look r.tag) then .closed else .answered answer
  | _ :: _ => .closed

end Registration

/-- What an operation does to the prompt of a tag. -/
def Prompt.perform (tag : Nat) (prompt : Prompt) (op : PromptOperation) : Prompt :=
  let state := prompt.state
  { prompt with
    state := match op with
      | .register _ => state
      | .resolve t answer => if t = tag then state.answer answer else state
      | .abort actor => if prompt.actor = actor then state.abort else state
      | .abortAll => state.abort
      | .look t => if t = tag then state.take else state
      | .forget t => if t = tag then state.forget else state }

/-- The prompt that a registration has become. -/
def Registration.prompt (r : Registration) : Prompt :=
  r.later.foldl (Prompt.perform r.tag) ⟨r.actor, .pending true⟩

namespace Prompts

lemma change_eq_mapIdx (p : Prompts) (tag : Nat) (f : PromptState → PromptState) :
    (p.change tag f).prompts = p.prompts.mapIdx fun i prompt =>
      { prompt with state := if tag = i + 1 then f prompt.state else prompt.state } := by
  refine List.ext_getElem? fun i => ?_
  rw [List.getElem?_mapIdx]
  cases tag with
  | zero => simp [change]
  | succ t =>
    simp only [change, Nat.add_one_ne_zero, if_false, Nat.add_one_sub_one, Nat.add_right_cancel_iff]
    rw [List.getElem?_modify]
    by_cases h : t = i <;> simp [h]

lemma map_eq_mapIdx {α β : Type} (f : α → β) (l : List α) : l.map f = l.mapIdx fun _ a => f a := by
  refine List.ext_getElem? fun i => ?_
  rw [List.getElem?_map, List.getElem?_mapIdx]

lemma prompts_perform (p : Prompts) (op : PromptOperation) : (p.perform op).prompts =
    (p.prompts.mapIdx fun i prompt => prompt.perform (i + 1) op) ++
      match op with
      | .register actor => [⟨actor, .pending true⟩]
      | _ => [] := by
  cases op with
  | register actor =>
    have hsame := map_eq_mapIdx (fun prompt : Prompt => prompt) p.prompts
    rw [List.map_id'] at hsame
    exact congrArg (· ++ [⟨actor, .pending true⟩]) hsame
  | resolve tag answer => simp [perform, resolve, change_eq_mapIdx, Prompt.perform]
  | abort actor =>
    rw [List.append_nil]
    refine (map_eq_mapIdx _ p.prompts).trans (congrArg (List.mapIdx · p.prompts) ?_)
    funext _ prompt
    by_cases ha : prompt.actor = actor <;> simp [Prompt.perform, ha]
  | abortAll =>
    rw [List.append_nil]
    exact map_eq_mapIdx _ p.prompts
  | look tag => simp [perform, take, change_eq_mapIdx, Prompt.perform]
  | forget tag => simp [perform, forget, change_eq_mapIdx, Prompt.perform]

/-- The prompts that there were go on as the operations say, and behind them stand the new ones. -/
lemma prompts_foldl (ops : List PromptOperation) (p : Prompts) : (ops.foldl perform p).prompts =
    (p.prompts.mapIdx fun i prompt => ops.foldl (Prompt.perform (i + 1)) prompt) ++
      (p.registrations ops).map Registration.prompt := by
  induction ops generalizing p with
  | nil =>
    have hsame := map_eq_mapIdx (fun prompt : Prompt => prompt) p.prompts
    rw [List.map_id'] at hsame
    simpa [registrations] using hsame
  | cons op later ih =>
    rw [List.foldl_cons, ih, prompts_perform, List.mapIdx_append, List.mapIdx_mapIdx,
      List.append_assoc]
    congr 1
    cases op with
    | register actor => simp [registrations, Registration.prompt, register]
    | _ => simp [registrations]

/-- Each tag is one above the last. -/
lemma tags_registrations (ops : List PromptOperation) (p : Prompts) :
    (p.registrations ops).map Registration.tag =
      List.range' (p.prompts.length + 1) (p.registrations ops).length := by
  induction ops generalizing p with
  | nil => rfl
  | cons op later ih =>
    have hlength := congrArg List.length (p.prompts_perform op)
    rw [List.length_append, List.length_mapIdx] at hlength
    have htags := ih (p.perform op)
    rw [hlength] at htags
    cases op with
    | register actor =>
      simp only [registrations, List.map_cons, List.length_cons, List.range'_succ]
      rw [htags]
      rfl
    | _ => exact htags

end Prompts

section fate

variable (tag : Nat) (actor : ActorId) (later : List PromptOperation)

lemma foldl_forgotten :
    later.foldl (Prompt.perform tag) ⟨actor, .forgotten⟩ = ⟨actor, .forgotten⟩ := by
  induction later with
  | nil => rfl
  | cons op later ih =>
    have hstep : Prompt.perform tag ⟨actor, .forgotten⟩ op = ⟨actor, .forgotten⟩ := by
      cases op <;> simp [Prompt.perform, PromptState.answer, PromptState.abort, PromptState.take,
        PromptState.forget]
    rw [List.foldl_cons, hstep, ih]

lemma foldl_closed : later.foldl (Prompt.perform tag) ⟨actor, .closed⟩ =
    ⟨actor, if later.contains (.forget tag) then .forgotten else .closed⟩ := by
  induction later with
  | nil => rfl
  | cons op later ih =>
    rw [List.foldl_cons]
    by_cases hforget : op = .forget tag
    · have hstep : Prompt.perform tag ⟨actor, .closed⟩ op = ⟨actor, .forgotten⟩ := by
        simp [hforget, Prompt.perform, PromptState.forget]
      rw [hstep, foldl_forgotten]
      simp [hforget]
    · have hstep : Prompt.perform tag ⟨actor, .closed⟩ op = ⟨actor, .closed⟩ := by
        cases op with
        | forget t => simpa [Prompt.perform, PromptState.forget] using hforget
        | _ => simp [Prompt.perform, PromptState.answer, PromptState.abort, PromptState.take]
      rw [hstep, ih]
      simp [Ne.symm hforget]

lemma foldl_answered (answer : ClientAnswer) :
    later.foldl (Prompt.perform tag) ⟨actor, .answered answer⟩ =
      ⟨actor, if later.contains (.forget tag) then .forgotten
        else if later.contains (.look tag) then .closed else .answered answer⟩ := by
  induction later with
  | nil => rfl
  | cons op later ih =>
    rw [List.foldl_cons]
    by_cases hforget : op = .forget tag
    · have hstep : Prompt.perform tag ⟨actor, .answered answer⟩ op = ⟨actor, .forgotten⟩ := by
        simp [hforget, Prompt.perform, PromptState.forget]
      rw [hstep, foldl_forgotten]
      simp [hforget]
    · by_cases hlook : op = .look tag
      · have hstep : Prompt.perform tag ⟨actor, .answered answer⟩ op = ⟨actor, .closed⟩ := by
          simp [hlook, Prompt.perform, PromptState.take]
        rw [hstep, foldl_closed]
        simp [hlook]
      · have hstep : Prompt.perform tag ⟨actor, .answered answer⟩ op =
            ⟨actor, .answered answer⟩ := by
          cases op with
          | forget t => simpa [Prompt.perform, PromptState.forget] using hforget
          | look t => simpa [Prompt.perform, PromptState.take] using hlook
          | _ => simp [Prompt.perform, PromptState.answer, PromptState.abort]
        rw [hstep, ih]
        simp [Ne.symm hforget, Ne.symm hlook]

lemma foldl_dropped : later.foldl (Prompt.perform tag) ⟨actor, .pending false⟩ =
    ⟨actor, if later.any (·.decides tag actor) then .forgotten else .pending false⟩ := by
  induction later with
  | nil => rfl
  | cons op later ih =>
    rw [List.foldl_cons]
    by_cases hdecides : op.decides tag actor = true
    · have hstep : Prompt.perform tag ⟨actor, .pending false⟩ op = ⟨actor, .forgotten⟩ := by
        cases op <;> simp [PromptOperation.decides] at hdecides <;>
          simp [Prompt.perform, PromptState.answer, PromptState.abort, hdecides]
      rw [hstep, foldl_forgotten]
      simp [hdecides]
    · have hstep : Prompt.perform tag ⟨actor, .pending false⟩ op = ⟨actor, .pending false⟩ := by
        cases op <;> simp [PromptOperation.decides] at hdecides <;>
          simp [Prompt.perform, PromptState.take, PromptState.forget, hdecides]
      rw [hstep, ih]
      simp [hdecides]

end fate

/-- An operation answers a prompt that waits, closes it, drops its waiting side or leaves it. -/
lemma Prompt.perform_pending (tag : Nat) (actor : ActorId) (op : PromptOperation) :
    (∃ answer, op = .resolve tag answer ∧
      Prompt.perform tag ⟨actor, .pending true⟩ op = ⟨actor, .answered answer⟩) ∨
    ((op = .abort actor ∨ op = .abortAll) ∧
      Prompt.perform tag ⟨actor, .pending true⟩ op = ⟨actor, .closed⟩) ∨
    (op = .forget tag ∧ Prompt.perform tag ⟨actor, .pending true⟩ op = ⟨actor, .pending false⟩) ∨
    (op.decides tag actor = false ∧ op ≠ .forget tag ∧
      Prompt.perform tag ⟨actor, .pending true⟩ op = ⟨actor, .pending true⟩) := by
  cases op with
  | register a => simp [Prompt.perform, PromptOperation.decides]
  | resolve t answer =>
    by_cases htag : t = tag <;>
      simp [Prompt.perform, PromptOperation.decides, PromptState.answer, htag]
  | abort a =>
    by_cases ha : actor = a
    · simp [Prompt.perform, PromptState.abort, ha]
    · simp [Prompt.perform, PromptOperation.decides, ha, Ne.symm ha]
  | abortAll => simp [Prompt.perform, PromptState.abort]
  | look t => simp [Prompt.perform, PromptOperation.decides, PromptState.take]
  | forget t =>
    by_cases htag : t = tag <;>
      simp [Prompt.perform, PromptOperation.decides, PromptState.forget, htag]

/-- The waiting side sees the outcome, and the prompt is registered until it is decided. -/
lemma Registration.state_prompt (r : Registration) :
    r.prompt.state.sight? = (if r.isHeard then some r.outcome else none) ∧
      r.prompt.state.isPending = r.isOpen ∧ r.prompt.actor = r.actor := by
  obtain ⟨tag, actor, later⟩ := r
  induction later with
  | nil => exact ⟨rfl, rfl, rfl⟩
  | cons op later ih =>
    have hcons : Registration.prompt ⟨tag, actor, op :: later⟩ =
        later.foldl (Prompt.perform tag) (Prompt.perform tag ⟨actor, .pending true⟩ op) := rfl
    rw [hcons]
    rcases Prompt.perform_pending tag actor op with ⟨answer, rfl, hop⟩ | ⟨hop', hop⟩ | ⟨rfl, hop⟩ |
      ⟨hdecides, hforget, hop⟩
    · rw [hop, foldl_answered]
      by_cases hforget : PromptOperation.forget tag ∈ later
      · simp [isHeard, isOpen, PromptOperation.decides, hforget, PromptState.sight?,
          PromptState.isPending]
      · by_cases hlook : PromptOperation.look tag ∈ later <;>
          simp [isHeard, isOpen, outcome, PromptOperation.decides, hforget, hlook,
            PromptState.sight?, PromptState.isPending]
    · rw [hop, foldl_closed]
      rcases hop' with rfl | rfl
      · by_cases hforget : PromptOperation.forget tag ∈ later <;>
          simp [isHeard, isOpen, outcome, PromptOperation.decides, hforget, PromptState.sight?,
            PromptState.isPending]
      · by_cases hforget : PromptOperation.forget tag ∈ later <;>
          simp [isHeard, isOpen, outcome, PromptOperation.decides, hforget, PromptState.sight?,
            PromptState.isPending]
    · have hopen : isOpen ⟨tag, actor, .forget tag :: later⟩ =
          !later.any (·.decides tag actor) := by
        simp [isOpen, PromptOperation.decides, List.not_any_eq_all_not]
      rw [hop, foldl_dropped, hopen]
      cases later.any (·.decides tag actor) <;>
        simp [isHeard, PromptState.sight?, PromptState.isPending]
    -- what does not concern the prompt may as well be left out
    · have hheard : isHeard ⟨tag, actor, op :: later⟩ = isHeard ⟨tag, actor, later⟩ := by
        simp [isHeard, Ne.symm hforget]
      have hopen : isOpen ⟨tag, actor, op :: later⟩ = isOpen ⟨tag, actor, later⟩ := by
        simp [isOpen, hdecides]
      have houtcome : outcome ⟨tag, actor, op :: later⟩ = outcome ⟨tag, actor, later⟩ := by
        simp [outcome, hdecides]
      rw [hop, hheard, hopen, houtcome]
      exact ih

namespace Prompts

/-- The registrations among some operations, the first of which is done on no prompts. -/
def registered (ops : List PromptOperation) : List Registration :=
  registrations {} ops

lemma prompts_after (ops : List PromptOperation) :
    (after ops).prompts = (registered ops).map Registration.prompt :=
  prompts_foldl ops {}

lemma tags_registered (ops : List PromptOperation) :
    (registered ops).map Registration.tag = List.range' 1 (registered ops).length :=
  tags_registrations ops {}

variable {ops : List PromptOperation} {r : Registration}

/-- A prompt is found by the tag that its registration got. -/
lemma prompt?_after (hr : r ∈ registered ops) : (after ops).prompt? r.tag = some r.prompt := by
  obtain ⟨i, hi, rfl⟩ := List.mem_iff_getElem.1 hr
  have htag : (registered ops)[i].tag = i + 1 := by
    have htags := congrArg (·[i]?) (tags_registered ops)
    simpa [hi, Nat.add_comm] using htags
  rw [prompt?, prompts_after, htag]
  simp [hi]

lemma prompt?_eq_none {tag : Nat} (htag : ∀ r ∈ registered ops, r.tag ≠ tag) :
    (after ops).prompt? tag = none := by
  rw [prompt?, prompts_after]
  split
  · rfl
  · next hne =>
    rw [List.getElem?_eq_none_iff, List.length_map]
    refine Nat.le_of_not_lt fun hlt => ?_
    have hmem : tag ∈ (registered ops).map Registration.tag := by
      rw [tags_registered, List.mem_range'_1]
      omega
    obtain ⟨r, hr, heq⟩ := List.mem_map.1 hmem
    exact htag r hr heq

lemma state_after (hr : r ∈ registered ops) : (after ops).state r.tag = r.prompt.state := by
  rw [state, prompt?_after hr]

/-- The prompt of a tag is that of its registration, if the tag has been given. -/
lemma state_cases (ops : List PromptOperation) (tag : Nat) :
    (∃ r ∈ registered ops, r.tag = tag ∧ (after ops).state tag = r.prompt.state) ∨
      (∀ r ∈ registered ops, r.tag ≠ tag) ∧ (after ops).state tag = .forgotten := by
  by_cases hgiven : ∃ r ∈ registered ops, r.tag = tag
  · obtain ⟨r, hr, rfl⟩ := hgiven
    exact .inl ⟨r, hr, rfl, state_after hr⟩
  · have htag : ∀ r ∈ registered ops, r.tag ≠ tag := fun r hr heq => hgiven ⟨r, hr, heq⟩
    refine .inr ⟨htag, ?_⟩
    rw [state, prompt?_eq_none htag]

lemma countPending_after (condition : Prompt → Bool) : (after ops).countPending condition =
    (registered ops).countP fun r => r.isOpen && condition r.prompt := by
  rw [countPending, prompts_after, List.countP_map]
  refine List.countP_congr fun r _ => ?_
  simp [r.state_prompt.2.1]

/-- An answer reaches nobody where a prompt is not registered, and changes nothing there. -/
lemma resolve_of_not_pending {p : Prompts} {tag : Nat} (hstate : (p.state tag).isPending = false)
    (answer : ClientAnswer) : (p.resolve tag answer).2 = p := by
  have hanswer : ∀ state : PromptState, state.isPending = false → state.answer answer = state := by
    intro state hnot
    cases state with
    | pending heard => cases hnot
    | _ => rfl
  by_cases htag : tag = 0
  · simp [resolve, change, htag]
  · simp only [resolve, change, htag, if_false]
    refine congrArg Prompts.mk (List.ext_getElem? fun i => ?_)
    rw [List.getElem?_modify]
    by_cases hi : tag - 1 = i
    · subst hi
      simp only [state, prompt?, htag, if_false] at hstate
      cases hprompt : p.prompts[tag - 1]? with
      | none => simp
      | some prompt =>
        rw [hprompt] at hstate
        simp [hanswer prompt.state hstate]
    · simp [hi]

lemma resolve_delivers_iff (ops : List PromptOperation) (tag : Nat) (answer : ClientAnswer) :
    ((after ops).resolve tag answer).1 = true ↔
      ∃ r ∈ registered ops, r.tag = tag ∧ r.isOpen ∧ r.isHeard := by
  have hresolve : ((after ops).resolve tag answer).1 = true ↔
      (after ops).state tag = .pending true := by simp [resolve]
  rw [hresolve]
  constructor
  · intro hstate
    rcases state_cases ops tag with ⟨r, hr, htag, hprompt⟩ | ⟨-, hforgotten⟩
    · obtain ⟨hsight, hopen, -⟩ := r.state_prompt
      rw [← hprompt, hstate] at hsight hopen
      refine ⟨r, hr, htag, hopen.symm, ?_⟩
      cases hheard : r.isHeard with
      | true => rfl
      | false => simp [hheard, PromptState.sight?] at hsight
    · rw [hforgotten] at hstate
      cases hstate
  · rintro ⟨r, hr, rfl, hopen, hheard⟩
    obtain ⟨hsight, hpending, -⟩ := r.state_prompt
    rw [state_after hr]
    rw [hopen] at hpending
    rw [hheard] at hsight
    cases hstate : r.prompt.state with
    | pending heard =>
      rw [hstate] at hsight
      cases heard with
      | true => rfl
      | false => cases hsight
    | _ =>
      rw [hstate] at hpending
      cases hpending

lemma resolve_of_decided {tag : Nat}
    (hdecided : ∀ r ∈ registered ops, r.tag = tag → r.isOpen = false) (answer : ClientAnswer) :
    ((after ops).resolve tag answer).2 = after ops := by
  refine resolve_of_not_pending ?_ answer
  rcases state_cases ops tag with ⟨r, hr, htag, hprompt⟩ | ⟨-, hforgotten⟩
  · rw [hprompt, r.state_prompt.2.1]
    exact hdecided r hr htag
  · rw [hforgotten]
    rfl

/-- Whatever has been done to the prompts of a session, their tags ascend in the order of their
registration; the waiting side of each sees what first decided it, an answer once or a close, and
nobody waits for any other tag; an answer reaches somebody just if the prompt is undecided and has
not been dropped, and where no undecided prompt is registered it changes nothing; an abort counts
the undecided prompts of its actor and leaves those of others alone; and the size is the number of
undecided prompts. -/
theorem first_decides (ops : List PromptOperation) :
    ((registered ops).map Registration.tag).Pairwise (· < ·) ∧
    (∀ r ∈ registered ops, (after ops).sight? r.tag = if r.isHeard then some r.outcome else none) ∧
    (∀ tag, (∀ r ∈ registered ops, r.tag ≠ tag) → (after ops).sight? tag = none) ∧
    (∀ tag answer, ((after ops).resolve tag answer).1 = true ↔
      ∃ r ∈ registered ops, r.tag = tag ∧ r.isOpen ∧ r.isHeard) ∧
    (∀ tag answer, (∀ r ∈ registered ops, r.tag = tag → r.isOpen = false) →
      ((after ops).resolve tag answer).2 = after ops) ∧
    (∀ actor, ((after ops).abort actor).1 =
      (registered ops).countP fun r => r.isOpen && r.actor == actor) ∧
    (∀ actor, ∀ r ∈ registered ops, r.actor ≠ actor →
      ((after ops).abort actor).2.prompt? r.tag = (after ops).prompt? r.tag) ∧
    (after ops).size = (registered ops).countP Registration.isOpen := by
  refine ⟨?_, ?_, ?_, resolve_delivers_iff ops, ?_, ?_, ?_, ?_⟩
  · rw [tags_registered]
    exact List.pairwise_lt_range'
  · intro r hr
    rw [sight?, state_after hr]
    exact r.state_prompt.1
  · intro tag htag
    rw [sight?, state, prompt?_eq_none htag]
    rfl
  · intro tag answer hdecided
    exact resolve_of_decided hdecided answer
  · intro actor
    rw [abort, countPending_after]
    refine List.countP_congr fun r _ => ?_
    rw [r.state_prompt.2.2]
  · intro actor r hr hactor
    rw [prompt?_abort, prompt?_after hr]
    simp [r.state_prompt.2.2, hactor]
  · rw [size, countPending_after]
    simp

/-- The first of two prompts is answered before its actor is aborted, and the answer taken; the
second is dropped. -/
def lateOperations : List PromptOperation :=
  [.register 3, .resolve 2 (.text "early"), .register 4, .resolve 1 (.text "a"), .abort 3,
    .look 1, .forget 2]

theorem first_decides_late : ∃ first second,
    registered lateOperations = [first, second] ∧ first.tag = 1 ∧ second.tag = 2 ∧
    (after lateOperations).sight? 1 = some .closed ∧
    (after lateOperations).sight? 2 = none ∧ (after lateOperations).sight? 7 = none ∧
    ((after lateOperations).resolve 2 (.text "b")).1 = false ∧
    ((after lateOperations).resolve 1 (.text "c")).2 = after lateOperations ∧
    ((after lateOperations).abort 3).2.prompt? 2 = (after lateOperations).prompt? 2 ∧
    (after lateOperations).size = 1 := by
  obtain ⟨-, hsight, hnobody, hfound, hlost, -, hothers, hsize⟩ := first_decides lateOperations
  have hregistered : registered lateOperations =
      [⟨1, 3, lateOperations.drop 1⟩, ⟨2, 4, lateOperations.drop 3⟩] := rfl
  rw [hregistered] at hsight hnobody hfound hlost hothers hsize
  refine ⟨_, _, hregistered, rfl, rfl, ?_, ?_, ?_, ?_, ?_, ?_, ?_⟩
  · exact hsight _ List.mem_cons_self
  · exact hsight ⟨2, 4, lateOperations.drop 3⟩ (by simp)
  · exact hnobody 7 (by simp)
  · rw [Bool.eq_false_iff]
    intro hdelivered
    have hheard := (hfound 2 (.text "b")).1 hdelivered
    revert hheard
    decide
  · exact hlost 1 (.text "c") (by decide)
  · exact hothers 3 ⟨2, 4, lateOperations.drop 3⟩ (by simp) (by decide)
  · exact hsize

end Prompts

end EvalServer
