import EvalServer.Session.Mailbox
import Mathlib.Data.List.Nodup
import Mathlib.Tactic.Lemma

/-!
# Mailboxes in concurrent use

Who sends or receives first looks a mailbox up and then uses the mailbox that it has found, and
between the two anybody else may do anything. A mailbox stays where it was first found, so the
steps of all callers together work on one queue for each actor, and nothing in it is lost, doubled
or taken out of turn.
-/

namespace EvalServer

namespace Mailboxes

variable {m : Mailboxes} {a b : ActorId} {i : Nat}

/-- Puts a message into the mailbox at a position. -/
def put (m : Mailboxes) (box : Nat) (message : Message) : Mailboxes :=
  { m with boxes := m.boxes.modify box fun b => { b with queue := b.queue ++ [message] } }

/-- Takes the oldest message from the mailbox at a position, if there is one. -/
def take? (m : Mailboxes) (box : Nat) : Option (Message × Mailboxes) :=
  match (m.boxes[box]?).map (·.queue) with
  | some (message :: rest) =>
    some (message, { m with boxes := m.boxes.modify box fun b => { b with queue := rest } })
  | _ => none

/-- The mailbox of an actor stands at a position. -/
def Places (m : Mailboxes) (actor : ActorId) (box : Nat) : Prop :=
  m.boxes.findIdx? (·.owner == actor) = some box

def owners (m : Mailboxes) : List ActorId :=
  m.boxes.map (·.owner)

/-! ## Positions -/

lemma Places.locate (h : m.Places a i) : m.locate a = (i, m) := by
  unfold Mailboxes.locate
  rw [h]

lemma locate_new (h : m.boxes.findIdx? (·.owner == a) = none) :
    m.locate a = (m.boxes.length, { m with boxes := m.boxes ++ [⟨a, []⟩] }) := by
  unfold Mailboxes.locate
  rw [h]

/-- An actor's mailbox stands where it was found. -/
lemma places_locate (m : Mailboxes) (a : ActorId) : (m.locate a).2.Places a (m.locate a).1 := by
  cases h : m.boxes.findIdx? (·.owner == a) with
  | some i =>
    have hplaces : m.Places a i := h
    rw [hplaces.locate]
    exact hplaces
  | none =>
    rw [locate_new h, Places, List.findIdx?_append, h]
    simp

/-- To look a mailbox up moves no other. -/
lemma Places.after_locate (h : m.Places a i) (b : ActorId) : (m.locate b).2.Places a i := by
  cases hb : m.boxes.findIdx? (·.owner == b) with
  | some j =>
    have hplaces : m.Places b j := hb
    rw [hplaces.locate]
    exact h
  | none =>
    have ha : m.boxes.findIdx? (·.owner == a) = some i := h
    rw [locate_new hb, Places, List.findIdx?_append, ha]
    rfl

lemma Places.getElem? (h : m.Places a i) : ∃ queue, m.boxes[i]? = some ⟨a, queue⟩ := by
  obtain ⟨hlt, howner, -⟩ := List.findIdx?_eq_some_iff_getElem.1 h
  refine ⟨m.boxes[i].queue, ?_⟩
  rw [List.getElem?_eq_getElem hlt, ← eq_of_beq howner]

/-- One position is one actor's. -/
lemma Places.unique {j : Nat} (ha : m.Places a i) (hb : m.Places b j) : i = j ↔ a = b := by
  constructor
  · rintro rfl
    obtain ⟨queue, hqueue⟩ := ha.getElem?
    obtain ⟨queue', hqueue'⟩ := hb.getElem?
    rw [hqueue, Option.some.injEq, Mailbox.mk.injEq] at hqueue'
    exact hqueue'.1
  · rintro rfl
    exact Option.some.inj (Eq.trans (Eq.symm ha) hb)

lemma lastActor_locate (m : Mailboxes) (a : ActorId) : (m.locate a).2.lastActor = m.lastActor := by
  unfold Mailboxes.locate
  split <;> rfl

lemma owners_locate (m : Mailboxes) (a : ActorId) :
    (m.locate a).2.owners = m.owners ∧ a ∈ m.owners ∨
    (m.locate a).2.owners = m.owners ++ [a] ∧ a ∉ m.owners := by
  cases h : m.boxes.findIdx? (·.owner == a) with
  | some i =>
    have hplaces : m.Places a i := h
    obtain ⟨queue, hqueue⟩ := hplaces.getElem?
    rw [hplaces.locate]
    exact .inl ⟨rfl, List.mem_map.2 ⟨_, List.mem_of_getElem? hqueue, rfl⟩⟩
  | none =>
    rw [locate_new h, owners, List.map_append]
    refine .inr ⟨rfl, fun hmem => ?_⟩
    obtain ⟨box, hbox, rfl⟩ := List.mem_map.1 hmem
    have hne := List.findIdx?_eq_none_iff.1 h box hbox
    simp at hne

/-! ## Queues -/

@[simp] lemma queue_locate (m : Mailboxes) (a b : ActorId) :
    (m.locate a).2.queue b = m.queue b := by
  cases h : m.boxes.findIdx? (·.owner == a) with
  | some i =>
    have hplaces : m.Places a i := h
    rw [hplaces.locate]
  | none =>
    rw [locate_new h, queue, queue, List.find?_append]
    cases hfind : m.boxes.find? (·.owner == b) with
    | some box => rfl
    | none => by_cases hab : a = b <;> simp [hab]

lemma Places.queue_eq (h : m.Places a i) : m.boxes[i]? = some ⟨a, m.queue a⟩ := by
  obtain ⟨queue, hqueue⟩ := h.getElem?
  obtain ⟨hlt, howner, hfirst⟩ := List.findIdx?_eq_some_iff_getElem.1 h
  have hfind : m.boxes.find? (·.owner == a) = some ⟨a, queue⟩ := by
    rw [List.find?_eq_some_iff_getElem]
    exact ⟨beq_self_eq_true a, i, hlt, (List.getElem?_eq_some_iff.1 hqueue).2,
      by simpa using hfirst⟩
  rw [Mailboxes.queue, hfind]
  exact hqueue

lemma Places.setQueue (h : m.Places a i) (queue : List Message) :
    m.setQueue a queue = { m with boxes := m.boxes.modify i fun b => { b with queue } } := by
  rw [Mailboxes.setQueue, h.locate, List.modify_eq_set_getElem?, h.queue_eq]
  rfl

/-- What is put into a mailbox that has been found is sent to its owner. -/
lemma Places.put (h : m.Places a i) (message : Message) : m.put i message = m.send a message := by
  rw [send, h.setQueue, Mailboxes.put, List.modify_eq_set_getElem?, List.modify_eq_set_getElem?,
    h.queue_eq]
  rfl

/-- What is taken from a mailbox that has been found is received by its owner. -/
lemma Places.take? (h : m.Places a i) : m.take? i = m.receive? a := by
  rw [Mailboxes.take?, receive?, h.queue_eq, Option.map_some]
  cases m.queue a with
  | nil => rfl
  | cons message rest => simp only [h.setQueue]

lemma Places.of_owners {m' : Mailboxes} (howners : m'.owners = m.owners) (h : m.Places a i) :
    m'.Places a i := by
  have hmap : ∀ m : Mailboxes, m.boxes.findIdx? (·.owner == a) = m.owners.findIdx? (· == a) := by
    intro m
    rw [owners, List.findIdx?_map]
    rfl
  rw [Places, hmap, howners, ← hmap]
  exact h

lemma Places.owners_setQueue (h : m.Places a i) (queue : List Message) :
    (m.setQueue a queue).owners = m.owners := by
  rw [h.setQueue]
  refine List.ext_getElem? fun j => ?_
  rw [owners, owners, List.getElem?_map, List.getElem?_map, List.getElem?_modify]
  cases m.boxes[j]? with
  | none => rfl
  | some box => by_cases hij : i = j <;> simp [hij]

lemma Places.owners_send (h : m.Places a i) (message : Message) :
    (m.send a message).owners = m.owners :=
  h.owners_setQueue _

/-- Sending is looking up and putting. -/
theorem send_eq_put (m : Mailboxes) (a : ActorId) (message : Message) :
    m.send a message = (m.locate a).2.put (m.locate a).1 message := by
  have hplaces := m.places_locate a
  rw [hplaces.put, send, send, queue_locate, Mailboxes.setQueue, Mailboxes.setQueue, hplaces.locate]

/-- Receiving is looking up and taking. -/
theorem receive?_eq_take? (m : Mailboxes) (a : ActorId) :
    m.receive? a = (m.locate a).2.take? (m.locate a).1 := by
  have hplaces := m.places_locate a
  rw [hplaces.take?, receive?, receive?, queue_locate]
  cases m.queue a with
  | nil => rfl
  | cons message rest => simp only [Mailboxes.setQueue, hplaces.locate]

/-! ## Callers -/

/-- What somebody does with mailboxes in one step. -/
inductive Use where
  | allocate
  | lookUp (actor : ActorId)
  /-- A message is put into the mailbox at a position that a look-up has given. -/
  | put (actor : ActorId) (box : Nat) (message : Message)
  /-- The oldest message is taken from the mailbox at a position that a look-up has given. -/
  | take (actor : ActorId) (box : Nat)
  deriving DecidableEq

/-- The actor whose mailbox is used. -/
def Use.actor? : Use → Option ActorId
  | .allocate => none
  | .lookUp actor | .put actor _ _ | .take actor _ => some actor

/-- What has been done with mailboxes. -/
inductive Deed where
  | allocated (actor : ActorId)
  | found (actor : ActorId) (box : Nat)
  | sent (actor : ActorId) (message : Message)
  | received (actor : ActorId) (message : Message)
  deriving DecidableEq

namespace Deed

def allocated? : Deed → Option ActorId
  | .allocated actor => some actor
  | _ => none

def sentTo? (a : ActorId) : Deed → Option Message
  | .sent actor message => if actor = a then some message else none
  | _ => none

def receivedBy? (a : ActorId) : Deed → Option Message
  | .received actor message => if actor = a then some message else none
  | _ => none

end Deed

end Mailboxes

open Mailboxes

/-- Mailboxes, and what has been done with them, in order. -/
structure MailboxLog where
  mailboxes : Mailboxes := {}
  deeds : List Deed := []
  deriving DecidableEq

namespace MailboxLog

def allocated (l : MailboxLog) : List ActorId :=
  l.deeds.filterMap Deed.allocated?

def sentTo (l : MailboxLog) (a : ActorId) : List Message :=
  l.deeds.filterMap (Deed.sentTo? a)

def receivedBy (l : MailboxLog) (a : ActorId) : List Message :=
  l.deeds.filterMap (Deed.receivedBy? a)

/-- What a use makes of the mailboxes. A look-up can always be made; who puts or takes something
has looked the mailbox up, at any time before; and nothing is taken from an empty mailbox. -/
def step? (l : MailboxLog) : Use → Option MailboxLog
  | .allocate =>
    let (actor, mailboxes) := l.mailboxes.allocate
    some ⟨mailboxes, l.deeds ++ [.allocated actor]⟩
  | .lookUp actor =>
    let (box, mailboxes) := l.mailboxes.locate actor
    some ⟨mailboxes, l.deeds ++ [.found actor box]⟩
  | .put actor box message =>
    if .found actor box ∈ l.deeds then
      some ⟨l.mailboxes.put box message, l.deeds ++ [.sent actor message]⟩
    else none
  | .take actor box =>
    if .found actor box ∈ l.deeds then
      (l.mailboxes.take? box).map fun (message, mailboxes) =>
        ⟨mailboxes, l.deeds ++ [.received actor message]⟩
    else none

def run? (l : MailboxLog) : List Use → Option MailboxLog
  | [] => some l
  | use :: rest => do
    let l ← l.step? use
    l.run? rest

/-- What holds of mailboxes and of what has been done with them at any time. -/
structure Sound (l : MailboxLog) : Prop where
  allocated : l.allocated = (List.range l.mailboxes.lastActor).map (· + 1)
  found : ∀ a i, .found a i ∈ l.deeds → l.mailboxes.Places a i
  once : l.mailboxes.owners.Nodup
  owners : ∀ a, a ∈ l.mailboxes.owners ↔ ∃ i, .found a i ∈ l.deeds
  delivered : ∀ a, l.receivedBy a ++ l.mailboxes.queue a = l.sentTo a

variable {l l' : MailboxLog}

lemma sound_blank : Sound {} where
  allocated := rfl
  found := by simp
  once := List.nodup_nil
  owners := by simp [owners]
  delivered := fun _ => rfl

/-- What a use does to the mailboxes that are in place. -/
inductive Uses (l : MailboxLog) : Use → MailboxLog → Prop
  | allocate : Uses l .allocate ⟨{ l.mailboxes with lastActor := l.mailboxes.lastActor + 1 },
      l.deeds ++ [.allocated (l.mailboxes.lastActor + 1)]⟩
  | lookUp (a : ActorId) : Uses l (.lookUp a)
      ⟨(l.mailboxes.locate a).2, l.deeds ++ [.found a (l.mailboxes.locate a).1]⟩
  | put {a : ActorId} {i : Nat} (message : Message) : .found a i ∈ l.deeds →
      Uses l (.put a i message) ⟨l.mailboxes.send a message, l.deeds ++ [.sent a message]⟩
  | take {a : ActorId} {i : Nat} {message : Message} {rest : List Message} :
      .found a i ∈ l.deeds → l.mailboxes.queue a = message :: rest → Uses l (.take a i)
        ⟨l.mailboxes.setQueue a rest, l.deeds ++ [.received a message]⟩

lemma Sound.uses (hsound : l.Sound) {use : Use} (h : l.step? use = some l') : l.Uses use l' := by
  cases use with
  | allocate =>
    cases h
    exact .allocate
  | lookUp a =>
    cases h
    exact .lookUp a
  | put a i message =>
    simp only [step?] at h
    split at h <;> cases h
    next hfound =>
      rw [(hsound.found a i hfound).put]
      exact .put message hfound
  | take a i =>
    simp only [step?] at h
    split at h
    · next hfound =>
      rw [(hsound.found a i hfound).take?] at h
      simp only [Option.map_eq_some_iff] at h
      obtain ⟨⟨message, m⟩, hreceive, rfl⟩ := h
      obtain ⟨rest, hqueue, rfl⟩ := receive?_eq_some_iff.1 hreceive
      exact .take hfound hqueue
    · cases h

/-- A use leaves the queues of all actors but one as they are. -/
lemma Uses.queue {use : Use} (h : l.Uses use l') {a : ActorId} (ha : use.actor? ≠ some a) :
    l'.mailboxes.queue a = l.mailboxes.queue a := by
  have hne : ∀ {b}, use.actor? = some b → a ≠ b := by
    rintro b hb rfl
    exact ha hb
  cases h with
  | allocate => rfl
  | lookUp b => exact queue_locate _ _ _
  | put message _ => rw [queue_send, if_neg (hne rfl)]
  | take _ _ => rw [queue_setQueue, if_neg (hne rfl)]

lemma Uses.allocated {use : Use} (h : l.Uses use l')
    (hbefore : l.allocated = (List.range l.mailboxes.lastActor).map (· + 1)) :
    l'.allocated = (List.range l'.mailboxes.lastActor).map (· + 1) := by
  have same : ∀ {deed : Deed} {m : Mailboxes}, deed.allocated? = none →
      m.lastActor = l.mailboxes.lastActor → MailboxLog.allocated ⟨m, l.deeds ++ [deed]⟩ =
        (List.range m.lastActor).map (· + 1) := by
    intro deed m hdeed hlast
    rw [MailboxLog.allocated, List.filterMap_append, List.filterMap_cons_none hdeed, hlast,
      ← hbefore]
    exact List.append_nil _
  cases h with
  | allocate =>
    rw [MailboxLog.allocated, List.filterMap_append, List.range_succ, List.map_append, ← hbefore]
    rfl
  | lookUp a => exact same rfl (lastActor_locate _ _)
  | put message hfound => exact same rfl (lastActor_locate _ _)
  | take hfound hqueue => exact same rfl (lastActor_locate _ _)

/-- A mailbox stays where it is. -/
lemma Sound.places (hsound : l.Sound) {use : Use} (h : l.Uses use l') {a : ActorId} {i : Nat}
    (hplaces : l.mailboxes.Places a i) : l'.mailboxes.Places a i := by
  cases h with
  | allocate => exact hplaces
  | lookUp b => exact hplaces.after_locate b
  | put message hfound => exact hplaces.of_owners ((hsound.found _ _ hfound).owners_send message)
  | take hfound _ => exact hplaces.of_owners ((hsound.found _ _ hfound).owners_setQueue _)

/-- The owners of the mailboxes are those that have been looked up. -/
lemma Sound.owners_step (hsound : l.Sound) {use : Use} (h : l.Uses use l') :
    l'.mailboxes.owners.Nodup ∧
      ∀ a, a ∈ l'.mailboxes.owners ↔ ∃ i, .found a i ∈ l'.deeds := by
  have same : ∀ {deed : Deed} {m : Mailboxes}, (∀ a i, deed ≠ .found a i) →
      m.owners = l.mailboxes.owners →
      m.owners.Nodup ∧ ∀ a, a ∈ m.owners ↔ ∃ i, .found a i ∈ l.deeds ++ [deed] := by
    intro deed m hdeed howners
    rw [howners]
    refine ⟨hsound.once, fun a => ?_⟩
    simp only [List.mem_append, List.mem_singleton, (hdeed a _).symm, or_false]
    exact hsound.owners a
  cases h with
  | allocate => exact same (by simp) rfl
  | lookUp b =>
    have hmem : ∀ a, (∃ i, Deed.found a i ∈ l.deeds ++ [.found b (l.mailboxes.locate b).1]) ↔
        a ∈ l.mailboxes.owners ∨ a = b := by
      intro a
      simp only [List.mem_append, List.mem_singleton, Deed.found.injEq, exists_or, hsound.owners a,
        exists_and_left, exists_eq, and_true]
    simp only [hmem]
    rcases l.mailboxes.owners_locate b with ⟨heq, hb⟩ | ⟨heq, hb⟩
    · rw [heq]
      refine ⟨hsound.once, fun a => (or_iff_left_of_imp ?_).symm⟩
      rintro rfl
      exact hb
    · rw [heq]
      refine ⟨List.nodup_append.2 ⟨hsound.once, List.nodup_singleton b, ?_⟩, fun a => by simp⟩
      rintro a ha c hc rfl
      exact hb (List.mem_singleton.1 hc ▸ ha)
  | put message hfound => exact same (by simp) ((hsound.found _ _ hfound).owners_send message)
  | take hfound _ => exact same (by simp) ((hsound.found _ _ hfound).owners_setQueue _)

/-- What has been received and what waits are what has been sent. -/
lemma Uses.delivered {use : Use} (h : l.Uses use l') {a : ActorId}
    (hbefore : l.receivedBy a ++ l.mailboxes.queue a = l.sentTo a) :
    l'.receivedBy a ++ l'.mailboxes.queue a = l'.sentTo a := by
  have hreceived : ∀ (m : Mailboxes) (deed : Deed), receivedBy ⟨m, l.deeds ++ [deed]⟩ a =
      l.receivedBy a ++ [deed].filterMap (Deed.receivedBy? a) := fun _ _ => List.filterMap_append
  have hsent : ∀ (m : Mailboxes) (deed : Deed), sentTo ⟨m, l.deeds ++ [deed]⟩ a =
      l.sentTo a ++ [deed].filterMap (Deed.sentTo? a) := fun _ _ => List.filterMap_append
  have same : ∀ {deed : Deed} {m : Mailboxes}, deed.receivedBy? a = none → deed.sentTo? a = none →
      m.queue a = l.mailboxes.queue a → receivedBy ⟨m, l.deeds ++ [deed]⟩ a ++ m.queue a =
        sentTo ⟨m, l.deeds ++ [deed]⟩ a := by
    intro deed m hr hs hqueue
    rw [hreceived, hsent, List.filterMap_cons_none hr, List.filterMap_cons_none hs, hqueue]
    simpa using hbefore
  cases h with
  | allocate => exact same rfl rfl rfl
  | lookUp b => exact same rfl rfl (queue_locate _ _ _)
  | @put b i message _ =>
    rw [hreceived, hsent, queue_send, ← hbefore]
    by_cases hb : a = b
    · subst hb
      simp [Deed.receivedBy?, Deed.sentTo?]
    · simp [Deed.receivedBy?, Deed.sentTo?, hb, Ne.symm hb]
  | @take b i message rest _ hqueue =>
    rw [hreceived, hsent, queue_setQueue, ← hbefore]
    by_cases hb : a = b
    · subst hb
      simp [Deed.receivedBy?, Deed.sentTo?, hqueue]
    · simp [Deed.receivedBy?, Deed.sentTo?, hb, Ne.symm hb]

lemma Sound.step (hsound : l.Sound) {use : Use} (h : l.step? use = some l') : l'.Sound := by
  have huses := hsound.uses h
  obtain ⟨honce, howners⟩ := hsound.owners_step huses
  refine ⟨huses.allocated hsound.allocated, fun a i hfound => ?_, honce, howners,
    fun a => huses.delivered (hsound.delivered a)⟩
  by_cases hbefore : .found a i ∈ l.deeds
  · exact hsound.places huses (hsound.found a i hbefore)
  · -- only the look-up itself can have found it
    cases huses with
    | lookUp b =>
      simp only [List.mem_append, hbefore, false_or, List.mem_singleton, Deed.found.injEq] at hfound
      obtain ⟨rfl, rfl⟩ := hfound
      exact places_locate _ _
    | allocate | put | take => simp [hbefore] at hfound

lemma Sound.run (hsound : l.Sound) {uses : List Use} (h : l.run? uses = some l') : l'.Sound := by
  induction uses generalizing l with
  | nil =>
    cases h
    exact hsound
  | cons use rest ih =>
    simp only [run?, Option.bind_eq_bind, Option.bind_eq_some_iff] at h
    obtain ⟨l₁, hstep, hrest⟩ := h
    exact ih (hsound.step hstep) hrest

/-- However callers take turns: numbers are given once; all who look an actor's mailbox up find
one and the same, which is made once; what has been received from it and what still waits in it are
together what has been sent to it, in order; and what is done with one mailbox leaves the queues
of the others as they are. -/
theorem received_append_queue {uses : List Use} (h : run? {} uses = some l) :
    l.allocated.Nodup ∧
    (l.mailboxes.owners.Nodup ∧ ∀ a, a ∈ l.mailboxes.owners ↔ ∃ i, .found a i ∈ l.deeds) ∧
    (∀ a i, .found a i ∈ l.deeds → l.mailboxes.boxes[i]? = some ⟨a, l.mailboxes.queue a⟩ ∧
      ∀ b j, .found b j ∈ l.deeds → (i = j ↔ a = b)) ∧
    (∀ a, l.receivedBy a ++ l.mailboxes.queue a = l.sentTo a) ∧
    ∀ use l', l.step? use = some l' → ∀ a, use.actor? ≠ some a →
      l'.mailboxes.queue a = l.mailboxes.queue a := by
  have hsound := sound_blank.run h
  refine ⟨?_, ⟨hsound.once, hsound.owners⟩, fun a i ha => ?_, hsound.delivered,
    fun use l' hstep a ha => (hsound.uses hstep).queue ha⟩
  · rw [hsound.allocated]
    exact List.nodup_range.map fun _ _ => Nat.succ.inj
  · have hplaces := hsound.found a i ha
    exact ⟨hplaces.queue_eq, fun b j hb => hplaces.unique (hsound.found b j hb)⟩

/-- Two callers find the mailbox of actor 1 before either has used it, a third that of actor 2. -/
def sampleUses : List Use :=
  [.allocate, .lookUp 1, .lookUp 1, .allocate, .put 1 0 .start, .lookUp 2, .put 2 1 .start,
    .put 1 0 (.result 2 .abort 7), .take 1 0, .put 1 0 .start]

theorem received_append_queue_shared : ∃ l, run? {} sampleUses = some l ∧
    l.sentTo 1 = [.start, .result 2 .abort 7, .start] ∧
    l.mailboxes.queue 1 = [.result 2 .abort 7, .start] ∧ l.receivedBy 1 = [.start] := by
  have hall : (run? {} sampleUses).any (fun l =>
      l.sentTo 1 = [.start, .result 2 .abort 7, .start] ∧
        l.mailboxes.queue 1 = [.result 2 .abort 7, .start]) = true := by
    decide +kernel
  obtain ⟨l, hrun, hshows⟩ := (Option.any_eq_true _ _).1 hall
  obtain ⟨hsent, hqueue⟩ := of_decide_eq_true hshows
  obtain ⟨-, -, -, hdelivered, -⟩ := received_append_queue hrun
  refine ⟨l, hrun, hsent, hqueue, ?_⟩
  have hfirst : l.receivedBy 1 ++ l.mailboxes.queue 1 = [.start] ++ l.mailboxes.queue 1 := by
    rw [hdelivered 1, hsent, hqueue]
    rfl
  exact List.append_cancel_right hfirst

end MailboxLog

end EvalServer
