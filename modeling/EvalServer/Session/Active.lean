import EvalServer.Session.Mailbox

/-!
# Active evaluations

The actors that have taken on an evaluation for the client, in the order of their numbers.
-/

namespace EvalServer

structure ActiveSet where
  members : List ActorId := []
  sorted : members.Pairwise (· < ·) := by simp
  deriving Repr, DecidableEq

namespace ActiveSet

/-- Puts a number in its place among ascending numbers, unless it is there. -/
def place (actor : ActorId) : List ActorId → List ActorId
  | [] => [actor]
  | a :: rest =>
    if actor < a then actor :: a :: rest
    else if actor = a then a :: rest
    else a :: place actor rest

theorem mem_place {actor a : ActorId} {members : List ActorId} :
    a ∈ place actor members ↔ a = actor ∨ a ∈ members := by
  induction members with
  | nil => simp [place]
  | cons b rest ih =>
    unfold place
    split
    · simp
    · split
      · next h => subst h; simp
      · simp only [List.mem_cons, ih]
        constructor <;> rintro (h | h | h) <;> simp [h]

theorem sorted_place {actor : ActorId} {members : List ActorId}
    (h : members.Pairwise (· < ·)) : (place actor members).Pairwise (· < ·) := by
  induction members with
  | nil => simp [place]
  | cons b rest ih =>
    have hb := List.pairwise_cons.1 h
    unfold place
    split
    · next hlt =>
      refine List.pairwise_cons.2 ⟨fun c hc => ?_, h⟩
      rcases List.mem_cons.1 hc with rfl | hc
      · exact hlt
      · exact Nat.lt_trans hlt (hb.1 c hc)
    · next hle =>
      split
      · exact h
      · next hne =>
        refine List.pairwise_cons.2 ⟨fun c hc => ?_, ih hb.2⟩
        rcases mem_place.1 hc with rfl | hc
        · exact Nat.lt_of_le_of_ne (Nat.le_of_not_lt hle) (Ne.symm hne)
        · exact hb.1 c hc

def add (s : ActiveSet) (actor : ActorId) : ActiveSet :=
  ⟨place actor s.members, sorted_place s.sorted⟩

def remove (s : ActiveSet) (actor : ActorId) : ActiveSet :=
  ⟨s.members.filter (· ≠ actor), s.sorted.filter _⟩

def contains (s : ActiveSet) (actor : ActorId) : Bool :=
  s.members.contains actor

/-- The member with the least number among those accepted. -/
def firstWhere (s : ActiveSet) (accept : ActorId → Bool) : Option ActorId :=
  s.members.find? accept

@[simp] theorem mem_add {s : ActiveSet} {actor a : ActorId} :
    a ∈ (s.add actor).members ↔ a = actor ∨ a ∈ s.members :=
  mem_place

@[simp] theorem mem_remove {s : ActiveSet} {actor a : ActorId} :
    a ∈ (s.remove actor).members ↔ a ∈ s.members ∧ a ≠ actor := by
  simp [remove]

theorem contains_iff {s : ActiveSet} {actor : ActorId} :
    s.contains actor = true ↔ actor ∈ s.members := by
  simp [contains]

/-- The first member accepted is accepted, and no accepted member has a lesser number. -/
theorem firstWhere_eq_some_iff {s : ActiveSet} {accept : ActorId → Bool} {actor : ActorId} :
    s.firstWhere accept = some actor ↔
      (actor ∈ s.members ∧ accept actor) ∧ ∀ a ∈ s.members, accept a → actor ≤ a := by
  obtain ⟨members, sorted⟩ := s
  simp only [firstWhere]
  induction members with
  | nil => simp
  | cons b rest ih =>
    have hb := List.pairwise_cons.1 sorted
    rw [List.find?_cons]
    cases h : accept b with
    | true =>
      constructor
      · rintro ⟨rfl⟩
        refine ⟨⟨by simp, h⟩, fun a ha _ => ?_⟩
        rcases List.mem_cons.1 ha with rfl | ha
        · exact Nat.le_refl _
        · exact Nat.le_of_lt (hb.1 a ha)
      · rintro ⟨⟨ha, -⟩, hle⟩
        rcases List.mem_cons.1 ha with rfl | ha
        · rfl
        · exact absurd (hle b (by simp) h) (Nat.not_le_of_lt (hb.1 _ ha))
    | false =>
      rw [ih hb.2]
      constructor
      · rintro ⟨⟨ha, hacc⟩, hle⟩
        refine ⟨⟨List.mem_cons_of_mem _ ha, hacc⟩, fun a ham haa => ?_⟩
        rcases List.mem_cons.1 ham with rfl | ham
        · simp [h] at haa
        · exact hle a ham haa
      · rintro ⟨⟨ha, hacc⟩, hle⟩
        rcases List.mem_cons.1 ha with rfl | ha
        · simp [h] at hacc
        · exact ⟨⟨ha, hacc⟩, fun a ham => hle a (List.mem_cons_of_mem _ ham)⟩

end ActiveSet

end EvalServer
