import EvalServer.Message.Server

/-!
# Indentation hints already sent

A session remembers which hints its client has, and sends only new and changed ones.
-/

namespace EvalServer

/-- The hints that the client has, at most one a name. -/
structure HintTable where
  hints : List Hint := []
  deriving Repr, DecidableEq

namespace HintTable

def find? (t : HintTable) (name : String) : Option Int64 :=
  (t.hints.find? (·.1 == name)).map (·.2)

def insert (t : HintTable) (hint : Hint) : HintTable :=
  ⟨hint :: t.hints.filter (·.1 != hint.1)⟩

/-- The order in which hints are sent: by name, then by indent. -/
def precedes (a b : Hint) : Bool :=
  a.1 < b.1 || (a.1 == b.1 && a.2 ≤ b.2)

/-- Records hints, of which it returns those that the client did not have, in order. -/
def update (t : HintTable) (hints : List Hint) : List Hint × HintTable :=
  let delta := hints.filter fun hint => t.find? hint.1 ≠ some hint.2
  (delta.mergeSort precedes, delta.foldl insert t)

@[simp] theorem find?_insert (t : HintTable) (hint : Hint) (name : String) :
    (t.insert hint).find? name = if name = hint.1 then some hint.2 else t.find? name := by
  unfold find? insert
  by_cases h : name = hint.1
  · simp [h]
  · have h' : ¬ hint.1 = name := fun e => h e.symm
    rw [List.find?_cons_of_neg (by simpa using h'), List.find?_filter, if_neg h]
    congr 2
    funext x
    by_cases hx : x.1 = name <;> simp [hx, h]

end HintTable

end EvalServer
