import EvalServer.Sexp.Basic

/-!
# Thread designators

Editors address the actors of a session by designators: any actor, the session's REPL, an actor's
number or an actor's name. Several spellings stand for the first two.
-/

namespace EvalServer

/-- Which actor a client message addresses. -/
inductive Thread where
  | any
  | repl
  | id (n : Nat)
  | name (name : String)
  deriving Repr, DecidableEq

namespace Thread

def ofName (s : String) : Thread :=
  if s = "default" ∨ s = "all" then .any
  else if s = "repl" ∨ s = "repl-thread" then .repl
  else .name s

/-- The designator that a value stands for. -/
def ofSexp? : Sexp → Option Thread
  | .t => some .any
  | .int n => if 0 ≤ n.toInt then some (.id n.toInt.toNat) else none
  | .keyword s | .str s | .symbol s => some (ofName s)
  | _ => none

end Thread

end EvalServer
