/-!
# The quit signal

A request to quit sets a flag and then wakes everybody who waits. A waiter first makes itself known,
so that it gets every later wake-up, then looks at the flag, and sleeps only if it is not set.
-/

namespace EvalServer

/-- Where somebody who waits for the signal stands. -/
inductive QuitWaiter where
  | starting
  /-- Known, the flag not looked at yet; `woken` says whether a wake-up has come since. -/
  | known (woken : Bool)
  | asleep (woken : Bool)
  | returned
  deriving Repr, DecidableEq

def QuitWaiter.wake : QuitWaiter → QuitWaiter
  | .known _ => .known true
  | .asleep _ => .asleep true
  | waiter => waiter

/-- The signal and those who wait for it. -/
structure QuitSignal where
  requested : Bool := false
  waiters : List QuitWaiter := []
  deriving Repr, DecidableEq

namespace QuitSignal

/-- The first step of a request: the flag is set. -/
def set (q : QuitSignal) : QuitSignal :=
  { q with requested := true }

/-- The second step of a request: those who wait are woken. -/
def wakeAll (q : QuitSignal) : QuitSignal :=
  { q with waiters := q.waiters.map .wake }

def join (q : QuitSignal) : QuitSignal :=
  { q with waiters := q.waiters ++ [.starting] }

/-- What a waiter does next, if it can do anything. -/
def advance (requested : Bool) : QuitWaiter → Option QuitWaiter
  | .starting => some (.known false)
  | .known woken => some (if requested then .returned else .asleep woken)
  | .asleep true => some .starting
  | .asleep false => none
  | .returned => none

/-- The next step of a waiter. -/
def step? (q : QuitSignal) (index : Nat) : Option QuitSignal := do
  let waiter ← q.waiters[index]?
  let next ← advance q.requested waiter
  return { q with waiters := q.waiters.set index next }

end QuitSignal

end EvalServer
