import EvalServer.Session.Basic

/-!
# Dedicated output

The client may connect to a stream of its own for program output. Once it has, the texts that jobs
queue are written to it; texts that cannot be encoded are left out. When the stream fails, program
output goes back to the connection.
-/

namespace EvalServer

def Output.write (o : Output) (coding : Coding) (text : String) : Output :=
  match coding.encode text with
  | .error _ => o
  | .ok bytes =>
    let sent := o.writer.transmit bytes
    { o with
      writer := sent.writer
      written := o.written ++ sent.taken
      phase := if sent.failure.isSome then .failing else o.phase }

namespace World

def changeOutput (w : World) (f : Output → Output) : World :=
  w.change fun s => { s with output := f s.output }

def connectOutput? (w : World) : Option World :=
  match w.session.output.phase with
  | .listening => some (w.changeOutput fun o => { o with phase := .connected })
  | _ => none

/-- The next step of the task that serves the stream, if it can do anything. -/
def outputStep? (w : World) : Option World :=
  match w.session.output.phase with
  | .connected => some (w.changeOutput fun o => { o with phase := .serving, installed := true })
  | .serving =>
    match w.session.output.queue with
    | text :: queue =>
      some (w.changeOutput fun o =>
        ({ o with queue } : Output).write w.session.host.coding text)
    | [] =>
      if w.session.output.installed then none
      else some (w.changeOutput fun o => { o with phase := .failing })
  | .failing => some (w.changeOutput fun o => { o with phase := .ended, installed := false })
  | .absent | .listening | .ended => none

/-- The task that serves the stream ends where it waits, if it has been killed. -/
def outputEnd? (w : World) : Option World :=
  match w.session.output.phase with
  | .listening | .serving =>
    if w.session.output.killed then some (w.changeOutput fun o => { o with phase := .ended })
    else none
  | _ => none

end World

end EvalServer
