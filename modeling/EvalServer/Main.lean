import EvalServer.Command.Invocation
import EvalServer.Server.Step

/-!
# The program

The outermost layer: it looks up files when they are asked for, carries bytes between the server
and its client, and lets time go by. The server's connection is the program's standard input and
output, as for a program that is started once for each connection.
-/

namespace EvalServer.Program

/-- Copies what stands at a path into the store, and the directory above it if nothing does. -/
def fetch (files : File.Store) (path : String) : IO File.Store := do
  let place := files.placeOf path
  let real := (← IO.currentDir) / path
  if ← real.isDir then return files.putDirectory place
  if ← real.pathExists then
    return files.putFile place (← IO.FS.readBinFile real).toList
  match real.parent with
  | some above => return if ← above.isDir then files.putDirectory place.dropLast else files
  | none => return files

/-- Copies what stands at some paths into the store. -/
def fetchAll (files : File.Store) (paths : List String) : IO File.Store :=
  paths.foldlM fetch files

/-- How deep files may load one another. -/
def loadDepth : Nat := 1000

/-- The first port of a system that has no sockets. -/
def basePort : UInt16 := 40000

/-- More steps than it takes to begin to listen. -/
def stepLimit : Nat := 1000

/-- The paths that the sessions of a server are about to look up. -/
def wanted (s : Server) : List String :=
  s.sessions.flatMap fun session => session.jobs.filterMap Job.wants?

/-- Takes steps until none can be taken. -/
partial def advance (s : Server) : IO Server := do
  let files ← fetchAll s.image.files (wanted s)
  let s := { s with image := { s.image with files } }
  match s.next? basePort with
  | none => return s
  | some s => advance s

/-- How long the first job that rests still does so, and the server after that. -/
def rest? (s : Server) : Option (Nat × Server) := do
  let session ← s.sessions[0]?
  let milliseconds ← session.jobs.findSome? fun job => match job.phase with
    | .resting milliseconds _ => some milliseconds
    | _ => none
  let w ← (← s.world? 0).wakeFirst?
  return (milliseconds, s.putWorld 0 w)

/-- The bytes written by the first session. -/
def written (s : Server) : List UInt8 :=
  ((s.sessions[0]?).map fun session => session.connection.outbound).getD []

/-- Serves the connection until it ends. `seen` counts the bytes that the client has got, and
`reading` is the read that is going on, if the client has not ended its direction. -/
partial def attend (s : Server) (seen : Nat) (input output : IO.FS.Stream)
    (reading : Option (Task (Except IO.Error ByteArray))) : IO Unit := do
  let s ← advance s
  let bytes := written s
  output.write (ByteArray.mk (bytes.drop seen).toArray)
  output.flush
  let ended := (s.visits[0]?).all fun v => v.phase = .ended
  if ended || s.image.quit.requested then return
  let arrived ← match reading with
    | some task => if ← IO.hasFinished task then pure (some task.get) else pure none
    | none => pure none
  match arrived with
  | some (.ok got) =>
    if got.isEmpty then
      attend ((s.step? (.endInput 0)).getD s) bytes.length input output none
    else
      let s := (s.step? (.deliver 0 (.bytes got.toList))).getD s
      attend s bytes.length input output (some (← IO.asTask (input.read 1)))
  | some (.error e) =>
    let s := (s.step? (.deliver 0 (.failure e.toString))).getD s
    attend s bytes.length input output none
  | none =>
    let (milliseconds, s) := (rest? s).getD (1, s)
    IO.sleep (UInt32.ofNat milliseconds)
    attend s bytes.length input output reading

/-- Serves one connection over standard input and output. -/
def serve (files : File.Store) (config : Config) (directory processId : String) : IO UInt32 := do
  let files ← fetchAll files (config.secretFile.toList ++ config.portFile.toList)
  let s : Server :=
    { config, processId, workingDirectory := directory, loadDepth, image := { files } }
  match s.listen basePort stepLimit ⟨0, config.style, false⟩ with
  | (some (.ok _), s) =>
    let s := (s.step? (.connect 0)).getD s
    let input ← IO.getStdin
    attend s 0 input (← IO.getStdout) (some (← IO.asTask (input.read 1)))
    return 0
  | _ => return UInt32.ofNat Command.failureCode

def run (arguments : List String) : IO UInt32 := do
  let home ← IO.getEnv "HOME"
  let directory ← IO.currentDir
  let place := File.Store.components directory.toString
  let start : File.Store := { workingDirectory := place }
  let options := Command.Options.parse? arguments
  let target := options.bind fun o => match o.task with
    | .generateConfig path => some path
    | _ => none
  let files ← fetchAll (start.putDirectory place)
    (Config.defaultFile :: (options.bind (·.configFile)).toList ++ target.toList)
  match Command.invoke files home arguments with
  | .exit e =>
    match target with
    | some path =>
      if e.code = 0 then
        IO.FS.writeFile path ((e.files.readText path).toOption.getD "")
    | none => pure ()
    IO.print e.output
    return UInt32.ofNat e.code
  | .serve config _ =>
    let self ← IO.FS.realPath "/proc/self"
    serve files config directory.toString ((self.fileName).getD "0")

end EvalServer.Program

/-- Runs the program with the arguments of the command line. -/
def main (arguments : List String) : IO UInt32 :=
  EvalServer.Program.run arguments
