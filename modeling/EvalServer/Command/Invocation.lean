import EvalServer.Command.LogFilter
import EvalServer.Command.Options
import EvalServer.Config.File

/-!
# Invocations

What a run of the program comes to, given its arguments, the user's home directory and the files:
it ends with an exit code and a text, or it goes on as a server.
-/

namespace EvalServer.Command

/-- How a run ends. -/
structure Exit where
  code : Nat
  output : String
  files : File.Store
  deriving Repr, DecidableEq

inductive Outcome where
  | exit (e : Exit)
  /-- A server is started; what it announces may be JSON. -/
  | serve (config : Config) (json : Bool)
  deriving Repr, DecidableEq

/-- The exit code for arguments that cannot be understood. -/
def usageCode : Nat := 2

/-- The exit code for every other failure. -/
def failureCode : Nat := 1

/-- The exit code of a run that could not go on. -/
def abortCode : Nat := 101

/-- What is printed after the configuration has been written to a file. -/
def writtenText (json : Bool) (path : String) : String :=
  if json then "\x7b\x22config_file\x22:" ++ Text.Json.quoted path ++ "\x7d\n"
  else "Configuration written to " ++ path ++ "\n"

/-- What a server prints when it has begun to listen, or, if it serves connections itself, when it
has served them. -/
def listeningText (json : Bool) (port : UInt16) (style : Style) : String :=
  let port := Text.Decimal.natText port.toNat
  if json then "\x7b\x22port\x22:" ++ port ++ ",\x22style\x22:" ++
    Text.Json.quoted style.name ++ "\x7d\n"
  else "swankd listening on port " ++ port ++ "\n"

def perform (files : File.Store) (home : Option String) (o : Options) : Outcome :=
  let stop (code : Nat) : Outcome := .exit ⟨code, "", files⟩
  match Config.load files home o.configFile with
  | .error _ => stop failureCode
  | .ok c =>
    let c := o.apply c
    match LogFilter.judgeAll c.logFilter with
    | .refused => stop failureCode
    | .aborted => stop abortCode
    | .accepted =>
      match o.task with
      | .serve => .serve c o.json
      | .showConfig => .exit ⟨0, if o.json then c.toJson ++ "\n" else c.toToml, files⟩
      | .generateConfig path =>
        match c.save files path with
        | .ok files => .exit ⟨0, writtenText o.json path, files⟩
        | .error _ => stop failureCode

/-- What a run with arguments comes to. -/
def invoke (files : File.Store) (home : Option String) (arguments : List String) : Outcome :=
  match Options.parse? arguments with
  | none => .exit ⟨usageCode, "", files⟩
  | some o => perform files home o

end EvalServer.Command
