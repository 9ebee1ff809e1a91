import EvalServer.Evaluation.EditorCall
import EvalServer.Text.Json
import EvalServer.Toml.Reader
import EvalServer.Toml.Writer

/-!
# Configuration

The settings of a server, and how they stand in a TOML document: one entry a setting, with no
entry for a path that is not set. A setting without an entry has its default, and entries that are
no settings mean nothing. Main definitions: `entries`, and `ofTable?`, which reads them back.
-/

namespace EvalServer

/-- The settings of a server. -/
structure Config where
  host : String
  port : UInt16
  portFile : Option String
  style : Style
  keepListening : Bool
  coding : Coding
  secretFile : Option String
  dedicatedOutput : Bool
  sourcePaths : List String
  logFilter : String
  deriving Repr, DecidableEq

/-- The word by which settings and options name a style. -/
def Style.word : Style → String
  | .spawn => "spawn"
  | .inline => "none"

def Style.ofWord? (s : String) : Option Style :=
  [Style.spawn, Style.inline].find? fun style => style.word = s

namespace Config

/-- The settings of a server that nobody has configured, for a user's home directory. -/
def default (home : Option String) : Config where
  host := "127.0.0.1"
  port := 4005
  portFile := none
  style := .spawn
  keepListening := false
  coding := .utf8
  secretFile := home.map fun home => File.join home ".slime-secret"
  dedicatedOutput := false
  sourcePaths := []
  logFilter := "swankd=info"

/-- A setting that may be missing. -/
def optional (key : String) (value : Option String) : List (String × Toml.Entry) :=
  (value.map fun text => (key, Toml.Entry.string text)).toList

def entries (c : Config) : List (String × Toml.Entry) :=
  [("host", .string c.host), ("port", .integer c.port.toNat)] ++
  optional "port_file" c.portFile ++
  [("style", .string c.style.word), ("keep_listening", .boolean c.keepListening),
   ("coding_system", .string c.coding.name)] ++
  optional "secret_file" c.secretFile ++
  [("dedicated_output", .boolean c.dedicatedOutput), ("source_paths", .strings c.sourcePaths),
   ("log_filter", .string c.logFilter)]

def toToml (c : Config) : String :=
  Toml.print c.entries

def toJson (c : Config) : String :=
  let value : Toml.Entry → String
    | .string text => Text.Json.quoted text
    | .strings texts => Text.Json.lines "[" "]" "  " (texts.map Text.Json.quoted)
    | entry => entry.print
  Text.Json.lines "\x7b" "\x7d" "" (c.entries.map fun e =>
    Text.Json.quoted e.1 ++ ": " ++ value e.2)

/-! ### Reading settings -/

def string? : Toml.Value → Option String
  | .string text => some text
  | _ => none

/-- Whether a value stands for nothing more than the key it has. -/
def isEmptyValue : Toml.Value → Bool
  | .array [] => true
  | .table _ [] => true
  | _ => false

/-- A choice among words: a string, or a table whose only key is the word. -/
def choice? : Toml.Value → Option String
  | .string text => some text
  | .table _ [(word, value)] => if isEmptyValue value then some word else none
  | _ => none

def boolean? : Toml.Value → Option Bool
  | .boolean b => some b
  | _ => none

def port? : Toml.Value → Option UInt16
  | .integer n => if 0 ≤ n ∧ n < 65536 then some (UInt16.ofNat n.toNat) else none
  | _ => none

def strings? : Toml.Value → Option (List String)
  | .array elements => elements.mapM string?
  | _ => none

/-- A setting of a table: its default if it has no entry, and nothing if its entry is of the wrong
kind. -/
def setting {α : Type} (t : Toml.Table) (key : String) (read : Toml.Value → Option α)
    (fallback : α) : Option α :=
  match t.lookup key with
  | none => some fallback
  | some v => read v

def ofTable? (fallback : Config) (t : Toml.Table) : Option Config := do
  return {
    host := ← setting t "host" string? fallback.host
    port := ← setting t "port" port? fallback.port
    portFile := ← setting t "port_file" (fun v => (string? v).map some) fallback.portFile
    style := ← setting t "style" (fun v => (choice? v).bind Style.ofWord?) fallback.style
    keepListening := ← setting t "keep_listening" boolean? fallback.keepListening
    coding := ← setting t "coding_system" (fun v => (choice? v).bind Coding.ofName?)
      fallback.coding
    secretFile := ← setting t "secret_file" (fun v => (string? v).map some) fallback.secretFile
    dedicatedOutput := ← setting t "dedicated_output" boolean? fallback.dedicatedOutput
    sourcePaths := ← setting t "source_paths" strings? fallback.sourcePaths
    logFilter := ← setting t "log_filter" string? fallback.logFilter }

end Config

end EvalServer
