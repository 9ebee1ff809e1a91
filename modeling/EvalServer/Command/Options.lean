import EvalServer.Config.Basic

/-!
# Command-line options

Options are given once each, except for source paths, and come before the subcommand. Main
definition: `parse?`, which answers nothing for arguments that cannot be understood.
-/

namespace EvalServer.Command

/-- What the program is told to do. -/
inductive Task where
  | serve
  | showConfig
  | generateConfig (path : String)
  deriving Repr, DecidableEq

structure Options where
  task : Task := .serve
  configFile : Option String := none
  host : Option String := none
  port : Option UInt16 := none
  portFile : Option String := none
  style : Option Style := none
  keepListening : Bool := false
  coding : Option Coding := none
  secretFile : Option String := none
  dedicatedOutput : Bool := false
  sourcePaths : List String := []
  json : Bool := false
  deriving Repr, DecidableEq

namespace Options

def port? (s : String) : Option UInt16 :=
  (Text.Decimal.toInt? s.toList).bind fun n => Config.port? (.integer n)

/-- A path on the command line is not empty. -/
def path? (s : String) : Option String :=
  if s.isEmpty then none else some s

/-- The first value of an option that may be given once. -/
def once {α : Type} (old new : Option α) : Option (Option α) :=
  if old.isSome || new.isNone then none else some new

def takesValue (name : String) : Bool :=
  name ∈ ["config", "host", "port", "port-file", "style", "coding-system", "secret-file",
    "source-path"]

def set? (o : Options) (name value : String) : Option Options :=
  match name with
  | "config" => (once o.configFile (path? value)).map fun configFile => { o with configFile }
  | "host" => (once o.host (some value)).map fun host => { o with host }
  | "port" => (once o.port (port? value)).map fun port => { o with port }
  | "port-file" => (once o.portFile (path? value)).map fun portFile => { o with portFile }
  | "style" => (once o.style (Style.ofWord? value)).map fun style => { o with style }
  | "coding-system" => (once o.coding (Coding.ofName? value)).map fun coding => { o with coding }
  | "secret-file" => (once o.secretFile (path? value)).map fun secretFile => { o with secretFile }
  | "source-path" =>
    (path? value).map fun path => { o with sourcePaths := o.sourcePaths ++ [path] }
  | _ => none

def enable? (o : Options) (name : String) : Option Options :=
  match name with
  | "keep-listening" => if o.keepListening then none else some { o with keepListening := true }
  | "dedicated-output" =>
    if o.dedicatedOutput then none else some { o with dedicatedOutput := true }
  | "json" => if o.json then none else some { o with json := true }
  | _ => none

/-- The name of a long option, and the value that stands with it after an equals sign. -/
def split? (argument : String) : Option (String × Option String) :=
  match argument.toList with
  | '-' :: '-' :: cs =>
    let name := String.ofList (cs.takeWhile (· ≠ '='))
    match cs.dropWhile (· ≠ '=') with
    | [] => some (name, none)
    | _ :: value => some (name, some (String.ofList value))
  | _ => none

/-- Whether an argument that follows an option may be its value. -/
def isValue (argument : String) : Bool :=
  !argument.startsWith "-" || argument = "-"

/-- Whether no arguments are left, but for the mark that options end. -/
def isEnd (arguments : List String) : Bool :=
  arguments = [] || arguments = ["--"]

/-- The value of an option: what stands with it, or else the next argument. -/
def valueOf (inline : Option String) (rest : List String) : Option (String × List String) :=
  match inline, rest with
  | some value, rest => some (value, rest)
  | none, value :: rest => if isValue value then some (value, rest) else none
  | none, [] => none

/-- The file that a configuration is written to if none is named. -/
def defaultOutput : String := "swankd.toml"

/-- The task that a subcommand and its arguments stand for. -/
def task? (subcommand : String) (arguments : List String) : Option Task :=
  match subcommand, arguments with
  | "show-config", rest => if isEnd rest then some .showConfig else none
  | "generate-config", option :: rest =>
    if isEnd (option :: rest) then some (.generateConfig defaultOutput)
    else
      match split? option with
      | some ("output", inline) => do
        let (value, rest) ← valueOf inline rest
        let path ← path? value
        if isEnd rest then some (.generateConfig path) else none
      | _ => none
  | "generate-config", [] => some (.generateConfig defaultOutput)
  | _, _ => none

/-- Reads arguments, of which there are at most `limit`. -/
def parseFrom : (limit : Nat) → Options → List String → Option Options
  | 0, o, arguments => if isEnd arguments then some o else none
  | limit + 1, o, arguments =>
    match arguments with
    | [] => some o
    | argument :: rest =>
      if isEnd arguments then some o
      else
        match split? argument with
        | none => (task? argument rest).map fun task => { o with task }
        | some (name, inline) =>
          if takesValue name then do
            let (value, rest) ← valueOf inline rest
            parseFrom limit (← o.set? name value) rest
          else if inline.isSome then none
          else do parseFrom limit (← o.enable? name) rest

def parse? (arguments : List String) : Option Options :=
  parseFrom arguments.length {} arguments

def apply (o : Options) (c : Config) : Config where
  host := o.host.getD c.host
  port := o.port.getD c.port
  portFile := o.portFile.or c.portFile
  style := o.style.getD c.style
  keepListening := c.keepListening || o.keepListening
  coding := o.coding.getD c.coding
  secretFile := o.secretFile.or c.secretFile
  dedicatedOutput := c.dedicatedOutput || o.dedicatedOutput
  sourcePaths := if o.sourcePaths.isEmpty then c.sourcePaths else o.sourcePaths
  logFilter := c.logFilter

end Options

end EvalServer.Command
