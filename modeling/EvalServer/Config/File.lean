import EvalServer.Config.Basic

/-!
# Configuration files

A configuration is read from a file that is named and must be there, else from the file of the
default name if that is there; without any file every setting has its default.
-/

namespace EvalServer

/-- Why there is no configuration. -/
inductive ConfigError where
  | notFound (path : String)
  | reading (path : String)
  | parsing (path : String)
  deriving Repr, DecidableEq

def ConfigError.message : ConfigError → String
  | .notFound path => "config file " ++ path ++ " not found"
  | .reading path => "reading " ++ path
  | .parsing path => "parsing " ++ path

namespace Config

/-- The name of the file that is read if none is named. -/
def defaultFile : String := "swankd.toml"

def read (files : File.Store) (home : Option String) (path : String) :
    Except ConfigError Config :=
  match files.readText path with
  | .error _ => .error (.reading path)
  | .ok text =>
    match (Toml.parse? text).bind (ofTable? (default home)) with
    | some c => .ok c
    | none => .error (.parsing path)

/-- The configuration of the named file, of the file of the default name, or of no file. -/
def load (files : File.Store) (home : Option String) (path : Option String) :
    Except ConfigError Config :=
  match path with
  | some path => if files.pathExists path then read files home path else .error (.notFound path)
  | none => if files.pathExists defaultFile then read files home defaultFile else .ok (default home)

def save (c : Config) (files : File.Store) (path : String) : Except FileError File.Store :=
  files.writeText path c.toToml

end Config

end EvalServer
