/-!
# TOML values and tables

The values of a TOML document, and the rules by which its lines build tables: a table may be
opened by one header, a header may pass through any tables on its way, and dotted keys add only to
tables that dotted keys or longer headers have made.
-/

namespace EvalServer.Toml

/-- How a table has come to be. -/
inductive Origin where
  /-- It was written between braces, and nothing is added to it. -/
  | inline
  /-- It has a header of its own. -/
  | header
  /-- The header of a table below it has made it. -/
  | implied
  /-- A dotted key has made it. -/
  | dotted
  deriving Repr, DecidableEq

/-- A value. Numbers with a fraction and times are kept as they are written. -/
inductive Value where
  | string (text : String)
  | integer (n : Int)
  | float (text : String)
  | boolean (b : Bool)
  | time (text : String)
  | array (elements : List Value)
  | table (origin : Origin) (entries : List (String × Value))
  /-- The tables of headers with double brackets, the latest last. -/
  | tables (elements : List (List (String × Value)))
  deriving Repr

/-- The entries of a table, in the order of their writing. -/
abbrev Table := List (String × Value)

namespace Table

/-- Puts a value in the place of the value that a key has. -/
def exchange (t : Table) (key : String) (v : Value) : Table :=
  t.map fun entry => if entry.1 = key then (key, v) else entry

/-- Changes the last of some tables. -/
def changeLast (f : Table → Option Table) : List Table → Option (List Table)
  | [] => none
  | [t] => (f t).map fun t => [t]
  | t :: rest => (changeLast f rest).map fun rest => t :: rest

/-- Adds an entry to the table that dotted keys lead to; `open_` says whether entries may be added
to the table where the keys start. -/
def add (key : String) (v : Value) (open_ : Bool) : List String → Table → Option Table
  | [], t => if open_ && (t.lookup key).isNone then some (t ++ [(key, v)]) else none
  | k :: path, t =>
    match t.lookup k with
    | none => (add key v true path []).map fun sub => t ++ [(k, .table .dotted sub)]
    | some (.table .dotted sub) =>
      (add key v true path sub).map fun sub => t.exchange k (.table .dotted sub)
    | some (.table .implied sub) =>
      (add key v false path sub).map fun sub => t.exchange k (.table .implied sub)
    | some (.tables elements) =>
      (changeLast (add key v false path) elements).map fun elements =>
        t.exchange k (.tables elements)
    | some _ => none

/-- Changes the table that the keys of a header lead to, making the tables that are not there. -/
def descend (f : Table → Option Table) : List String → Table → Option Table
  | [], t => f t
  | k :: path, t =>
    match t.lookup k with
    | none => (descend f path []).map fun sub => t ++ [(k, .table .implied sub)]
    | some (.table .inline _) => none
    | some (.table origin sub) =>
      (descend f path sub).map fun sub => t.exchange k (.table origin sub)
    | some (.tables elements) =>
      (changeLast (descend f path) elements).map fun elements => t.exchange k (.tables elements)
    | some _ => none

def openTable (key : String) (t : Table) : Option Table :=
  match t.lookup key with
  | none => some (t ++ [(key, .table .header [])])
  | some (.table .implied sub) => some (t.exchange key (.table .header sub))
  | some _ => none

def openElement (key : String) (t : Table) : Option Table :=
  match t.lookup key with
  | none => some (t ++ [(key, .tables [[]])])
  | some (.tables elements) => some (t.exchange key (.tables (elements ++ [[]])))
  | some _ => none

end Table

end EvalServer.Toml
