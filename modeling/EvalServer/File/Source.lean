import EvalServer.File.Store

/-!
# Source files

Where the file of a name is: an absolute name is itself a path, any other is looked for in each of
a list of directories.
-/

namespace EvalServer.File

/-- The paths that a name may have, in order of preference. -/
def candidates (name : String) (directories : List String) : List String :=
  if name.startsWith "/" then [name] else directories.map fun directory => join directory name

/-- The first path of a name that leads to a file. -/
def findSource (s : Store) (name : String) (directories : List String) : Option String :=
  (candidates name directories).find? s.isFile

end EvalServer.File
