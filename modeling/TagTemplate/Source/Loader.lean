import TagTemplate.Source.Files

/-! # Loading sources by name

A loader finds the text of a template by its name in a list of directories.  Each name is tried
as it stands and with the extension of templates. -/

namespace TagTemplate

/-- Why a source cannot be loaded. -/
inductive LoadError where
  | notFound (name : String)
  | unreadable (path : String) (cause : FileError)
deriving DecidableEq, Repr

namespace LoadError

def display : LoadError → String
  | notFound name => "template source not found: " ++ name
  | unreadable path cause => "error reading template file " ++ path ++ ": " ++ cause.message

end LoadError

/-- What loads a source by its name, from the directories of a search root. -/
abbrev Loader := String → List String → Except LoadError String

namespace Loader

/-- The search root of pages, layouts and inclusions. -/
def templates : String := "templates"

/-- The search root of modules. -/
def modules : String := "modules"

/-- A name with the extension of templates. -/
def withExtension (name : String) : String :=
  name ++ ".tpl"

def ofSources (sources : NameMap String) : Loader := fun name _ =>
  match sources.get? name with
  | some source => .ok source
  | none =>
    match sources.get? (withExtension name) with
    | some source => .ok source
    | none => .error (.notFound name)

/-- The path of a name in a directory.  An absolute name is a path by itself. -/
def join (directory name : String) : String :=
  if name.toList.head? = some '/' then name
  else if directory = "" ∨ directory.toList.getLast? = some '/' then directory ++ name
  else directory ++ "/" ++ name

/-- The paths tried for a name, in order. -/
def candidates (name : String) (directories : List String) : List String :=
  let names := [name, withExtension name]
  if directories.isEmpty then names else directories.flatMap fun d => names.map (join d)

/-- The text of a file, whatever it is. -/
def readSource (files : Files) (path : String) : Except LoadError String :=
  (files.read path).mapError (.unreadable path)

/-- The loader of sources in files: the first candidate that is a file. -/
def ofFiles (files : Files) : Loader := fun name directories =>
  match (candidates name directories).find? files.isFile with
  | some path => readSource files path
  | none => .error (.notFound name)

end Loader

end TagTemplate
