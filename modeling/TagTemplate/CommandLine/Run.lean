import TagTemplate.CommandLine.Options
import TagTemplate.CommandLine.Reference
import TagTemplate.References
import TagTemplate.Report
import TagTemplate.SettingsFile

/-! # The command

The command renders a file or its standard input with settings and variables from files and
options.  `run` says what it writes and how it ends, `filesNeeded` which files it can look at. -/

namespace TagTemplate.CommandLine

/-- Why variables cannot be had. -/
inductive BindingsError where
  | unreadable (path : String) (cause : FileError)
  | malformed (path : String)
  | noAssignment (text : String)
deriving DecidableEq, Repr

def BindingsError.display : BindingsError → String
  | unreadable path cause => "'" ++ path ++ "': " ++ cause.message
  | malformed path => "'" ++ path ++ "': " ++ Toml.refusal
  | noAssignment text => "expected KEY=VALUE, got '" ++ text ++ "'"

/-- Why the command fails. -/
inductive CommandError where
  | settings (cause : SettingsError)
  | bindings (cause : BindingsError)
  | file (path : String) (cause : FileError)
  | input (cause : FileError)
  | malformed (source name : String) (errors : List ParseError)
  | rendering (cause : RenderError)
deriving Repr

/-- What the command writes about an error. -/
def CommandError.text : CommandError → String
  | settings cause => "Error loading config: " ++ cause.display ++ "\n"
  | bindings cause => "Error loading variables: " ++ cause.display ++ "\n"
  | file path cause => "Error reading file '" ++ path ++ "': " ++ cause.message ++ "\n"
  | input cause => "Error reading from stdin: " ++ cause.message ++ "\n"
  | malformed source name errors =>
    String.join (errors.map fun e => (Report.ofError e).render source name)
  | rendering cause => "Error: " ++ cause.display ++ "\n"

/-! ### What the options say -/

def addOptions (o : Options) (s : Settings) : Settings :=
  let s := s.addDirectories Loader.templates o.templates
  let s := s.addDirectories Loader.modules o.modules
  if o.strict then { s with strict := true } else s

def settingsOf (o : Options) (files : Files) : Except SettingsError Settings :=
  match o.settings with
  | some path => (Settings.ofFile files path).map (addOptions o)
  | none => .ok (addOptions o {})

def bindingsOfFile (files : Files) (path : String) : Except BindingsError Scope :=
  match files.read path with
  | .error cause => .error (.unreadable path cause)
  | .ok document =>
    match Scope.ofText? document with
    | some s => .ok s
    | none => .error (.malformed path)

/-- The variables with an assignment `key=value` carried out. -/
def assign (s : Scope) (assignment : String) : Except BindingsError Scope :=
  match Text.cut ['='] assignment.toList with
  | some (key, value) => .ok (s.insert (.ofList (Text.trim key)) (.ofBare (.ofList value)))
  | none => .error (.noAssignment assignment)

/-- The variables of the options. -/
def bindingsOf (o : Options) (files : Files) : Except BindingsError Scope :=
  match o.bindings with
  | some path => (bindingsOfFile files path).bind (o.assignments.foldlM assign)
  | none => o.assignments.foldlM assign ∅

/-- The name of the standard input in reports. -/
def inputName : String := "<stdin>"

def sourceOf (o : Options) (input : Except FileError String) (files : Files) :
    Except CommandError (String × String) :=
  match o.input with
  | some path => ((files.read path).mapError (.file path)).map (·, path)
  | none => (input.mapError .input).map (·, inputName)

def templateOf (o : Options) (files : Files) : Except CommandError Template := do
  let settings ← (settingsOf o files).mapError .settings
  let globals ← (bindingsOf o files).mapError .bindings
  return { settings, globals, loader := .ofFiles files }

/-! ### Running -/

/-- What a template renders a source with a name to. -/
def renderSource (t : Template) (source name : String) : Except CommandError String :=
  (t.render source).result.mapError fun
    | .parse errors => .malformed source name errors
    | cause => .rendering cause

/-- What the options lead to. -/
def render (o : Options) (input : Except FileError String) (files : Files) :
    Except CommandError String :=
  if o.grammar then .ok grammar
  else if o.tags then .ok (tagList .builtin)
  else do
    let t ← templateOf o files
    let (source, name) ← sourceOf o input files
    renderSource t source name

/-- How the command ends: its exit code, and what it writes. -/
structure Ending where
  code : Nat := 0
  output : String := ""
  errors : String := ""
deriving DecidableEq, Repr

def run (arguments : List String) (input : Except FileError String) (files : Files) : Ending :=
  match Request.read arguments with
  | .error e => { code := 2, errors := "error: " ++ e.display ++ "\n" }
  | .ok .help => { output := usage }
  | .ok (.run o) =>
    match render o input files with
    | .ok output => { output }
    | .error e => { code := 1, errors := e.text }

/-! ### Files -/

/-- The command reads its standard input. -/
def needsInput (arguments : List String) : Bool :=
  match Request.read arguments with
  | .ok (.run o) => o.input.isNone && !o.grammar && !o.tags
  | _ => false

/-- The paths that a rendering can look at. -/
def sourcesNeeded (o : Options) (input : Except FileError String) (files : Files) : List String :=
  match templateOf o files, sourceOf o input files with
  | .ok t, .ok (source, _) => (t.references source).flatMap fun r => Loader.candidates r.1 r.2
  | _, _ => []

/-- The paths that the command can look at, as far as the files answer. -/
def filesNeeded (arguments : List String) (input : Except FileError String) (files : Files) :
    List String :=
  match Request.read arguments with
  | .ok (.run o) =>
    if o.grammar || o.tags then []
    else o.settings.toList ++ o.bindings.toList ++ o.input.toList ++ sourcesNeeded o input files
  | _ => []

end TagTemplate.CommandLine
