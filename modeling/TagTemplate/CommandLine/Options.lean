/-! # Options of the command

The arguments of the command are options with one or two dashes and at most one input.  An option
takes a value from behind an equals sign, from the rest of its letters, or from the argument after
it; after `--` there are no options.  `Request.read` reads the arguments. -/

namespace TagTemplate.CommandLine

/-- The options, by what they are for. -/
inductive Key where
  | settings
  | bindings
  | assignment
  | templates
  | modules
  | strict
  | debug
  | grammar
  | tags
  | help
deriving DecidableEq, Repr

namespace Key

/-- The name of an option after two dashes. -/
def name : Key → String
  | settings => "config"
  | bindings => "vars"
  | assignment => "set"
  | templates => "templates"
  | modules => "modules"
  | strict => "strict"
  | debug => "debug"
  | grammar => "grammar"
  | tags => "tags"
  | help => "help"

def letter? : Key → Option Char
  | settings => some 'c'
  | bindings => some 'v'
  | assignment => some 's'
  | templates => some 't'
  | modules => some 'm'
  | debug => some 'd'
  | grammar => some 'g'
  | help => some 'h'
  | strict | tags => none

def all : List Key :=
  [settings, bindings, assignment, templates, modules, strict, debug, grammar, tags, help]

def takesValue : Key → Bool
  | settings | bindings | assignment | templates | modules => true
  | strict | debug | grammar | tags | help => false

def ofName? (name : String) : Option Key :=
  all.find? fun k => k.name = name

def ofLetter? (letter : Char) : Option Key :=
  all.find? fun k => k.letter? = some letter

end Key

/-- What the options ask for. -/
structure Options where
  input : Option String := none
  settings : Option String := none
  bindings : Option String := none
  assignments : List String := []
  templates : List String := []
  modules : List String := []
  strict : Bool := false
  debug : Bool := false
  grammar : Bool := false
  tags : Bool := false
deriving DecidableEq, Repr

/-- Why arguments are refused. -/
inductive UsageError where
  | unknown (argument : String)
  | repeatedOption (key : Key)
  | missingValue (key : Key)
  | emptyValue
  | needlessValue (key : Key)
deriving DecidableEq, Repr

namespace UsageError

def display : UsageError → String
  | unknown argument => "unexpected argument '" ++ argument ++ "' found"
  | repeatedOption key => "the argument '--" ++ key.name ++ "' cannot be used multiple times"
  | missingValue key => "a value is required for '--" ++ key.name ++ "' but none was supplied"
  | emptyValue => "an empty value is not allowed"
  | needlessValue key => "unexpected value for '--" ++ key.name ++ "' found"

end UsageError

/-- What the command is asked to do. -/
inductive Request where
  | help
  | run (o : Options)
deriving DecidableEq, Repr

/-! ### One option -/

/-- The first value of something that has one at most and is a path. -/
def onlyPath (key : Key) (before : Option String) (value : String) :
    Except UsageError (Option String) :=
  if value = "" then .error .emptyValue
  else if before.isSome then .error (.repeatedOption key)
  else .ok (some value)

def morePaths (before : List String) (value : String) : Except UsageError (List String) :=
  if value = "" then .error .emptyValue else .ok (before ++ [value])

namespace Options

def store (o : Options) (key : Key) (value : String) : Except UsageError Options :=
  match key with
  | .settings => (onlyPath key o.settings value).map fun v => { o with settings := v }
  | .bindings => (onlyPath key o.bindings value).map fun v => { o with bindings := v }
  | .assignment => .ok { o with assignments := o.assignments ++ [value] }
  | .templates => (morePaths o.templates value).map fun v => { o with templates := v }
  | .modules => (morePaths o.modules value).map fun v => { o with modules := v }
  | _ => .error (.needlessValue key)

def turnOn (o : Options) (key : Key) : Except UsageError Options :=
  let once := fun (before : Bool) (o : Options) =>
    if before then .error (.repeatedOption key) else .ok o
  match key with
  | .strict => once o.strict { o with strict := true }
  | .debug => once o.debug { o with debug := true }
  | .grammar => once o.grammar { o with grammar := true }
  | .tags => once o.tags { o with tags := true }
  | _ => .error (.missingValue key)

def setInput (o : Options) (value : String) : Except UsageError Options :=
  if o.input.isSome then .error (.unknown value)
  else if value = "" then .error .emptyValue
  else .ok { o with input := some value }

end Options

/-! ### One argument -/

/-- What an argument leads to. -/
inductive Step where
  | done (o : Options)
  | wants (o : Options) (key : Key)
  | help
deriving DecidableEq, Repr

/-- The name before an equals sign, and the value behind it. -/
def splitValue (s : List Char) : List Char × Option String :=
  match s.dropWhile (· ≠ '=') with
  | '=' :: value => (s.takeWhile (· ≠ '='), some (.ofList value))
  | _ => (s, none)

/-- An argument with two dashes. -/
def readName (o : Options) (s : List Char) : Except UsageError Step :=
  let (name, value) := splitValue s
  match Key.ofName? (.ofList name), value with
  | none, _ => .error (.unknown ("--" ++ .ofList s))
  | some key, some value => (o.store key value).map .done
  | some .help, none => .ok .help
  | some key, none => if key.takesValue then .ok (.wants o key) else (o.turnOn key).map .done

/-- An argument with one dash: letters of options, the last of which can have its value behind
it. -/
def readLetters (o : Options) : List Char → Except UsageError Step
  | [] => .ok (.done o)
  | c :: s =>
    match Key.ofLetter? c with
    | none => .error (.unknown (.ofList ['-', c]))
    | some .help => .ok .help
    | some key =>
      if key.takesValue then
        match s with
        | [] => .ok (.wants o key)
        | '=' :: value => (o.store key (.ofList value)).map .done
        | value => (o.store key (.ofList value)).map .done
      else
        match o.turnOn key with
        | .ok o => readLetters o s
        | .error e => .error e

/-- The argument is an option, and so no value of the option before it. -/
def isOption (argument : String) : Bool :=
  match argument.toList with
  | '-' :: _ :: _ => true
  | _ => false

def readArgument (o : Options) (argument : String) : Except UsageError Step :=
  match argument.toList with
  | '-' :: '-' :: s => readName o s
  | '-' :: c :: s => readLetters o (c :: s)
  | _ => (o.setInput argument).map .done

namespace Request

/-- Reads arguments after those that have led to the options `o`. -/
def readFrom (o : Options) : List String → Except UsageError Request
  | [] => .ok (.run o)
  | argument :: rest =>
    if argument = "--" then (rest.foldlM Options.setInput o).map .run
    else
      match readArgument o argument with
      | .error e => .error e
      | .ok .help => .ok .help
      | .ok (.done o) => readFrom o rest
      | .ok (.wants o key) =>
        match rest with
        | [] => .error (.missingValue key)
        | value :: rest =>
          if isOption value then .error (.missingValue key)
          else
            match o.store key value with
            | .ok o => readFrom o rest
            | .error e => .error e

def read (arguments : List String) : Except UsageError Request :=
  readFrom {} arguments

end Request

end TagTemplate.CommandLine
