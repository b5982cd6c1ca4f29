import TagTemplate.Tag.Builtin

/-! # What the command tells about tags

The reference of the notation of tags, and the list of the tags that are there from the start. -/

namespace TagTemplate.CommandLine

def textOfLines (lines : List String) : String :=
  String.join (lines.map (· ++ "\n"))

/-- The lines of the reference, with places for the delimiters. -/
def grammarLines : List String := [
  "TAGSMITH GRAMMAR",
  "================",
  "",
  "Delimiters default to {open} and {close} and can be changed in the config.",
  "",
  "VARIABLES",
  "---------",
  "{open}$name{close}                      Value of name (dotted paths allowed)",
  "{open}$name default=\"x\"{close}          Fallback when name is unbound",
  "{open}$name generator=lorem{close}      Generated text when name is unbound",
  "{open}@current{close} {open}@index{close} {open}@key{close}    Loop bindings inside each",
  "{open}@attempt{close}                   Attempt number inside until",
  "",
  "EXPRESSIONS",
  "-----------",
  "{open}=upper(name){close}               Call a function, render the result",
  "{open}=add(i, 1) -> i{close}            Assign the result, render nothing",
  "{open}=f(x) silent=false{close}         Raise on failure instead of rendering \"\"",
  "{open}=f(x) -> y global{close}          Assign into the template variables",
  "",
  "BINDINGS",
  "--------",
  "{open}#let key=value ...{close}         Bind in the enclosing block",
  "{open}#let n=\"3\" type=number{close}     Coerce through a datatype",
  "{open}#let key=value global=true{close} Bind in the template variables",
  "",
  "BLOCKS",
  "------",
  "{open}#if var=x equals=\"ok\"{close}...{open}/if{close}",
  "{open}#while var=i lt=3{close}...{open}/while{close}",
  "{open}#each items=list glue=\", \"{close}...{open}/each{close}",
  "{open}#until validator=email attempts=3{close}...{open}/until{close}",
  "{open}#await event=name{close}...{open}/await{close}",
  "{open}#comment{close}...{open}/comment{close}",
  "",
  "Comparisons: equals not_equals gt lt gte lte (no operator: truthiness)",
  "",
  "DIRECTIVES",
  "----------",
  "@template(name)                     Wrap this page in a layout",
  "@section(name)...@endsection        Fill a layout slot",
  "@output(name)                       Emit a slot (\"content\" holds the page)",
  "@macro(name param=default)...@endmacro",
  "@invoke(name arg=value)",
  "@include(file key=value)            Render a file from the templates path",
  "@import(file)                       Load bindings and macros from a module"]

/-- The reference of the notation, with the delimiters that are used by default. -/
def grammar : String :=
  let d : Delimiters := {}
  fillPlaces (textOfLines grammarLines) d.opening d.closing

/-- A text with spaces behind it up to a width. -/
def padded (width : Nat) (s : String) : String :=
  s ++ .ofList (.replicate (width - s.length) ' ')

/-- The line of a tag: its name, its kind, and its patterns. -/
def tagLine (d : TagDefinition) : String :=
  padded 10 d.name ++ " " ++ padded 8 d.kind.name ++ " " ++ d.pattern ++ "  "
    ++ d.closing.getD "-"

def tagList (tags : TagSet) : String :=
  textOfLines (tags.definitions.map tagLine)

/-- How the command is called. -/
def usage : String :=
  textOfLines [
    "Tag-based text templating engine",
    "",
    "Usage: tagsmith [OPTIONS] [INPUT]",
    "",
    "Arguments:",
    "  [INPUT]  Input file (reads from stdin if not provided)",
    "",
    "Options:",
    "  -c, --config <CONFIG>  Render configuration (TOML format)",
    "  -v, --vars <VARS>      Template variables (TOML format)",
    "  -s, --set <KEY=VALUE>  Set a variable, e.g. --set name=World",
    "  -t, --templates <DIR>  Add a layout/include search directory",
    "  -m, --modules <DIR>    Add an import search directory",
    "      --strict           Fail on missing layouts, includes and imports",
    "  -d, --debug            Verbose render logging",
    "  -g, --grammar          Show tag grammar reference",
    "      --tags             List registered tags and their patterns",
    "  -h, --help             Print help"]

end TagTemplate.CommandLine
