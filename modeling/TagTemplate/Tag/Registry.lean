import TagTemplate.Pattern.Reader
import TagTemplate.Tag.Definition

/-! # Sets of tags

A set of tags keeps their definitions in the order in which the names were first registered.  A
definition is accepted when its patterns can be read, name no groups and need at least one
character, all of this with the usual delimiters.

* `Fragment.compile` reads a pattern of a definition under given delimiters.
* `TagSet.register` adds a definition, or replaces the one of the same name. -/

namespace TagTemplate

inductive TagError where
  | invalidPattern (tag : String)
  | namedGroup (tag group : String)
  | emptyMatch (tag : String)
  | notFound (name : String)
  | emptyDelimiter
  | attributes (tag : String) (errors : List ParseError)
deriving DecidableEq, Repr

namespace TagError

def display : TagError → String
  | invalidPattern tag => "invalid pattern for tag '" ++ tag ++ "'"
  | namedGroup tag group => "pattern for tag '" ++ tag ++ "' declares named group '" ++ group ++ "'"
  | emptyMatch tag => "pattern for tag '" ++ tag ++ "' matches the empty string"
  | notFound name => "tag not found: " ++ name
  | emptyDelimiter => "delimiters must not be empty"
  | attributes tag _ => "malformed attributes for tag '" ++ tag ++ "'"

end TagError

/-! ### Fragments -/

/-- A pattern of a definition with the delimiters filled in. -/
structure Fragment where
  source : String
  pattern : Pattern
deriving Repr, Inhabited

namespace Fragment

/-- The fragment of a pattern with places for the delimiters. -/
def compile (tag template : String) (d : Delimiters) : Except TagError Fragment :=
  let source := fillPlaces template (Pattern.escape d.opening) (Pattern.escape d.closing)
  match Pattern.parse? source with
  | none => .error (.invalidPattern tag)
  | some pattern =>
    match pattern.groupNames with
    | group :: _ => .error (.namedGroup tag group)
    | [] => if pattern.isMatch #[] then .error (.emptyMatch tag) else .ok { source, pattern }

/-- The fragment of a closing pattern, where there is one. -/
def compileClosing (tag : String) (closing : Option String) (d : Delimiters) :
    Except TagError (Option Fragment) :=
  match closing with
  | none => .ok none
  | some template => (compile tag template d).map some

end Fragment

/-! ### Sets -/

/-- The definitions of tags, one for each name. -/
structure TagSet where
  definitions : List TagDefinition := []
deriving Repr, Inhabited

namespace TagSet

instance : EmptyCollection TagSet := ⟨⟨[]⟩⟩

def get? (s : TagSet) (name : String) : Option TagDefinition :=
  s.definitions.find? fun d => d.name = name

def contains (s : TagSet) (name : String) : Bool :=
  (s.get? name).isSome

def names (s : TagSet) : List String :=
  s.definitions.map (·.name)

def size (s : TagSet) : Nat :=
  s.definitions.length

def isEmpty (s : TagSet) : Bool :=
  s.definitions.isEmpty

/-- The definitions with `d` in place of the one of its name, or at the end. -/
def put (d : TagDefinition) : List TagDefinition → List TagDefinition
  | [] => [d]
  | e :: rest => if e.name = d.name then d :: rest else e :: put d rest

/-- The set with one more definition, if its patterns are accepted. -/
def register (s : TagSet) (d : TagDefinition) : Except TagError TagSet :=
  match Fragment.compile d.name d.pattern {} with
  | .error e => .error e
  | .ok _ =>
    match Fragment.compileClosing d.name d.closing {} with
    | .error e => .error e
    | .ok _ => .ok ⟨put d s.definitions⟩

/-- The set with a list of definitions registered in turn, up to the first error. -/
def registerAll (s : TagSet) (definitions : List TagDefinition) : Except TagError TagSet :=
  definitions.foldlM register s

/-! ### The names of a set -/

theorem find?_put (d : TagDefinition) (name : String) (definitions : List TagDefinition) :
    (put d definitions).find? (fun e => e.name = name)
      = if d.name = name then some d else definitions.find? fun e => e.name = name := by
  induction definitions with
  | nil => by_cases h : d.name = name <;> simp [put, h]
  | cons e rest ih =>
    simp only [put]
    split
    · next he =>
      by_cases h : d.name = name
      · simp [h]
      · simp [h, he]
    · next he =>
      by_cases hn : e.name = name
      · have : d.name ≠ name := fun h => he (hn.trans h.symm)
        simp [hn, this]
      · simp [hn, ih]

theorem map_name_put (d : TagDefinition) (definitions : List TagDefinition) :
    (put d definitions).map (·.name)
      = if d.name ∈ definitions.map (·.name) then definitions.map (·.name)
        else definitions.map (·.name) ++ [d.name] := by
  induction definitions with
  | nil => simp [put]
  | cons e rest ih =>
    simp only [put]
    split
    · next he => simp [he]
    · next he =>
      simp only [List.map_cons, ih, List.mem_cons, Ne.symm he, false_or]
      split <;> simp

end TagSet

end TagTemplate
