import TagTemplate.Value

/-! # Data types

A data type turns a value into one of its own, where that makes sense. -/

namespace TagTemplate

/-- Turns a value into one of a type. -/
abbrev Datatype := Value → Option Value

namespace Datatype

def string : Datatype := fun v =>
  some (.text v.display)

def number : Datatype := fun v =>
  v.asNumber?.map .number

def truthOfWord? (word : String) : Option Bool :=
  if word ∈ ["true", "yes", "on", "1"] then some true
  else if word ∈ ["false", "no", "off", "0", ""] then some false
  else none

/-- The truth value that a value stands for; words count in any case of their letters. -/
def bool : Datatype
  | .bool b => some (.bool b)
  | .number x => some (.bool (x != 0.0))
  | .text s =>
    (truthOfWord? (.ofList ((Text.trim s.toList).map Char.toLower))).map .bool
  | .null => some (.bool false)
  | _ => none

/-- The values between the commas of a text, empty ones left out. -/
def splitItems (s : String) : List Value :=
  (((Text.pieces [','] s.toList).map Text.trim).filter (· ≠ [])).map fun p => .ofBare (.ofList p)

def list : Datatype
  | .list items => some (.list items)
  | .null => some (.list [])
  | .text s => some (.list (splitItems s))
  | .map fields => some (.list fields.values)
  | v => some (.list [v])

/-- The data types known from the start. -/
def builtins : NameMap Datatype := .ofList [
  ("string", string),
  ("number", number),
  ("bool", bool),
  ("list", list)]

end Datatype

end TagTemplate
