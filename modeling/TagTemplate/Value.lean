import TagTemplate.Decimal.Reader
import TagTemplate.Decimal.Shortest
import TagTemplate.NameMap
import TagTemplate.Text.Basic
import TagTemplate.Text.WhiteSpace

/-! # Values

What a variable holds: nothing, a truth value, a number, a text, a list or a map.  `display` is
the text that a template shows, `ofBare` the value of a word written without quotes, and
`getPath?` the part of a value that a dotted path leads to. -/

namespace TagTemplate

/-- A value bound to a variable or produced by a function. -/
inductive Value where
  | null
  | bool (b : Bool)
  | number (x : Float)
  | text (s : String)
  | list (items : List Value)
  | map (fields : NameMap Value)
deriving Inhabited

namespace Value

/-! ### Display -/

/-- The text of a number: an integer without a point, zero without a sign. -/
def displayNumber (x : Float) : String :=
  if x == 0.0 then "0" else Decimal.text x

def commaSeparated (parts : List String) : String :=
  ",".intercalate parts

mutual

def display : Value → String
  | null => ""
  | bool b => if b then "true" else "false"
  | number x => displayNumber x
  | text s => s
  | list items => commaSeparated (displayItems items)
  | map ⟨fields⟩ => commaSeparated (displayFields fields)

def displayItems : List Value → List String
  | [] => []
  | v :: rest => v.display :: displayItems rest

/-- The texts `name=value` of the fields of a map. -/
def displayFields : List (String × Value) → List String
  | [] => []
  | (k, v) :: rest => (k ++ "=" ++ v.display) :: displayFields rest

end

/-! ### Equality -/

mutual

/-- Equality of values; numbers compare as numbers. -/
def beq : Value → Value → Bool
  | null, null => true
  | bool a, bool b => a = b
  | number a, number b => a == b
  | text a, text b => a = b
  | list a, list b => beqItems a b
  | map ⟨a⟩, map ⟨b⟩ => beqFields a b
  | _, _ => false

def beqItems : List Value → List Value → Bool
  | [], [] => true
  | a :: as, b :: bs => beq a b && beqItems as bs
  | _, _ => false

def beqFields : List (String × Value) → List (String × Value) → Bool
  | [], [] => true
  | (k, a) :: as, (l, b) :: bs => k = l && beq a b && beqFields as bs
  | _, _ => false

end

instance : BEq Value := ⟨beq⟩

/-! ### Readings -/

/-- The value of a word without quotes: `true`, `false`, a number with a digit in it, or else the
word as text. -/
def ofBare (word : String) : Value :=
  if word = "true" then bool true
  else if word = "false" then bool false
  else match Decimal.read? word with
    | some x => if word.toList.any Decimal.isDigit then number x else text word
    | none => text word

def isNull : Value → Bool
  | null => true
  | _ => false

/-- The truth of a value where no comparison is asked for. -/
def isTruthy : Value → Bool
  | null => false
  | bool b => b
  | number x => x != 0.0
  | text s => s ≠ "" ∧ s ≠ "false" ∧ s ≠ "0"
  | list items => !items.isEmpty
  | map fields => !fields.isEmpty

/-- The number that a value stands for; a text is read without white space at its ends. -/
def asNumber? : Value → Option Float
  | number x => some x
  | bool b => some (if b then 1.0 else 0.0)
  | text s => Decimal.read? (Text.trimmed s)
  | _ => none

def asList? : Value → Option (List Value)
  | list items => some items
  | _ => none

/-! ### Paths -/

/-- One step along a path: a field of a map by name, or an item of a list by position. -/
def child? (v : Value) (part : String) : Option Value :=
  match v with
  | map fields => fields.get? part
  | list items => (Decimal.readNatural? Decimal.maxCount part).bind (items[·]?)
  | _ => none

/-- The value at the end of a list of steps. -/
def descend? (v : Value) : List String → Option Value
  | [] => some v
  | part :: rest => (v.child? part).bind (descend? · rest)

/-- The steps of a dotted path. -/
def pathParts (path : String) : List String :=
  (Text.pieces ['.'] path.toList).map String.ofList

/-- The part of a value that a dotted path leads to. -/
def getPath? (v : Value) (path : String) : Option Value :=
  v.descend? (pathParts path)

end Value

end TagTemplate
