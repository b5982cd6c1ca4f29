import TagTemplate.Value

/-! # Comparison of values

Two values compare as numbers where both are numbers or texts of numbers, and by their displays
otherwise.  Numbers need not be comparable. -/

namespace TagTemplate

/-- The tests on a variable, in the order in which they are looked for. -/
inductive Comparison where
  | equals
  | notEquals
  | greater
  | less
  | greaterOrEqual
  | lessOrEqual
deriving DecidableEq, Repr

namespace Comparison

def all : List Comparison :=
  [equals, notEquals, greater, less, greaterOrEqual, lessOrEqual]

/-- The attribute key of a test. -/
def key : Comparison → String
  | equals => "equals"
  | notEquals => "not_equals"
  | greater => "gt"
  | less => "lt"
  | greaterOrEqual => "gte"
  | lessOrEqual => "lte"

def number? : Value → Option Float
  | .number x => some x
  | .text s => (Value.text s).asNumber?
  | _ => none

/-- The order of two numbers, none if one of them is not a number. -/
def orderOfNumbers (a b : Float) : Option Ordering :=
  if a < b then some .lt
  else if a == b then some .eq
  else if b < a then some .gt
  else none

/-- The order of two texts by their characters. -/
def orderOfTexts (a b : String) : Ordering :=
  if a < b then .lt else if a = b then .eq else .gt

def order (a b : Value) : Option Ordering :=
  match number? a, number? b with
  | some x, some y => orderOfNumbers x y
  | _, _ => some (orderOfTexts a.display b.display)

def accepts : Comparison → Option Ordering → Bool
  | equals, o => o = some .eq
  | notEquals, o => o ≠ some .eq
  | greater, o => o = some .gt
  | less, o => o = some .lt
  | greaterOrEqual, o => o = some .gt ∨ o = some .eq
  | lessOrEqual, o => o = some .lt ∨ o = some .eq

/-- The test holds between two values. -/
def holds (c : Comparison) (a b : Value) : Bool :=
  c.accepts (order a b)

end Comparison

end TagTemplate
