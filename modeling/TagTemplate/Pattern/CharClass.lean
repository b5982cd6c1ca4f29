import TagTemplate.Text.Folding
import TagTemplate.Text.Letters
import TagTemplate.Text.WhiteSpace

/-! # Character classes

A class says of every character whether it belongs.  Classes are built from ranges and the classes
of Unicode by the operations on sets. -/

namespace TagTemplate

/-- A set of characters. -/
inductive CharClass where
  | nothing
  | range (first last : Char)
  | digit
  | space
  | word
  | complement (a : CharClass)
  | union (a b : CharClass)
  | intersection (a b : CharClass)
  | caseless (a : CharClass)
deriving DecidableEq, Repr, Inhabited

namespace CharClass

def contains : CharClass → Char → Bool
  | nothing, _ => false
  | range first last, c => first ≤ c ∧ c ≤ last
  | digit, c => Text.isDecimalDigit c
  | space, c => Text.isWhiteSpace c
  | word, c => Text.isWordChar c
  | complement a, c => !a.contains c
  | union a b, c => a.contains c || b.contains c
  | intersection a b, c => a.contains c && b.contains c
  | caseless a, c => a.contains c || (Text.orbit c).any a.contains

def single (c : Char) : CharClass :=
  range c c

@[simp] theorem contains_single (c d : Char) : (single c).contains d = decide (c = d) := by
  simp only [single, contains, decide_eq_decide]
  constructor
  · rintro ⟨h₁, h₂⟩; exact Char.le_antisymm h₁ h₂
  · rintro rfl; exact ⟨Char.le_refl _, Char.le_refl _⟩

/-- The characters of `a` that are not in `b`. -/
def difference (a b : CharClass) : CharClass :=
  intersection a (complement b)

/-- The characters in exactly one of the two classes. -/
def symmetricDifference (a b : CharClass) : CharClass :=
  union (difference a b) (difference b a)

def unionAll : List CharClass → CharClass
  | [] => nothing
  | [a] => a
  | a :: rest => union a (unionAll rest)

def everything : CharClass :=
  complement nothing

def ascii : CharClass :=
  range '\x00' '\x7f'

/-- The classes of ASCII that have a name between colons. -/
def ofName? (name : String) : Option CharClass :=
  let digits := range '0' '9'
  let lower := range 'a' 'z'
  let upper := range 'A' 'Z'
  match name with
  | "alnum" => some (unionAll [digits, upper, lower])
  | "alpha" => some (union upper lower)
  | "ascii" => some ascii
  | "blank" => some (union (single '\t') (single ' '))
  | "cntrl" => some (union (range '\x00' '\x1f') (single '\x7f'))
  | "digit" => some digits
  | "graph" => some (range '!' '~')
  | "lower" => some lower
  | "print" => some (range ' ' '~')
  | "punct" => some (unionAll [range '!' '/', range ':' '@', range '[' '\x60', range '\x7b' '~'])
  | "space" => some (union (range '\t' '\r') (single ' '))
  | "upper" => some upper
  | "word" => some (unionAll [digits, upper, single '_', lower])
  | "xdigit" => some (unionAll [digits, range 'A' 'F', range 'a' 'f'])
  | _ => none

/-- The digits, spaces or word characters of ASCII. -/
def toAscii (a : CharClass) : CharClass :=
  intersection a ascii

end CharClass

end TagTemplate
