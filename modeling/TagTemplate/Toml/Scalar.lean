import TagTemplate.Decimal.Reader
import TagTemplate.Text.CodePoint
import TagTemplate.Toml.Basic
import TagTemplate.Toml.Moment

/-! # Words of TOML

A value that is written without quotes and brackets is one word: a truth value, a number, or a
date or time.  Digits of a number can be grouped by underscores. -/

namespace TagTemplate.Toml

/-- The digits of a number without its underscores, each of which stands between two digits;
`digit` tells whether one came last. -/
def digitsFrom? (isDigit : Char → Bool) (digit : Bool) : List Char → Option (List Char)
  | [] => if digit then some [] else none
  | c :: s =>
    if isDigit c then (digitsFrom? isDigit true s).map (c :: ·)
    else if c = '_' ∧ digit then digitsFrom? isDigit false s
    else none

/-- The digits of a whole text without underscores. -/
def ungrouped? (isDigit : Char → Bool) (s : List Char) : Option (List Char) :=
  digitsFrom? isDigit false s

/-- A sign in front, plus when there is none, and what follows. -/
def signed : List Char → Bool × List Char
  | '-' :: s => (true, s)
  | '+' :: s => (false, s)
  | s => (false, s)

/-- Decimal digits of a whole number, without a leading zero. -/
def whole? (s : List Char) : Option (List Char) :=
  match ungrouped? Decimal.isDigit s with
  | some ds => if ds.head? = some '0' ∧ s.length ≠ 1 then none else some ds
  | none => none

/-! ### Integers -/

/-- The integer of a magnitude, when it has 64 bits. -/
def boundedInteger? (negative : Bool) (n : Nat) : Option Int :=
  if negative then (if n ≤ Decimal.maxInteger + 1 then some (-n) else none)
  else if n ≤ Decimal.maxInteger then some n
  else none

def baseValue? (base : Nat) (ds : List Char) : Option Nat :=
  ds.foldlM (fun n c => (Text.hexDigit? c).bind fun d => if d < base then some (base * n + d) else none) 0

def isBaseDigit (base : Nat) (c : Char) : Bool :=
  match Text.hexDigit? c with
  | some d => d < base
  | none => false

/-- The integer of grouped digits in a base. -/
def baseInteger? (base : Nat) (s : List Char) : Option Int :=
  ((ungrouped? (isBaseDigit base) s).bind (baseValue? base)).bind (boundedInteger? false)

def integer? : List Char → Option Int
  | '0' :: 'x' :: s => baseInteger? 16 s
  | '0' :: 'o' :: s => baseInteger? 8 s
  | '0' :: 'b' :: s => baseInteger? 2 s
  | s =>
    let (negative, s) := signed s
    (whole? s).bind fun ds => boundedInteger? negative (Decimal.digitsValue 0 ds)

/-! ### Floats -/

/-- An exponent mark with its signed digits, or nothing. -/
def exponent? : List Char → Option (List Char)
  | [] => some []
  | c :: s =>
    if c = 'e' ∨ c = 'E' then
      let (negative, s) := signed s
      (ungrouped? Decimal.isDigit s).map fun ds => 'e' :: (if negative then ['-'] else []) ++ ds
    else none

/-- The character ends the places after a point. -/
def isExponentMark (c : Char) : Bool :=
  c = 'e' ∨ c = 'E'

/-- The digits after a point and the exponent; at least one of them is there. -/
def fractional? : List Char → Option (List Char)
  | '.' :: s => do
    let places ← ungrouped? Decimal.isDigit (s.takeWhile (!isExponentMark ·))
    let exponent ← exponent? (s.dropWhile (!isExponentMark ·))
    some ('.' :: places ++ exponent)
  | [] => none
  | s => exponent? s

/-- The character ends the whole part of a float. -/
def endsWhole (c : Char) : Bool :=
  c = '.' || isExponentMark c

/-- The word with a point or an exponent is a float; one beyond all doubles is refused. -/
def decimalFloat? (s : List Char) : Option Float := do
  let (negative, s) := signed s
  let ds ← whole? (s.takeWhile (!endsWhole ·))
  let rest ← fractional? (s.dropWhile (!endsWhole ·))
  let x ← Decimal.read? (.ofList ((if negative then ['-'] else []) ++ ds ++ rest))
  if x.isInf && !negative then none else some x

def float? (s : List Char) : Option Float :=
  let (negative, word) := signed s
  if word = ['i', 'n', 'f'] then some (if negative then -1.0 / 0.0 else 1.0 / 0.0)
  else if word = ['n', 'a', 'n'] then some (0.0 / 0.0)
  else decimalFloat? s

/-! ### Words -/

def isWordChar (c : Char) : Bool :=
  c.isAlphanum || c ∈ ['_', '+', '-', '.', ':']

def word? (s : List Char) : Option Toml :=
  if s = ['t', 'r', 'u', 'e'] then some (.boolean true)
  else if s = ['f', 'a', 'l', 's', 'e'] then some (.boolean false)
  else match Moment.read? s with
    | some m => some (moment m.display)
    | none =>
      match integer? s with
      | some n => some (.integer n)
      | none => (float? s).map .float

/-- A word at the beginning, and what follows.  A date goes on over a space before a digit. -/
def splitWord (s : List Char) : List Char × List Char :=
  let word := s.takeWhile isWordChar
  match s.dropWhile isWordChar with
  | ' ' :: c :: rest =>
    if Decimal.isDigit c ∧ (Date.read? word).any (·.2 = []) then
      (word ++ ' ' :: (c :: rest).takeWhile isWordChar, (c :: rest).dropWhile isWordChar)
    else (word, ' ' :: c :: rest)
  | rest => (word, rest)

end TagTemplate.Toml
