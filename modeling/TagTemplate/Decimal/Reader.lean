import TagTemplate.Decimal.Double

/-! # Reading numbers

`read?` reads a whole text as a double: an optional sign, then `inf`, `infinity` or `nan` in any
case, or decimal digits with at most one point, at least one digit, and an optional exponent.  The
result is the nearest double.  `readNatural?` reads a natural number below a bound. -/

namespace TagTemplate.Decimal

/-- The character is one of `0` to `9`. -/
def isDigit (c : Char) : Bool :=
  '0' ≤ c ∧ c ≤ '9'

/-- The value of a run of digits, after `acc`. -/
def digitsValue (acc : Nat) (cs : List Char) : Nat :=
  cs.foldl (fun n c => 10 * n + (c.toNat - 48)) acc

/-- The double nearest to `digits * 10 ^ exponent`.  Far outside the range of doubles the answer
is zero or infinity without a computation. -/
def ofDecimal (negative : Bool) (digits : Nat) (exponent : Int) : Float :=
  if digits = 0 then nearest negative 0 1
  else
    let magnitude := exponent + ((toString digits).length : Int)
    if magnitude < -400 then nearest negative 0 1
    else if 400 < magnitude then nearest negative (Nat.pow 2 1100) 1
    else if exponent < 0 then nearest negative digits (Nat.pow 10 (-exponent).toNat)
    else nearest negative (digits * Nat.pow 10 exponent.toNat) 1

/-- An exponent mark with its signed digits up to the end of the text; no mark counts as zero. -/
def readExponent? : List Char → Option Int
  | [] => some 0
  | c :: rest =>
    if c = 'e' ∨ c = 'E' then
      let (sign, ds) : Int × List Char := match rest with
        | '-' :: ds => (-1, ds)
        | '+' :: ds => (1, ds)
        | ds => (1, ds)
      if ds ≠ [] ∧ ds.all isDigit then some (sign * digitsValue 0 ds) else none
    else none

/-- Digits with at most one point and an optional exponent. -/
def readUnsigned? (negative : Bool) (cs : List Char) : Option Float :=
  let whole := cs.takeWhile isDigit
  let rest := cs.dropWhile isDigit
  let (places, rest) := match rest with
    | '.' :: r => (r.takeWhile isDigit, r.dropWhile isDigit)
    | r => ([], r)
  if whole = [] ∧ places = [] then none
  else (readExponent? rest).map fun e =>
    ofDecimal negative (digitsValue (digitsValue 0 whole) places) (e - places.length)

def readAfterSign? (negative : Bool) (cs : List Char) : Option Float :=
  let word := String.ofList (cs.map Char.toLower)
  if word = "inf" ∨ word = "infinity" then some (nearest negative (Nat.pow 2 1100) 1)
  else if word = "nan" then some (0.0 / 0.0)
  else readUnsigned? negative cs

/-- The double that a whole text denotes. -/
def read? (s : String) : Option Float :=
  match s.toList with
  | '-' :: cs => readAfterSign? true cs
  | '+' :: cs => readAfterSign? false cs
  | cs => readAfterSign? false cs

/-- The natural number that a whole text denotes, when it is at most `bound`: digits after an
optional plus sign. -/
def readNatural? (bound : Nat) (s : String) : Option Nat :=
  let ds := match s.toList with
    | '+' :: ds => ds
    | ds => ds
  if ds ≠ [] ∧ ds.all isDigit ∧ digitsValue 0 ds ≤ bound then some (digitsValue 0 ds) else none

/-- The largest index and count: 64 bits. -/
def maxCount : Nat :=
  Nat.pow 2 64 - 1

/-- The largest integer of 64 bits with a sign. -/
def maxInteger : Nat :=
  Nat.pow 2 63 - 1

/-- The integer of 64 bits that a whole text denotes: digits after an optional sign. -/
def readInteger? (s : String) : Option Int :=
  match s.toList with
  | '-' :: ds =>
    if ds ≠ [] ∧ ds.all isDigit ∧ digitsValue 0 ds ≤ maxInteger + 1 then some (-digitsValue 0 ds)
    else none
  | _ => (readNatural? maxInteger s).map Int.ofNat

end TagTemplate.Decimal
