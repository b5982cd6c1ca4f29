import TagTemplate.Decimal.Double

/-! # The shortest decimal of a double

A double stands for all reals that round to it.  `shortest` finds the decimal with the fewest
digits among them, and of those the one nearest to the double; `text` writes it positionally,
without an exponent. -/

namespace TagTemplate.Decimal

/-- The number `digits * 10 ^ exponent`. -/
structure Scientific where
  digits : Nat
  exponent : Int
deriving DecidableEq, Repr

/-- The reals that round to a double, in units of `2 ^ unit`: from `low` to `high`, both ends
included iff `closed`. -/
structure Interval where
  low : Nat
  middle : Nat
  high : Nat
  closed : Bool
  unit : Int
deriving DecidableEq, Repr

/-- The interval of a double other than zero.  Below a power of two the neighbour is half as far
away as above. -/
def Parts.interval (p : Parts) : Interval where
  low := 4 * p.significand - if p.significand = Nat.pow 2 52 ∧ -1074 < p.exponent then 1 else 2
  middle := 4 * p.significand
  high := 4 * p.significand + 2
  closed := p.significand % 2 = 0
  unit := p.exponent - 2

/-- The natural number in front when `2 ^ unit` is measured in `10 ^ p`: a fraction. -/
def ratio (unit p : Int) : Nat × Nat :=
  (Nat.pow 2 unit.toNat * Nat.pow 10 (-p).toNat, Nat.pow 2 (-unit).toNat * Nat.pow 10 p.toNat)

/-- `d * 10 ^ p` lies in the interval. -/
def Interval.contains (i : Interval) (p : Int) (d : Nat) : Bool :=
  let (num, den) := ratio i.unit p
  if i.closed then i.low * num ≤ d * den ∧ d * den ≤ i.high * num
  else i.low * num < d * den ∧ d * den < i.high * num

/-- Of the two neighbours of the middle on the grid `10 ^ p`, the nearest that lies in the
interval; the upper one on a tie. -/
def Interval.onGrid (i : Interval) (p : Int) : Option Nat :=
  let (num, den) := ratio i.unit p
  let d := i.middle * num / den
  match i.contains p d, i.contains p (d + 1) with
  | true, true => if 2 * (i.middle * num) < (2 * d + 1) * den then some d else some (d + 1)
  | true, false => some d
  | false, true => some (d + 1)
  | false, false => none

/-- The least exponent, from `start` on, such that the middle is below `10 ^ e`. -/
def Interval.magnitude (i : Interval) : Nat → Int → Int
  | 0, e => e
  | n + 1, e =>
    let (num, den) := ratio i.unit e
    if i.middle * num < den then e else i.magnitude n (e + 1)

/-- The first grid, from coarse to fine, that has a point in the interval. -/
def Interval.search (i : Interval) (magnitude : Int) : Nat → Nat → Scientific
  | 0, digits => ⟨i.middle, digits⟩
  | n + 1, digits =>
    match i.onGrid (magnitude - digits) with
    | some d => ⟨d, magnitude - digits⟩
    | none => i.search magnitude n (digits + 1)

/-- The same number without zeros at the end of its digits, at most `n` of them dropped. -/
def Scientific.dropZeros : Nat → Scientific → Scientific
  | 0, d => d
  | n + 1, d => if d.digits % 10 = 0 then dropZeros n ⟨d.digits / 10, d.exponent + 1⟩ else d

/-- The shortest decimal that rounds to a double other than zero. -/
def Parts.shortest (p : Parts) : Scientific :=
  let i := p.interval
  let start := (p.exponent + p.significand.log2) * 30103 / 100000 - 1
  (i.search (i.magnitude 4 start) 17 1).dropZeros 20

/-- Positional notation: zeros are added in front of or after the digits as the point needs. -/
def Scientific.toText (d : Scientific) : String :=
  let ds := (toString d.digits).toList
  if 0 ≤ d.exponent then .ofList (ds ++ List.replicate d.exponent.toNat '0')
  else
    let places := (-d.exponent).toNat
    let ds := List.replicate (places + 1 - ds.length) '0' ++ ds
    .ofList (ds.take (ds.length - places) ++ '.' :: ds.drop (ds.length - places))

/-- The text of a double: shortest digits in positional notation, `NaN`, `inf`, and a minus sign
in front of every value whose sign bit is set. -/
def text (x : Float) : String :=
  match parts x with
  | none => if x.isNaN then "NaN" else if x < 0 then "-inf" else "inf"
  | some p =>
    let digits := if p.significand = 0 then "0" else p.shortest.toText
    if p.negative then "-" ++ digits else digits

end TagTemplate.Decimal
