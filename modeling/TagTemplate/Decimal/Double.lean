/-! # Doubles as integers times powers of two

A finite double is `m * 2 ^ q` for a significand `m < 2 ^ 53` and an exponent `q ≥ -1074`.

* `parts` reads the significand and the exponent off the bits.
* `nearest` rounds a quotient of natural numbers to the nearest double, a tie to the even one. -/

namespace TagTemplate.Decimal

/-- Significand, exponent and sign of a finite double. -/
structure Parts where
  negative : Bool
  significand : Nat
  exponent : Int
deriving DecidableEq, Repr

/-- The parts of a double, none for an infinity or a value that is not a number. -/
def parts (x : Float) : Option Parts :=
  let bits := x.toBits.toNat
  let fraction := bits % Nat.pow 2 52
  let biased : Nat := bits / Nat.pow 2 52 % Nat.pow 2 11
  let negative := bits / Nat.pow 2 63 = 1
  if biased = 2047 then none
  else if biased = 0 then some ⟨negative, fraction, -1074⟩
  else some ⟨negative, fraction + Nat.pow 2 52, (biased : Int) - 1075⟩

/-- The quotient rounded to a natural number, a half to the even neighbour. -/
def roundDiv (num den : Nat) : Nat :=
  let d := num / den
  let r := num % den
  if den < 2 * r ∨ (2 * r = den ∧ d % 2 = 1) then d + 1 else d

/-- `num / den * 2 ^ (-q)`, rounded. -/
def scaledDiv (num den : Nat) (q : Int) : Nat :=
  if q < 0 then roundDiv (num * Nat.pow 2 (-q).toNat) den
  else roundDiv num (den * Nat.pow 2 q.toNat)

/-- `num / den < 2 ^ e`. -/
def belowPower (num den : Nat) (e : Int) : Bool :=
  if e < 0 then num * Nat.pow 2 (-e).toNat < den else num < den * Nat.pow 2 e.toNat

/-- The bits of the double nearest to `num / den`, a tie going to the even one. -/
def nearestBits (num den : Nat) : Nat :=
  if num = 0 then 0 else
  let e : Int := (num.log2 : Int) - den.log2
  let top := if belowPower num den e then e - 1 else e
  let q := max (top - 52) (-1074)
  let m := scaledDiv num den q
  if m < Nat.pow 2 52 then m
  else min ((q + 1075).toNat * Nat.pow 2 52 + (m - Nat.pow 2 52)) (2047 * Nat.pow 2 52)

/-- The double nearest to `num / den`, infinity when the quotient is too large. -/
def nearest (negative : Bool) (num den : Nat) : Float :=
  Float.ofBits (UInt64.ofNat (nearestBits num den + if negative then Nat.pow 2 63 else 0))

end TagTemplate.Decimal
