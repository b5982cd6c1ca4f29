import TagTemplate.Decimal.Double

/-! # Integers of doubles

`truncated` drops the places of a double and keeps the rest within the integers of 64 bits. -/

namespace TagTemplate.Decimal

/-- The integer in front of the point of a finite double. -/
def Parts.whole (p : Parts) : Int :=
  let size : Nat :=
    if p.exponent < 0 then p.significand / Nat.pow 2 (-p.exponent).toNat
    else p.significand * Nat.pow 2 p.exponent.toNat
  if p.negative then -size else size

/-- A double without its places: the nearest integer of 64 bits where it lies beyond them, and zero
for what is not a number. -/
def truncated (x : Float) : Int64 :=
  match parts x with
  | some p => .ofIntClamp p.whole
  | none => if x.isNaN then 0 else if x < 0 then Int64.minValue else Int64.maxValue

end TagTemplate.Decimal
