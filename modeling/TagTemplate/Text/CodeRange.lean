/-! # Tables of code points

A table lists inclusive ranges of code points in increasing order.  Membership stops at the first
range that begins after the character. -/

namespace TagTemplate.Text

/-- The code point `n` lies in one of the ranges of an increasing table. -/
def inRanges (n : Nat) : List (Nat × Nat) → Bool
  | [] => false
  | (lo, hi) :: rest => if n < lo then false else if n ≤ hi then true else inRanges n rest

end TagTemplate.Text
