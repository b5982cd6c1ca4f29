import TagTemplate.Text.Basic

/-! # Positions in a text

A position counts the characters before it, an offset the bytes before it. -/

namespace TagTemplate.Text

def offsetOf (s : List Char) (position : Nat) : Nat :=
  byteLength (s.take position)

/-- The first position whose offset is not below `offset`. -/
def positionOf : List Char → Nat → Nat
  | [], _ => 0
  | c :: s, offset => if offset = 0 then 0 else positionOf s (offset - c.utf8Size) + 1

@[simp] theorem offsetOf_zero (s : List Char) : offsetOf s 0 = 0 := by
  simp [offsetOf]

theorem offsetOf_length (s : List Char) : offsetOf s s.length = byteLength s := by
  simp [offsetOf]

theorem positionOf_offsetOf {s : List Char} {n : Nat} (h : n ≤ s.length) :
    positionOf s (offsetOf s n) = n := by
  induction s generalizing n with
  | nil =>
    simp at h
    subst h
    rfl
  | cons c s ih =>
    cases n with
    | zero => rfl
    | succ n =>
      have hc := c.utf8Size_pos
      have : c.utf8Size + byteLength (s.take n) ≠ 0 := by omega
      simp only [offsetOf, List.take_succ_cons, byteLength_cons, positionOf, this, if_false,
        Nat.add_sub_cancel_left]
      exact congrArg (· + 1) (ih (by simpa using h))

end TagTemplate.Text
