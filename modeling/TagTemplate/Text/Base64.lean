/-! # Base64

Three bytes are written as four digits of the alphabet `A`–`Z`, `a`–`z`, `0`–`9`, `+`, `/`; one or
two bytes at the end as two or three digits, filled up to four with `=`.  `decode` accepts only
what `encode` writes: full padding, and no bits set that stand for no byte. -/

namespace TagTemplate.Text.Base64

/-- Why a text is not the encoding of any bytes. -/
inductive Error where
  | symbol (offset : Nat) (byte : UInt8)
  | length (n : Nat)
  | lastSymbol (offset : Nat) (byte : UInt8)
  | padding
deriving DecidableEq, Repr

namespace Error

def message : Error → String
  | symbol offset byte =>
    "Invalid symbol " ++ toString byte.toNat ++ ", offset " ++ toString offset ++ "."
  | length n => "Invalid input length: " ++ toString n
  | lastSymbol offset byte =>
    "Invalid last symbol " ++ toString byte.toNat ++ ", offset " ++ toString offset ++ "."
  | padding => "Invalid padding"

end Error

/-- The byte that fills up the last group. -/
def pad : UInt8 := 61

/-- The byte of a digit below 64. -/
def digit (n : Nat) : UInt8 :=
  if n < 26 then UInt8.ofNat (n + 65)
  else if n < 52 then UInt8.ofNat (n - 26 + 97)
  else if n < 62 then UInt8.ofNat (n - 52 + 48)
  else if n = 62 then 43 else 47

def value? (b : UInt8) : Option Nat :=
  let n := b.toNat
  if 65 ≤ n ∧ n ≤ 90 then some (n - 65)
  else if 97 ≤ n ∧ n ≤ 122 then some (n - 97 + 26)
  else if 48 ≤ n ∧ n ≤ 57 then some (n - 48 + 52)
  else if n = 43 then some 62
  else if n = 47 then some 63
  else none

theorem value?_digit {n : Nat} (h : n < 64) : value? (digit n) = some n := by
  revert n; decide

/-- The digits of a list of bytes. -/
def encode : List UInt8 → List UInt8
  | [] => []
  | [a] => [digit (a.toNat / 4), digit (a.toNat % 4 * 16), pad, pad]
  | [a, b] =>
    [digit (a.toNat / 4), digit (a.toNat % 4 * 16 + b.toNat / 16), digit (b.toNat % 16 * 4), pad]
  | a :: b :: c :: rest =>
    digit (a.toNat / 4) :: digit (a.toNat % 4 * 16 + b.toNat / 16)
      :: digit (b.toNat % 16 * 4 + c.toNat / 64) :: digit (c.toNat % 64) :: encode rest

/-- The values of a list of digits that begins at `offset`. -/
def values (offset : Nat) : List UInt8 → Except Error (List Nat)
  | [] => .ok []
  | b :: rest =>
    match value? b with
    | none => .error (.symbol offset b)
    | some v => (values (offset + 1) rest).map (v :: ·)

/-- The bytes of groups of four digits; of an incomplete last group the bytes that are complete. -/
def bytes : List Nat → List UInt8
  | a :: b :: c :: d :: rest =>
    UInt8.ofNat (a * 4 + b / 16) :: UInt8.ofNat (b % 16 * 16 + c / 4)
      :: UInt8.ofNat (c % 4 * 64 + d) :: bytes rest
  | [a, b, c] => [UInt8.ofNat (a * 4 + b / 16), UInt8.ofNat (b % 16 * 16 + c / 4)]
  | [a, b] => [UInt8.ofNat (a * 4 + b / 16)]
  | _ => []

/-- The bits of an incomplete last group that belong to no byte. -/
def spareBits : List Nat → Nat
  | [_, b] => b % 16
  | [_, _, c] => c % 4
  | _ => 0

/-- The bytes of the last group, which begins at `offset` and may be padded. -/
def decodeLast (offset : Nat) (group : List UInt8) : Except Error (List UInt8) :=
  let digits := group.takeWhile (· ≠ pad)
  let padding := group.dropWhile (· ≠ pad)
  let n := digits.length
  match values offset digits with
  | .error e => .error e
  | .ok vs =>
    if padding ≠ [] ∧ (n < 2 ∨ padding.any (· ≠ pad)) then .error (.symbol (offset + n) pad)
    else if group ≠ [] ∧ n < 2 then .error (.length (offset + n))
    else if (n + padding.length) % 4 ≠ 0 then .error .padding
    else if spareBits vs ≠ 0 then .error (.lastSymbol (offset + n - 1) (digits.getLast?.getD 0))
    else .ok (bytes vs)

/-- The bytes that a text of digits stands for. -/
def decode (input : List UInt8) : Except Error (List UInt8) :=
  let n := input.length
  let last := input.getLast?.getD pad
  if n % 4 = 1 ∧ last ≠ pad ∧ value? last = none then .error (.symbol (n - 1) last)
  else
    let whole := if n % 4 = 0 then n - 4 else n - n % 4
    match values 0 (input.take whole) with
    | .error e => .error e
    | .ok vs => (decodeLast whole (input.drop whole)).map (bytes vs ++ ·)

end TagTemplate.Text.Base64
