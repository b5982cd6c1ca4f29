import TagTemplate.Text.Basic

/-! # Fingerprints of names

A fingerprint is a keyed hash of a text, SipHash with one round per word and three at the end,
under the key zero, cut to 24 bits.  It is written as six hexadecimal digits. -/

namespace TagTemplate.Text

/-- The state of the hash: four words. -/
structure SipState where
  v0 : UInt64
  v1 : UInt64
  v2 : UInt64
  v3 : UInt64
deriving DecidableEq, Repr

namespace SipState

/-- The word with its bits turned to the left, those that leave coming back at the right. -/
def rotate (x : UInt64) (n : UInt64) : UInt64 :=
  (x <<< n) ||| (x >>> (64 - n))

/-- The state before the first word, under the key zero. -/
def start : SipState :=
  ⟨0x736f6d6570736575, 0x646f72616e646f6d, 0x6c7967656e657261, 0x7465646279746573⟩

def round (s : SipState) : SipState :=
  let a0 := s.v0 + s.v1
  let a1 := rotate s.v1 13 ^^^ a0
  let a2 := s.v2 + s.v3
  let a3 := rotate s.v3 16 ^^^ a2
  let b0 := rotate a0 32 + a3
  let b3 := rotate a3 21 ^^^ b0
  let b2 := a2 + a1
  let b1 := rotate a1 17 ^^^ b2
  ⟨b0, b1, rotate b2 32, b3⟩

/-- The state after a word. -/
def absorb (s : SipState) (word : UInt64) : SipState :=
  let t := round { s with v3 := s.v3 ^^^ word }
  { t with v0 := t.v0 ^^^ word }

/-- The hash at the end. -/
def finish (s : SipState) : UInt64 :=
  let t := round (round (round { s with v2 := s.v2 ^^^ 0xff }))
  t.v0 ^^^ t.v1 ^^^ t.v2 ^^^ t.v3

end SipState

/-- The word of up to eight bytes, the first byte in the lowest place. -/
def wordOfBytes (bytes : List UInt8) : UInt64 :=
  bytes.foldr (fun b w => (w <<< 8) ||| b.toUInt64) 0

/-- The state after a list of bytes; the last word holds the number of bytes at its top. -/
def absorbBytes (count : Nat) (s : SipState) : List UInt8 → SipState
  | b0 :: b1 :: b2 :: b3 :: b4 :: b5 :: b6 :: b7 :: rest =>
    absorbBytes count (s.absorb (wordOfBytes [b0, b1, b2, b3, b4, b5, b6, b7])) rest
  | rest => s.absorb (wordOfBytes rest ||| (UInt64.ofNat count <<< 56))

def hashBytes (bytes : List UInt8) : UInt64 :=
  (absorbBytes bytes.length .start bytes).finish

/-- The fingerprint of a text: its bytes are ended by one that occurs in no text. -/
def fingerprint (s : String) : Nat :=
  (hashBytes (s.toUTF8.toList ++ [0xff])).toNat % Nat.pow 2 24

/-- A digit of the hexadecimal notation. -/
def hexDigit (n : Nat) : Char :=
  Char.ofNat (if n < 10 then 48 + n else 87 + n)

/-- The last `count` hexadecimal digits of a number. -/
def hexDigits : Nat → Nat → List Char
  | 0, _ => []
  | count + 1, n => hexDigits count (n / 16) ++ [hexDigit (n % 16)]

end TagTemplate.Text
